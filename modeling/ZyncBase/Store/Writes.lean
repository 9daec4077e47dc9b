import ZyncBase.Authorization.CheckedEvaluation
import ZyncBase.Storage.WriteLoop

/-! The store writes of clients: a path and a value are parsed, checked and authorized, as a create or
as an update, before the operation is queued. A batch keeps track of the documents that its entries
leave behind. -/
namespace ZyncBase

open Guarded Outcome CheckedEvaluation

structure StorePath where
  tableIndex : ℕ
  table : Table
  docId : DocId

def StorePath.key (path : StorePath) : RowKey := ⟨path.tableIndex, path.docId⟩

/-- Authorization and the identity of a write. -/
structure WriteContext where
  request : RequestFacts
  writeId : Option ℕ := none

def WriteContext.ack (ctx : WriteContext) : Option WriteAck :=
  ctx.writeId.map fun writeId => ⟨ctx.request.connId, writeId⟩

/-- Constraints are kept by table and field. -/
structure StoreService where
  schema : Schema
  constraints : ℕ → ℕ → Option Constraints
  authConfig : AuthConfig

/-- What a batch knows of the documents that its earlier entries write. -/
inductive DocState where
  | exists_ | deleted
  deriving DecidableEq, Repr

abbrev BatchDocStates := List (RowKey × DocState)

def DocId.fromPayload (p : Payload) : Checked DocId :=
  if !matchesType .bytes p then refuse .invalidMessageFormat
  else do
    let bytes ← p.binBytes
    (docIdFromBytes bytes).mapError liftCodecError

namespace StoreService

variable (service : StoreService)

def parseStorePath (payload : Payload) : Checked StorePath :=
  if !matchesType .array payload then refuse .invalidMessageFormat
  else do
    let path ← payload.arrItems
    if path.length ≠ 2 then refuse .invalidPath
    else
      match (← elementAt path 0).toUsize with
      | none => refuse .invalidMessageFormat
      | some tableIndex =>
        match service.schema.tableByIndex tableIndex with
        | none => refuse .unknownTable
        | some table =>
          let docId ← DocId.fromPayload (← elementAt path 1)
          return { tableIndex, table, docId }

def writeContext (ctx : RequestFacts) (captures : Captures) (path : StorePath)
    (value : Option Payload) : CandidateContext :=
  { ctx.evalContext captures with
    pathTable := some path.table.name.toUTF8.toList
    valuePayload := value
    valueTable := some path.table
    docId := some path.docId
    ownerDocId := some ctx.userDocId }

def authorizeStoreWrite (ctx : RequestFacts) (path : StorePath) (value : Option Payload)
    (isCreate : Bool) : Checked (Option FilterPredicate) :=
  match ctx.storeNamespace with
  | none => refuse .sessionNotReady
  | some nspace =>
    match service.authConfig.matchNamespaceRule nspace with
    | none => refuse .namespaceUnauthorized
    | some (_, captures) =>
      match service.authConfig.storeRuleFor path.table.name with
      | none => refuse .accessDenied
      | some rule =>
        CheckedEvaluation.authorizeWriteCondition rule.write
          (writeContext ctx captures path value) path.table isCreate

/-- The operation of an accepted set. A document that exists is only updated. -/
def setOp (ctx : RequestFacts) (path : StorePath) (columns : List ColumnValue)
    (guardPredicate : Option FilterPredicate) (timestamp : ℤ) (ack : Option WriteAck)
    (isCreate : Bool) : RowOp :=
  if isCreate then
    .upsert {
      tableIndex := path.tableIndex, id := path.docId, namespaceId := ctx.storeNamespaceId
      ownerDocId := ctx.userDocId, columns, guardPredicate, timestamp, ack }
  else
    .update {
      tableIndex := path.tableIndex, id := path.docId, namespaceId := ctx.storeNamespaceId
      columns, guardPredicate, timestamp, ack }

def checkRequired (table : Table) (columns : List ColumnValue) (isCreate : Bool) : Checked Unit :=
  if isCreate then validateRequiredFieldsForCreate table columns else .ok ()

def checkSet (ctx : RequestFacts) (path : StorePath) (value : Payload) (isCreate : Bool) :
    Checked (List ColumnValue × Option FilterPredicate) :=
  if !matchesType .array value then refuse .invalidPayload
  else do
    let columns ← decodeColumnsFromPairs (service.constraints path.tableIndex) path.table value
    checkRequired path.table columns isCreate
    let guardPredicate ← service.authorizeStoreWrite ctx path (some value) isCreate
    return (columns, guardPredicate)

def removeOp (ctx : RequestFacts) (path : StorePath) (guardPredicate : Option FilterPredicate)
    (ack : Option WriteAck) : RowOp :=
  .delete {
    tableIndex := path.tableIndex, id := path.docId, namespaceId := ctx.storeNamespaceId
    guardPredicate, ack }

section Requests

variable (documentExists : RowKey → Bool) (ctx : WriteContext) (timestamp : ℤ)

def applySet (path : StorePath) (value : Payload) : Checked RowOp := do
  let isCreate := !documentExists path.key
  let (columns, guardPredicate) ← service.checkSet ctx.request path value isCreate
  return setOp ctx.request path columns guardPredicate timestamp ctx.ack isCreate

def setPath (path value : Payload) : Checked RowOp := do
  service.applySet documentExists ctx timestamp (← service.parseStorePath path) value

def removePath (path : Payload) : Checked RowOp := do
  let path ← service.parseStorePath path
  return removeOp ctx.request path (← service.authorizeStoreWrite ctx.request path none false) ctx.ack

/-- What the batch takes a set of this document for. -/
def isCreateInBatch (docStates : BatchDocStates) (key : RowKey) : Bool :=
  match AssocMap.find AssocMap.eqKey key docStates with
  | some state => state = .deleted
  | none => !documentExists key

def buildBatchSetEntry (path value : Payload) (docStates : BatchDocStates) :
    Checked (RowOp × BatchDocStates) := do
  let path ← service.parseStorePath path
  let isCreate := isCreateInBatch documentExists docStates path.key
  let (columns, guardPredicate) ← service.checkSet ctx.request path value isCreate
  return (setOp ctx.request path columns guardPredicate timestamp none isCreate,
    AssocMap.put AssocMap.eqKey path.key .exists_ docStates)

def buildBatchRemoveEntry (path : Payload) (docStates : BatchDocStates) : Checked (RowOp × BatchDocStates) := do
  let path ← service.parseStorePath path
  let guardPredicate ← service.authorizeStoreWrite ctx.request path none false
  return (removeOp ctx.request path guardPredicate none,
    AssocMap.put AssocMap.eqKey path.key .deleted docStates)

/-- Entries are `["s", path, value]` or `["r", path]`. -/
def buildBatchEntry (payload : Payload) (docStates : BatchDocStates) : Checked (RowOp × BatchDocStates) :=
  if !matchesType .array payload then refuse .invalidMessageFormat
  else do
    let tuple ← payload.arrItems
    if tuple.length < 2 then refuse .invalidMessageFormat
    else
      let head ← elementAt tuple 0
      if !matchesType .text head then refuse .invalidMessageFormat
      else
        let kind ← head.strBytes
        if kind = [115] then
          if tuple.length < 3 then refuse .missingRequiredFields
          else
            service.buildBatchSetEntry documentExists ctx timestamp (← elementAt tuple 1)
              (← elementAt tuple 2) docStates
        else if kind = [114] then
          service.buildBatchRemoveEntry ctx (← elementAt tuple 1) docStates
        else refuse .invalidMessageFormat

def buildBatchEntries : List Payload → BatchDocStates → Checked (List RowOp)
  | [], _ => .ok []
  | op :: ops, docStates => do
    let (entry, docStates) ← service.buildBatchEntry documentExists ctx timestamp op docStates
    return entry :: (← buildBatchEntries ops docStates)

/-- The operation of a batch, unless it is empty. -/
def batchWrite (opsPayload : Payload) : Checked (Option WriteOp) :=
  if !matchesType .array opsPayload then refuse .invalidMessageFormat
  else do
    let ops ← opsPayload.arrItems
    if ops.length = 0 then return none
    else if 500 < ops.length then refuse .batchTooLarge
    else
      let entries ← service.buildBatchEntries documentExists ctx timestamp ops []
      if entries.all fun entry => (service.schema.tableByIndex entry.target.tableIndex).isSome then
        return some (.batch entries ctx.ack)
      else refuse .unknownTable

end Requests

section Safety

lemma answers_docId (p : Payload) : Answers (DocId.fromPayload p) := by
  unfold DocId.fromPayload
  cases hm : matchesType .bytes p with
  | false => exact answers_refuse _
  | true =>
    refine (answers_binBytes hm).bind fun bytes _ => ?_
    unfold docIdFromBytes
    split_ifs
    · exact answers_ok _
    · exact answers_error _

lemma answers_parseStorePath (payload : Payload) : Answers (service.parseStorePath payload) := by
  unfold parseStorePath
  cases hm : matchesType .array payload with
  | false => exact answers_refuse _
  | true =>
    refine (answers_arrItems hm).bind fun path _ => ?_
    split_ifs with hlen
    · exact answers_refuse _
    rw [elementAt_eq (by omega : 0 < path.length), elementAt_eq (by omega : 1 < path.length), ok_bind]
    cases path[0].toUsize with
    | none => exact answers_refuse _
    | some tableIndex =>
      dsimp only
      cases service.schema.tableByIndex tableIndex with
      | none => exact answers_refuse _
      | some table => exact (answers_docId _).bind fun _ _ => answers_pure _

lemma answers_authorizeStoreWrite {ctx : RequestFacts} {path : StorePath}
    {value : Option Payload} (isCreate : Bool)
    (h : ∀ captures, Readable
      (writeContext ctx captures path value).toEvalContext) :
    Answers (service.authorizeStoreWrite ctx path value isCreate) := by
  unfold authorizeStoreWrite
  cases ctx.storeNamespace with
  | none => exact answers_refuse _
  | some nspace =>
    dsimp only
    cases service.authConfig.matchNamespaceRule nspace with
    | none => exact answers_refuse _
    | some found =>
      dsimp only
      cases service.authConfig.storeRuleFor path.table.name with
      | none => exact answers_refuse _
      | some rule => exact (h found.2).authorizeWriteCondition rule.write isCreate

lemma readable_writeContext {constraints : ℕ → Option Constraints} {path : StorePath}
    {items : List Payload} {columns : List ColumnValue}
    (h : decodeColumnsFromPairs constraints path.table (.arr items) = .ok columns)
    (ctx : RequestFacts) (captures : Captures) : Readable
      (writeContext ctx captures path (some (.arr items))).toEvalContext := by
  intro field
  obtain ⟨ps, seen, hps, hcols⟩ := columnsOf_decodeColumnsFromPairs h
  have hshape (i : ℕ) (f : Field) (hf : path.table.fields[i]? = some f) :
      misshapen items i f.storageType f.itemsType = false := by
    rw [misshapen, findLastValue, hps]
    change ((ps.reverse.find? (isFor i)).bind fun p => some p.2).any _ = false
    cases hfind : ps.reverse.find? (isFor i) with
    | none => rfl
    | some p =>
      obtain ⟨c, g, -, hg, hvalue⟩ := hcols.present i p hfind
      rw [hf, Option.some.injEq] at hg
      subst hg
      have hne : fromPayload f.storageType f.itemsType p.2 ≠ .error .aborted := by
        rw [hvalue]
        intro herror
        cases herror
      rw [Ne, fromPayload_eq_aborted] at hne
      simpa [and_assoc] using hne
  change misshapenNamed Field.name Field.storageType Field.itemsType
    path.table.fields field items = false
  unfold misshapenNamed
  rw [Option.any_eq_false]
  intro i hi
  rw [Option.any_eq_false]
  intro f hf
  exact hshape i f hf

lemma answers_checkSet (ctx : RequestFacts) (path : StorePath) (value : Payload)
    (isCreate : Bool) : Answers (service.checkSet ctx path value isCreate) := by
  unfold checkSet
  cases value with
  | arr items =>
    refine (answers_decodeColumnsFromPairs rfl).bind fun columns hcolumns => ?_
    refine Answers.bind ?_ fun _ _ => ?_
    · unfold checkRequired
      split_ifs
      · exact answers_validateRequiredFieldsForCreate _
      · exact answers_ok _
    · refine Answers.bind ?_ fun _ _ => answers_pure _
      exact service.answers_authorizeStoreWrite isCreate (readable_writeContext hcolumns ctx)
  | _ => exact answers_refuse _

lemma answers_authorizeRemove (ctx : RequestFacts) (path : StorePath) :
    Answers (service.authorizeStoreWrite ctx path none false) :=
  service.answers_authorizeStoreWrite false fun _ _ => rfl

variable (documentExists : RowKey → Bool) (ctx : WriteContext) (timestamp : ℤ)

lemma answers_setPath (path value : Payload) :
    Answers (service.setPath documentExists ctx timestamp path value) := by
  refine (service.answers_parseStorePath path).bind fun path _ => ?_
  exact (service.answers_checkSet _ _ _ _).bind fun _ _ => answers_pure _

lemma answers_removePath (path : Payload) : Answers (service.removePath ctx path) := by
  refine (service.answers_parseStorePath path).bind fun path _ => ?_
  exact (service.answers_authorizeRemove _ path).bind fun _ _ => answers_pure _

lemma answers_buildBatchEntry (payload : Payload) (docStates : BatchDocStates) :
    Answers (service.buildBatchEntry documentExists ctx timestamp payload docStates) := by
  unfold buildBatchEntry
  cases hm : matchesType .array payload with
  | false => exact answers_refuse _
  | true =>
    refine (answers_arrItems hm).bind fun tuple _ => ?_
    by_cases hlen : tuple.length < 2
    · rw [if_pos hlen]
      exact answers_refuse _
    rw [if_neg hlen, elementAt_eq (by omega : 0 < tuple.length),
      elementAt_eq (by omega : 1 < tuple.length), ok_bind, ok_bind]
    cases htext : matchesType .text tuple[0] with
    | false => exact answers_refuse _
    | true =>
      refine (answers_strBytes htext).bind fun kind _ => ?_
      split_ifs with hset hshort hremove
      · exact answers_refuse _
      · rw [elementAt_eq (by omega : 2 < tuple.length), ok_bind]
        refine (service.answers_parseStorePath _).bind fun path _ => ?_
        exact (service.answers_checkSet _ _ _ _).bind fun _ _ => answers_pure _
      · refine (service.answers_parseStorePath _).bind fun path _ => ?_
        exact (service.answers_authorizeRemove _ path).bind fun _ _ => answers_pure _
      · exact answers_refuse _

lemma answers_buildBatchEntries (ops : List Payload) (docStates : BatchDocStates) :
    Answers (service.buildBatchEntries documentExists ctx timestamp ops docStates) := by
  induction ops generalizing docStates with
  | nil => exact answers_ok _
  | cons op ops ih =>
    refine (service.answers_buildBatchEntry documentExists ctx timestamp op docStates).bind ?_
    exact fun res _ => (ih res.2).bind fun _ _ => answers_pure _

lemma answers_batchWrite (opsPayload : Payload) :
    Answers (service.batchWrite documentExists ctx timestamp opsPayload) := by
  unfold batchWrite
  cases hm : matchesType .array opsPayload with
  | false => exact answers_refuse _
  | true =>
    refine (answers_arrItems hm).bind fun ops _ => ?_
    split_ifs
    · exact answers_pure _
    · exact answers_refuse _
    · refine (service.answers_buildBatchEntries documentExists ctx timestamp ops []).bind ?_
      intro entries _
      split_ifs
      · exact answers_pure _
      · exact answers_refuse _

end Safety
end StoreService
end ZyncBase
