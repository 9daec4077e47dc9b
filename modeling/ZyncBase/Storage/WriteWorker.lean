import ZyncBase.Storage.Referential
import ZyncBase.Storage.WriteOps

/-! The write worker: row operations executed inside a transaction, with the bookkeeping that is
applied to the primary key sets, the document cache and the change queue when it commits. -/
namespace ZyncBase

open AssocMap

def maxSafeTimestampUs : ℤ := 9007199254740991

structure DocumentCacheKey where
  namespaceId : ℤ
  tableIndex : ℕ
  id : DocId
  deriving DecidableEq, Repr

inductive CacheOp where
  | update (key : DocumentCacheKey) (data : Record)
  | evict (key : DocumentCacheKey)
  deriving DecidableEq, Repr

inductive PkOperation where
  | insert | delete
  deriving DecidableEq, Repr

structure PkMutation where
  key : RowKey
  operation : PkOperation
  deriving DecidableEq, Repr

inductive ChangeOperation where
  | insert | update | delete
  deriving DecidableEq, Repr

structure OwnedRecordChange where
  namespaceId : ℤ
  key : RowKey
  operation : ChangeOperation
  oldRecord : Option Record
  newRecord : Option Record
  deriving DecidableEq, Repr

/-- The worker between transactions. `namespaces` is the table that numbers namespace names, and
the primary key sets of all tables are kept as one set. Cache keys are kept unhashed. -/
structure WriteWorker where
  db : Database := {}
  namespaces : List (Bytes × ℤ) := []
  version : ℕ := 0
  changeQueue : Option (List OwnedRecordChange) := none
  documentCache : List (DocumentCacheKey × Record) := []
  namespaceCache : List (Bytes × ℤ) := []
  identityCache : List ((ℤ × Bytes) × DocId) := []
  pkSets : List RowKey := []
  lastCreatedAt : ℕ → ℤ := fun _ => 0

/-- A transaction in progress: the worker as it began, the rows as the connection sees them and
what is to be applied on commit. -/
structure BatchCtx where
  self : WriteWorker
  db : Database
  lastCreatedAt : ℕ → ℤ
  pendingChanges : List OwnedRecordChange := []
  pkMutations : List PkMutation := []
  pendingCacheOps : List CacheOp := []
  guardRejected : List ℕ := []

/-- Steps of a transaction. What a failed step did outside the database remains. -/
abbrev Tx := EStateM StorageError BatchCtx

def getCacheKey (t : Table) (namespaceId : ℤ) (id : DocId) : DocumentCacheKey :=
  ⟨if t.namespaced then namespaceId else globalNamespaceId, t.index, id⟩

/-- Creation times of a table strictly increase. -/
def claimNextCreatedAt (last candidateUs : ℤ) : Except StorageError ℤ :=
  if last < 0 ∨ last ≥ maxSafeTimestampUs ∨ candidateUs < 0 ∨ candidateUs > maxSafeTimestampUs then
    .error .invalidOperation
  else .ok (max candidateUs (last + 1))

def operationForEndpoints (oldRecord newRecord : Option Record) : ChangeOperation :=
  if newRecord = none then .delete else if oldRecord = none then .insert else .update

/-- A second change of a row continues the first one. -/
def accumulateOwnedChange (namespaceId : ℤ) (key : RowKey) (oldRecord newRecord : Option Record) :
    List OwnedRecordChange → List OwnedRecordChange
  | [] => [⟨namespaceId, key, operationForEndpoints oldRecord newRecord, oldRecord, newRecord⟩]
  | c :: cs =>
    if c.namespaceId = namespaceId ∧ c.key = key then
      { c with newRecord, operation := operationForEndpoints c.oldRecord newRecord } :: cs
    else c :: accumulateOwnedChange namespaceId key oldRecord newRecord cs

/-- One row affected by a write, with what the bookkeeping is told about it. -/
structure RowEffect where
  key : RowKey
  namespaceId : ℤ
  pkInsert : Bool
  pkDelete : Bool
  oldRecord : Option Record
  newRecord : Option Record

namespace RowEffect

def cacheOp (t : Table) (e : RowEffect) : Option CacheOp :=
  match e.newRecord with
  | some r => some (.update (getCacheKey t e.namespaceId e.key.id) r)
  | none =>
    if e.pkDelete && e.oldRecord.isSome then some (.evict (getCacheKey t e.namespaceId e.key.id))
    else none

def pkMutations (e : RowEffect) : List PkMutation :=
  (if e.pkInsert && e.oldRecord.isNone then [⟨e.key, .insert⟩] else []) ++
    (if e.pkDelete then [⟨e.key, .delete⟩] else [])

end RowEffect

namespace BatchCtx

def trackCacheOp (t : Table) (e : RowEffect) (ctx : BatchCtx) : BatchCtx :=
  { ctx with pendingCacheOps := ctx.pendingCacheOps ++ (e.cacheOp t).toList }

def trackPkMutations (e : RowEffect) (ctx : BatchCtx) : BatchCtx :=
  { ctx with pkMutations := ctx.pkMutations ++ e.pkMutations }

def pushRowChange (e : RowEffect) (ctx : BatchCtx) : BatchCtx :=
  if ctx.self.changeQueue.isSome then
    { ctx with
      pendingChanges :=
        accumulateOwnedChange e.namespaceId e.key e.oldRecord e.newRecord ctx.pendingChanges }
  else ctx

def track (t : Table) (e : RowEffect) (ctx : BatchCtx) : BatchCtx :=
  pushRowChange e (trackPkMutations e (trackCacheOp t e ctx))

/-- Whether the row exists for this transaction: its own mutations count before the sets. -/
def containsEffectivePk (ctx : BatchCtx) (key : RowKey) : Bool :=
  match ctx.pkMutations.reverse.find? fun m => m.key = key with
  | some m => m.operation = .insert
  | none => key ∈ ctx.self.pkSets

end BatchCtx

section Execute

variable (s : Schema) (sqlite : Sqlite)

def liftExcept {α : Type} : Except StorageError α → Tx α
  | .ok a => fun ctx => .ok a ctx
  | .error e => fun ctx => .error e ctx

def requireTable (tableIndex : ℕ) : Tx Table := fun ctx =>
  match s.tableByIndex tableIndex with
  | none => .error .unknownTable ctx
  | some t => .ok t ctx

/-- Execute a statement: it fails and leaves the rows as they are, or it takes effect. -/
def performStatement (st : Statement) (effect : Database → Database × Option Record) :
    Tx (Option Record) := fun ctx =>
  match sqlite.error ctx.db st with
  | some e => .error e ctx
  | none => .ok (effect ctx.db).2 { ctx with db := (effect ctx.db).1 }

def getDocumentHelper (namespaceId : ℤ) (key : RowKey) : Tx (Option Record) := fun ctx =>
  match s.tableByIndex key.tableIndex with
  | none => .ok none ctx
  | some _ =>
    match sqlite.error ctx.db (.select key) with
    | some e => .error e ctx
    | none => .ok (ctx.db.select key namespaceId) ctx

def checkGuardConflict (namespaceId : ℤ) (key : RowKey) : Tx Bool := do
  let record ← getDocumentHelper s sqlite namespaceId key
  return record.isSome

/-- The row before the write, read only for the change queue. A failing read is only logged. -/
def prefetchOldRecord (namespaceId : ℤ) (key : RowKey) : Tx (Option Record) := fun ctx =>
  if ctx.self.changeQueue.isSome then
    match getDocumentHelper s sqlite namespaceId key ctx with
    | .ok record ctx => .ok record ctx
    | .error _ ctx => .ok none ctx
  else .ok none ctx

def claimCreatedAt (tableIndex : ℕ) (candidateUs : ℤ) : Tx ℤ := fun ctx =>
  if s.tables.length ≤ tableIndex then .error .unknownTable ctx
  else match claimNextCreatedAt (ctx.lastCreatedAt tableIndex) candidateUs with
    | .error e => .error e ctx
    | .ok next =>
      .ok next { ctx with lastCreatedAt := Function.update ctx.lastCreatedAt tableIndex next }

def newRow (t : Table) (namespaceId : ℤ) (ownerId : DocId) (externalId : Option Bytes)
    (columns : List ColumnValue) (createdAt : ℤ) : Row :=
  Row.insertColumns ⟨namespaceId, ownerId, externalId, List.replicate t.userFields.length .nil,
    createdAt, createdAt⟩ columns

def executeUpsert (op : UpsertOp) (namespaceId : ℤ) (ownerId : DocId) (t : Table) : Tx (Option Record) := do
  let guard ← liftExcept (renderAndClause t op.guardPredicate)
  liftExcept (checkColumns t op.columns)
  let createdAt ← claimCreatedAt s op.tableIndex op.timestamp
  let externalId := if t.isUsersTable then some (hexSlice op.id) else none
  let candidate := newRow t namespaceId ownerId externalId op.columns createdAt
  performStatement sqlite (.upsert ⟨op.tableIndex, op.id⟩ candidate op.columns) fun db =>
    db.upsert (guardSelects sqlite.enc t guard) ⟨op.tableIndex, op.id⟩ candidate op.columns

def executeUpdate (op : UpdateOp) (namespaceId : ℤ) (t : Table) : Tx (Option Record) := do
  let guard ← liftExcept (renderAndClause t op.guardPredicate)
  liftExcept (checkColumns t op.columns)
  if op.timestamp < 0 ∨ op.timestamp > maxSafeTimestampUs then throw .invalidOperation
  else
    performStatement sqlite (.update ⟨op.tableIndex, op.id⟩ namespaceId op.columns op.timestamp)
      fun db => db.update (guardSelects sqlite.enc t guard) ⟨op.tableIndex, op.id⟩ namespaceId
        op.columns op.timestamp

def executeDelete (op : DeleteOp) (namespaceId : ℤ) (t : Table) : Tx (Option Record) := do
  let guard ← liftExcept (renderAndClause t op.guardPredicate)
  performStatement sqlite (.delete ⟨op.tableIndex, op.id⟩ namespaceId) fun db =>
    db.delete (guardSelects sqlite.enc t guard) s ⟨op.tableIndex, op.id⟩ namespaceId

/-- Track an affected row. Answers false on a guard conflict: the row was there but unaffected. -/
def applyWriteResult (t : Table) (hasGuard : Bool) (e : RowEffect) : Tx Bool := fun ctx =>
  if e.newRecord.isSome || (e.pkDelete && e.oldRecord.isSome) then .ok true (ctx.track t e)
  else .ok (!(e.oldRecord.isSome && hasGuard)) ctx

/-- An upsert that returns no row under a guard met a row that the guard rejects. -/
def executeUpsertEntry (op : UpsertOp) (namespaceId : ℤ) (t : Table) : Tx Bool := do
  let ownerDocId := if t.isUsersTable then op.id else op.ownerDocId
  let oldRecord ← prefetchOldRecord s sqlite namespaceId ⟨op.tableIndex, op.id⟩
  let newRecord ← executeUpsert s sqlite op namespaceId ownerDocId t
  if newRecord.isNone && oldRecord.isNone && op.guardPredicate.isSome then return false
  else
    applyWriteResult t op.guardPredicate.isSome
      ⟨⟨t.index, op.id⟩, namespaceId, true, false, oldRecord, newRecord⟩

/-- The opposite of `checkGuardConflict`: without a row there is nothing to conflict with. -/
def unlessGuardConflict (namespaceId : ℤ) (key : RowKey) : Tx Bool := do
  let conflict ← checkGuardConflict s sqlite namespaceId key
  return !conflict

def executeUpdateEntry (op : UpdateOp) (namespaceId : ℤ) (t : Table) : Tx Bool := do
  let oldRecord ← prefetchOldRecord s sqlite namespaceId ⟨op.tableIndex, op.id⟩
  let newRecord ← executeUpdate sqlite op namespaceId t
  if newRecord.isNone && oldRecord.isNone && op.guardPredicate.isSome then
    unlessGuardConflict s sqlite namespaceId ⟨op.tableIndex, op.id⟩
  else
    applyWriteResult t op.guardPredicate.isSome
      ⟨⟨t.index, op.id⟩, namespaceId, false, false, oldRecord, newRecord⟩

/-- A captured change is read back: a deleted row must be gone and a nullified one still there. -/
def applyReferentialChange (c : ReferentialChange) : Tx Unit := do
  let t ← requireTable s c.key.tableIndex
  let newRecord ← getDocumentHelper s sqlite c.namespaceId c.key
  if decide (c.action = .delete) = newRecord.isSome then throw .foreignKeyReconciliationFailed
  else do
    let _ ← applyWriteResult t false
      ⟨⟨t.index, c.key.id⟩, c.namespaceId, false, c.action = .delete, some c.oldRecord, newRecord⟩

def applyReferentialChanges : List ReferentialChange → Tx Unit
  | [] => pure ()
  | c :: cs => do
    applyReferentialChange s sqlite c
    applyReferentialChanges cs

def applyReferentialChangesIf (deleted : Bool) (changes : List ReferentialChange) : Tx Unit :=
  if deleted then applyReferentialChanges s sqlite changes else pure ()

/-- The referential closure of a delete, when the row is known and its table has references that a
delete follows. -/
def tracedReferences (t : Table) (key : RowKey) : Tx (List ReferentialChange) := fun ctx =>
  if s.hasIncomingCascadeOrSetNull t.index && ctx.containsEffectivePk key then
    .ok (captureReferentialChanges s ctx.db ⟨t.index, key.id⟩) ctx
  else .ok [] ctx

def executeDeleteEntry (op : DeleteOp) (namespaceId : ℤ) (t : Table) : Tx Bool := do
  let changes ← tracedReferences s t ⟨op.tableIndex, op.id⟩
  let oldRecord ← executeDelete s sqlite op namespaceId t
  if oldRecord.isNone && op.guardPredicate.isSome then
    unlessGuardConflict s sqlite namespaceId ⟨op.tableIndex, op.id⟩
  else do
    let applied ← applyWriteResult t op.guardPredicate.isSome
      ⟨⟨t.index, op.id⟩, namespaceId, false, true, oldRecord, none⟩
    applyReferentialChangesIf s sqlite oldRecord.isSome changes
    return applied

end Execute
end ZyncBase
