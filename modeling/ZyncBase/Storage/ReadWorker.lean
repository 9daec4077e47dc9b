import ZyncBase.Storage.Pagination
import ZyncBase.Subscription.Registration

/-! The read worker: how it serves a request when any of the calls on the way may fail. -/
namespace ZyncBase

open FilterPredicate Outcome List

/-- What a read fails with. -/
inductive ReadFailure where
  | unknownTable | outOfMemory
  | query (error : ReadError)
  | storage (name : String)
  deriving DecidableEq, Repr

namespace ReadFailure

/-- The name that the error response reports. -/
def errorName : ReadFailure → String
  | unknownTable => "UnknownTable"
  | outOfMemory => "OutOfMemory"
  | query .invalidSortFormat => "InvalidSortFormat"
  | query .invalidMessageFormat => "InvalidMessageFormat"
  | query (.filter .invalidConditionFormat) => "InvalidConditionFormat"
  | query (.filter .missingConditionValue) => "MissingConditionValue"
  | query (.filter .invalidConditionValue) => "InvalidConditionValue"
  | storage name => name

end ReadFailure

/-- The calls that fail while a request is served, each with its error. Steps and decodings are
counted by the row, the bindings by the parameter. -/
structure ReadFaults where
  build : Option ReadFailure := none
  prepare : Option ReadFailure := none
  bind : ℕ → Option ReadFailure := fun _ => none
  step : ℕ → Option ReadFailure := fun _ => none
  decode : ℕ → Option ReadFailure := fun _ => none
  page : Option ReadFailure := none
  clone : Option ReadFailure := none
  slice : Bool := false
  arena : Bool := false
  encode : Bool := false
  encodeTooLarge : Bool := false
  push : Bool := false

/-- What the client is sent. -/
inductive ReadAnswer where
  | error (code message : String)
  | ok (subId : Option ℕ) (records : List Record) (nextCursor : Option Bytes)
  deriving DecidableEq, Repr

structure ReadResponse where
  records : List Record := []
  nextCursor : Option Bytes := none
  subId : Option ℕ := none
  err : Option ReadFailure := none

/-- The id that a filter looks up when it asks for nothing else. -/
def isPointLookup (filter : QueryFilter) : Option DocId :=
  match filter.orderBy, filter.predicate.conditions, filter.predicate.orClauses, filter.after with
  | [only], some [cond], none, none =>
    if only.fieldIndex = idFieldIndex ∧ only.desc = false ∧ cond.op = .eq ∧ cond.fieldIndex = idFieldIndex then
      match cond.value with
      | some (.scalar (.docId id)) => some id
      | _ => none
    else none
  | _, _, _, _ => none

namespace ReadWorker

def attempt : Option ReadFailure → Except ReadFailure Unit
  | none => .ok ()
  | some e => .error e

/-- The value in a column of the result. The elements of an array come through `json()`. -/
def typedValueFromColumn (f : Field) : SqlValue → Except ReadFailure Value
  | .null => .ok .nil
  | .integer v =>
    .ok (.scalar (if f.storageType = .boolean then .boolean (v ≠ 0) else .integer v))
  | .real v => .ok (.scalar (.real v))
  | .text text => .ok (.scalar (.text text))
  | .blob bytes =>
    if f.storageType = .docId then
      match docIdFromBytes bytes with
      | .ok id => .ok (.scalar (.docId id))
      | .error _ => .error (.storage "InvalidLength")
    else if f.storageType = .bytes then .ok (.scalar (.binary bytes))
    else .ok .nil
  | .jsonb items => .ok (.array items)

section Reading

variable (enc : Encodings) (encodeToken : Payload → Bytes) (faults : ReadFaults) (t : Table)

def decodeRecord (i : ℕ) (r : Record) : Except ReadFailure Record := do
  attempt (faults.decode i)
  let values ← (t.fields.zip r.values).mapM fun (f, v) => typedValueFromColumn f (storedValue v)
  return ⟨values⟩

/-- Step through the result until the page is full or the rows are exhausted. -/
def fetchRecords (limit : Option ℕ) : ℕ → List Record → Except ReadFailure (List Record × Bool)
  | count, [] => do
    attempt (faults.step count)
    return ([], false)
  | count, r :: rs => do
    attempt (faults.step count)
    if limit = some count then return ([], true)
    let record ← decodeRecord faults t count r
    let next ← fetchRecords limit (count + 1) rs
    return (record :: next.1, next.2)

def execQuery (binds : ℕ) (limit : Option ℕ) (descriptors : List SortDescriptor)
    (result : List Record) : Except ReadFailure (List Record × Option Bytes) := do
  if descriptors.any fun d => t.fields.length ≤ d.fieldIndex then
    throw (.query .invalidMessageFormat)
  attempt ((List.range binds).findSome? faults.bind)
  let (records, hasMore) ← fetchRecords faults t limit 0 result
  attempt faults.page
  let nextCursor := limit.bind fun limit =>
    if hasMore && 0 < limit && limit ≤ records.length then
      records[limit - 1]?.map fun last =>
        encodeToken (cursorPayload t.index descriptors (last.cursor descriptors).values)
    else none
  return (records, nextCursor)

def selectQuery (rows : List Record) (namespaceId : ℤ) (filter : QueryFilter) :
    Except ReadFailure (List Record × Option Bytes) := do
  attempt faults.build
  match selectStatement t namespaceId filter with
  | .error e => throw (.query e)
  | .ok q =>
    attempt faults.prepare
    execQuery encodeToken faults t q.print.values.length filter.limit filter.orderBy (q.run enc rows)

/-- Every error becomes an empty page. -/
def executeSelectQuery (rows : List Record) (namespaceId : ℤ) (filter : QueryFilter) :
    List Record × Option Bytes :=
  if filter.predicate.isAlwaysFalse then ([], none)
  else
    match selectQuery enc encodeToken faults t rows namespaceId filter with
    | .error _ => ([], none)
    | .ok page => page

def selectDocument (rows : List Record) (namespaceId : ℤ) (id : DocId) : Option Record :=
  rows.find? fun r => r.value namespaceIdFieldIndex = .scalar (.integer namespaceId) &&
    r.value idFieldIndex = .scalar (.docId id)

/-- From the cache, else from the database. That the record found is cached in turn, or fails to be,
is nothing to this response. -/
def executeSelectDocument (cached : Option Record) (rows : List Record) (namespaceId : ℤ)
    (id : DocId) : Except ReadFailure (Option Record) :=
  match cached with
  | some record => do
    attempt faults.clone
    return some record
  | none => do
    attempt (faults.bind 0)
    attempt (faults.bind 1)
    attempt (faults.step 0)
    match selectDocument rows namespaceId id with
    | none => return none
    | some r => return some (← decodeRecord faults t 0 r)

def buildResponse (req : ReadRequest) : Option Record → ReadResponse
  | none => { subId := req.subId }
  | some record =>
    if faults.slice then { err := some .outOfMemory }
    else { records := [record], subId := req.subId }

end Reading

section Serving

variable (enc : Encodings) (encodeToken : Payload → Bytes) (faults : ReadFaults) (s : Schema)

/-- Serve a request over the committed rows of its table. -/
def executeRead (cache : ℤ → DocId → Option Record) (rows : List Record) (req : ReadRequest) :
    ReadResponse :=
  match s.tableByIndex req.tableIndex with
  | none => { err := some .unknownTable }
  | some t =>
    let namespaceId := req.effectiveNamespaceId t
    match isPointLookup req.filter with
    | some id =>
      match executeSelectDocument faults t (cache namespaceId id) rows namespaceId id with
      | .error e => { subId := req.subId, err := some e }
      | .ok record => buildResponse faults req record
    | none =>
      let page := executeSelectQuery enc encodeToken faults t rows namespaceId req.filter
      { records := page.1, nextCursor := page.2, subId := req.subId }

/-- Encode and send a response. Nothing is sent when that fails. -/
def respond (size : ReadAnswer → ℕ) (maxSize : ℕ) (response : ReadResponse) : Option ReadAnswer :=
  if faults.arena then none
  else
    match response.err with
    | some e =>
      if faults.encode || faults.push then none else some (.error "STORE_QUERY" e.errorName)
    | none =>
      let answer := ReadAnswer.ok response.subId response.records response.nextCursor
      if faults.encode then none
      else if maxSize ≠ 0 ∧ maxSize < size answer then
        if faults.encodeTooLarge || faults.push then none
        else some (.error "RESPONSE_TOO_LARGE"
          "Query response exceeded the configured maximum size; reduce the query limit")
      else if faults.push then none
      else some answer

def serve (size : ReadAnswer → ℕ) (maxSize : ℕ) (cache : ℤ → DocId → Option Record)
    (rows : List Record) (req : ReadRequest) : Option ReadAnswer :=
  respond faults size maxSize (executeRead enc encodeToken faults s cache rows req)

end Serving

section Reading

variable {enc : Encodings} {encodeToken : Payload → Bytes} {faults : ReadFaults} {t : Table}
  {namespaceId : ℤ} {filter : QueryFilter} {rows : List Record}

lemma attempt_bind_eq_ok {α : Type} {fault : Option ReadFailure} {f : Unit → Except ReadFailure α} {a : α} :
    (attempt fault >>= f) = .ok a ↔ fault = none ∧ f () = .ok a := by
  cases fault with
  | none => simp [attempt]
  | some e => simp [attempt, bind, Except.bind]

lemma typedValueFromColumn_stored {f : Field} {v : Value} (h : f.Accepts v) :
    typedValueFromColumn f (storedValue v) = .ok v := by
  cases v with
  | nil => rfl
  | array items => rfl
  | scalar s =>
    change f.storageType.accepts s = true at h
    cases hf : f.storageType <;> rw [hf] at h <;> cases s <;>
      simp only [FieldType.accepts, Bool.false_eq_true] at h
    case docId.docId id =>
      simp only [storedValue, bindScalar, typedValueFromColumn, if_pos hf, docIdFromBytes_toBytes]
    case boolean.boolean b =>
      change Except.ok (Value.scalar (if f.storageType = .boolean then _ else _)) = _
      rw [if_pos hf]
      cases b <;> rfl
    case integer.integer v =>
      change Except.ok (Value.scalar (if f.storageType = .boolean then _ else _)) = _
      rw [if_neg (by rw [hf]; decide)]
    case bytes.binary b =>
      change (if f.storageType = .docId then _ else if f.storageType = .bytes then _ else _) = _
      rw [if_neg (by rw [hf]; decide), if_pos hf]
    all_goals rfl

lemma decodeRecord_eq_ok {i : ℕ} {r r' : Record} (hr : t.Conforms r) :
    decodeRecord faults t i r = .ok r' ↔ faults.decode i = none ∧ r' = r := by
  have hread : ∀ {fs : List Field} {vs : List Value}, List.Forall₂ (fun f v => f.Accepts v) fs vs →
      (fs.zip vs).mapM (fun (f, v) => typedValueFromColumn f (storedValue v)) = .ok vs := by
    intro fs vs h
    rw [mapM_eq_ok]
    induction h with
    | nil => exact .nil
    | cons h _ ih => exact .cons (typedValueFromColumn_stored h) ih
  have hvalues := hread hr
  rw [decodeRecord, attempt_bind_eq_ok, hvalues]
  refine and_congr_right fun _ => ?_
  change Except.ok (⟨r.values⟩ : Record) = _ ↔ _
  rw [Except.ok.injEq]
  exact eq_comm

lemma fetchRecords_eq_ok {limit : Option ℕ} {count : ℕ} {page : List Record × Bool}
    (hconforms : ∀ r ∈ rows, t.Conforms r) :
    fetchRecords faults t limit count rows = .ok page ↔ page = ZyncBase.fetchRecords limit count rows ∧
        (∀ i ≤ page.1.length, faults.step (count + i) = none) ∧
        ∀ i < page.1.length, faults.decode (count + i) = none := by
  induction rows generalizing count page with
  | nil =>
    rw [fetchRecords, attempt_bind_eq_ok]
    constructor
    · rintro ⟨hstep, h⟩
      cases h
      exact ⟨rfl, fun i hi => Nat.le_zero.mp hi ▸ hstep, fun i hi => absurd hi (Nat.not_lt_zero i)⟩
    · rintro ⟨rfl, hsteps, -⟩
      exact ⟨hsteps 0 (Nat.zero_le _), rfl⟩
  | cons r rs ih =>
    rw [forall_mem_cons] at hconforms
    rw [fetchRecords, attempt_bind_eq_ok, ZyncBase.fetchRecords]
    by_cases hfull : limit = some count
    · rw [if_pos hfull, if_pos hfull]
      constructor
      · rintro ⟨hstep, h⟩
        cases h
        exact ⟨rfl, fun i hi => Nat.le_zero.mp hi ▸ hstep, fun i hi => absurd hi (Nat.not_lt_zero i)⟩
      · rintro ⟨rfl, hsteps, -⟩
        exact ⟨hsteps 0 (Nat.zero_le _), rfl⟩
    · rw [if_neg hfull, if_neg hfull]
      constructor
      · rintro ⟨hstep, h⟩
        obtain ⟨record, hrecord, h⟩ := bind_eq_ok.mp h
        obtain ⟨next, hnext, h⟩ := bind_eq_ok.mp h
        cases h
        obtain ⟨hdecode, rfl⟩ := (decodeRecord_eq_ok hconforms.1).mp hrecord
        obtain ⟨rfl, hsteps, hdecodes⟩ := (ih hconforms.2).mp hnext
        refine ⟨rfl, fun i hi => ?_, fun i hi => ?_⟩
        · cases i with
          | zero => exact hstep
          | succ i =>
            rw [← Nat.add_assoc, Nat.add_right_comm]
            exact hsteps i (Nat.le_of_succ_le_succ hi)
        · cases i with
          | zero => exact hdecode
          | succ i =>
            rw [← Nat.add_assoc, Nat.add_right_comm]
            exact hdecodes i (Nat.lt_of_succ_lt_succ hi)
      · rintro ⟨rfl, hsteps, hdecodes⟩
        have hnext : fetchRecords faults t limit (count + 1) rs =
            .ok (ZyncBase.fetchRecords limit (count + 1) rs) := by
          refine (ih hconforms.2).mpr ⟨rfl, fun i hi => ?_, fun i hi => ?_⟩
          · rw [Nat.add_right_comm, Nat.add_assoc]
            exact hsteps (i + 1) (Nat.succ_le_succ hi)
          · rw [Nat.add_right_comm, Nat.add_assoc]
            exact hdecodes (i + 1) (Nat.succ_lt_succ hi)
        have hfirst : decodeRecord faults t count r = .ok r :=
          (decodeRecord_eq_ok hconforms.1).mpr ⟨hdecodes 0 (Nat.zero_lt_succ _), rfl⟩
        refine ⟨hsteps 0 (Nat.zero_le _), ?_⟩
        rw [hfirst, ok_bind, hnext]
        rfl

/-- A query whose statement can be built makes these calls. It fails when one of them does. -/
structure QuerySucceeds (faults : ReadFaults) (binds : ℕ) (fetched : ℕ) : Prop where
  build : faults.build = none
  prepare : faults.prepare = none
  bind : ∀ i < binds, faults.bind i = none
  step : ∀ i ≤ fetched, faults.step i = none
  decode : ∀ i < fetched, faults.decode i = none
  page : faults.page = none

/-- The page of the query over these rows, if its statement can be built. -/
def queryResult (enc : Encodings) (encodeToken : Payload → Bytes) (t : Table) (rows : List Record)
    (namespaceId : ℤ) (filter : QueryFilter) : Option (List Record × Option Bytes) :=
  match selectStatement t namespaceId filter with
  | .error _ => none
  | .ok q => (ZyncBase.execQuery encodeToken t filter.limit filter.orderBy (q.run enc rows)).toOption

lemma mem_run {q : SqlSelect} {r : Record} (h : r ∈ q.run enc rows) : r ∈ rows := by
  have hsorted : r ∈ Keyset.sort
      (fun a b => orderCompare enc q.orderBy (storedRow q.table a) (storedRow q.table b))
      (rows.filter fun r => q.evalWhere enc (storedRow q.table r) = some true) := by
    unfold SqlSelect.run at h
    split at h
    · exact h
    · exact mem_of_mem_take h
  exact (mem_filter.mp ((Keyset.perm_sort _ _).mem_iff.mp hsorted)).1

lemma selectQuery_eq_ok {q : SqlSelect} {page : List Record × Option Bytes}
    (hconforms : ∀ r ∈ rows, t.Conforms r) (hsortable : ∀ d ∈ filter.orderBy, d.Sortable t)
    (hq : selectStatement t namespaceId filter = .ok q) :
    selectQuery enc encodeToken faults t rows namespaceId filter = .ok page ↔
      QuerySucceeds faults q.print.values.length
          (ZyncBase.fetchRecords filter.limit 0 (q.run enc rows)).1.length ∧
        queryResult enc encodeToken t rows namespaceId filter = some page := by
  have hrun : ∀ r ∈ q.run enc rows, t.Conforms r := fun r hr => hconforms r (mem_run hr)
  have hrange := descriptors_inRange hsortable
  have hresult : queryResult enc encodeToken t rows namespaceId filter =
      (ZyncBase.execQuery encodeToken t filter.limit filter.orderBy (q.run enc rows)).toOption := by
    rw [queryResult, hq]
  rw [hresult, selectQuery, attempt_bind_eq_ok, hq]
  dsimp only
  rw [attempt_bind_eq_ok, execQuery, ZyncBase.execQuery, hrange, if_neg Bool.false_ne_true,
    if_neg Bool.false_ne_true]
  dsimp only
  constructor
  · rintro ⟨hbuild, hprepare, h⟩
    obtain ⟨hbind, h⟩ := attempt_bind_eq_ok.mp h
    obtain ⟨fetched, hfetch, h⟩ := bind_eq_ok.mp h
    obtain ⟨hlast, h⟩ := attempt_bind_eq_ok.mp h
    obtain ⟨rfl, hsteps, hdecodes⟩ := (fetchRecords_eq_ok hrun).mp hfetch
    simp only [Nat.zero_add] at hsteps hdecodes
    cases h
    refine ⟨⟨hbuild, hprepare, fun i hi => ?_, hsteps, hdecodes, hlast⟩, rfl⟩
    exact findSome?_eq_none_iff.mp hbind i (mem_range.mpr hi)
  · rintro ⟨h, hpage⟩
    have hbind : (List.range q.print.values.length).findSome? faults.bind = none :=
      findSome?_eq_none_iff.mpr fun i hi => h.bind i (mem_range.mp hi)
    have hfetch : fetchRecords faults t filter.limit 0 (q.run enc rows) =
        .ok (ZyncBase.fetchRecords filter.limit 0 (q.run enc rows)) := by
      refine (fetchRecords_eq_ok hrun).mpr ⟨rfl, ?_, ?_⟩
      · simpa only [Nat.zero_add] using h.step
      · simpa only [Nat.zero_add] using h.decode
    cases hpage
    refine ⟨h.build, h.prepare, attempt_bind_eq_ok.mpr ⟨hbind, ?_⟩⟩
    rw [hfetch, ok_bind]
    exact attempt_bind_eq_ok.mpr ⟨h.page, rfl⟩

section PointLookup

variable {id : DocId}

lemma isPointLookup_eq_some (h : isPointLookup filter = some id) :
    ∃ c, filter.predicate.conditions = some [c] ∧ filter.predicate.orClauses = none ∧
      filter.after = none ∧ filter.orderBy = [⟨idFieldIndex, false⟩] ∧ c.op = .eq ∧
      c.fieldIndex = idFieldIndex ∧ c.value = some (.scalar (.docId id)) := by
  rw [isPointLookup] at h
  split at h
  · rename_i only cond horder hconds hclauses hafter
    split_ifs at h with hshape
    obtain ⟨hfield, hdesc, hop, hindex⟩ := hshape
    split at h
    · rename_i value hvalue
      cases h
      refine ⟨cond, hconds, hclauses, hafter, ?_, hop, hindex, hvalue⟩
      rw [horder, ← hfield, ← hdesc]
    · cases h
  · cases h

lemma id_iff (enc : Encodings) (id : DocId) {r : Record} (hr : t.Conforms r) :
    sqlCompare enc CmpOp.eq.test (storedRow t r "\"id\"") (bindScalar (.docId id)) = some true ↔
      r.value idFieldIndex = .scalar (.docId id) := by
  have hsortable : (⟨idFieldIndex, false⟩ : SortDescriptor).Sortable t := ⟨_, rfl, by decide⟩
  obtain ⟨hrow, hvalue⟩ := hsortable.reads hr
  change storedRow t r "\"id\"" = _ at hrow
  dsimp only at hrow hvalue
  rw [hrow]
  rcases hvalue with ⟨-, hrequired⟩ | ⟨s, hs, haccepts⟩
  · cases hrequired
  · change FieldType.docId.accepts s = true at haccepts
    have hid : FieldType.docId.accepts (.docId id) = true := rfl
    rw [hs, storedValue, sqlCompare_bindScalar enc haccepts hid]
    cases s <;> simp only [FieldType.accepts, Bool.false_eq_true] at haccepts
    simp [CmpOp.test, ScalarValue.order]

lemma conditional_point (hnormal : filter.predicate.Normal) (h : isPointLookup filter = some id) :
    filter.predicate.isAlwaysTrue = false ∧ filter.predicate.isAlwaysFalse = false := by
  obtain ⟨c, hconds, -⟩ := isPointLookup_eq_some h
  have hhas : filter.predicate.hasClauses = true := by
    simp [hasClauses, hconds]
  have hstate : filter.predicate.state = .conditional := by
    by_contra hne
    rw [hnormal.settled hne] at hhas
    cases hhas
  exact ⟨by simp [isAlwaysTrue, hstate, hhas], by simp [isAlwaysFalse, hstate]⟩

lemma filterWhere_point (hnormal : filter.predicate.Normal) (h : isPointLookup filter = some id) :
    filterWhere t filter.predicate = .ok (.allOf [.atom (.compare "\"id\"" .eq (.scalar (.docId id)))]) := by
  obtain ⟨c, hconds, hclauses, -, -, hop, hindex, hvalue⟩ := isPointLookup_eq_some h
  obtain ⟨htrue, hfalse⟩ := conditional_point hnormal h
  have hfield : fieldAtom t c = .ok (.compare "\"id\"" .eq (.scalar (.docId id))) := by
    rw [fieldAtom, hindex]
    change conditionAtom "\"id\"" c = _
    rw [conditionAtom, hop, requireValue, hvalue]
    rfl
  rw [filterWhere, htrue, hfalse, hconds, hclauses]
  simp [fieldAtoms, clauseAtoms, hfield, bind, Except.bind, pure, Except.pure]

lemma filter_eq_toList {α β : Type} {f : α → β} {p : α → Bool} {b : β} {as : List α}
    (hnodup : (as.map f).Nodup) (hp : ∀ a ∈ as, p a = true → f a = b) :
    as.filter p = (as.find? p).toList := by
  induction as with
  | nil => rfl
  | cons a as ih =>
    rw [map_cons, nodup_cons] at hnodup
    rw [forall_mem_cons] at hp
    by_cases ha : p a = true
    · have hrest : as.filter p = [] := by
        rw [filter_eq_nil_iff]
        intro a' ha' hp'
        exact hnodup.1 (mem_map.mpr ⟨a', ha', by rw [hp.2 a' ha' hp', hp.1 ha]⟩)
      rw [filter_cons_of_pos ha, find?_cons_of_pos ha, hrest]
      rfl
    · rw [filter_cons_of_neg ha, find?_cons_of_neg ha]
      exact ih hnodup.2 hp.2

lemma queryResult_point (enc : Encodings) (encodeToken : Payload → Bytes)
    (hconforms : ∀ r ∈ rows, t.Conforms r) (hids : (rows.map fun r => r.value idFieldIndex).Nodup)
    (hnormal : filter.predicate.Normal) (hlimit : ∀ l, filter.limit = some l → 0 < l)
    (h : isPointLookup filter = some id) :
    queryResult enc encodeToken t rows namespaceId filter =
      some ((selectDocument rows namespaceId id).toList, none) := by
  have hw := @filterWhere_point t filter id hnormal h
  obtain ⟨c, -, -, hafter, horder, -⟩ := isPointLookup_eq_some h
  have hsortable : ∀ d ∈ filter.orderBy, d.Sortable t := by
    rw [horder]
    intro d hd
    rw [mem_singleton.mp hd]
    exact ⟨_, rfl, by decide⟩
  obtain ⟨stmt, hstmt, hrun⟩ := run_statement enc namespaceId hconforms hsortable hw
  have hmatching : matchingRows enc t namespaceId
      (.allOf [.atom (.compare "\"id\"" .eq (.scalar (.docId id)))]) rows =
        (selectDocument rows namespaceId id).toList := by
    rw [matchingRows, selectDocument, ← filter_eq_toList hids
      (fun r _ hp => of_decide_eq_true (Bool.and_eq_true_iff.mp hp).2)]
    refine filter_congr fun r hr => ?_
    have heval : (SqlWhere.allOf [.atom (.compare "\"id\"" .eq (.scalar (.docId id)))]).eval enc
        (storedRow t r) = some true ↔ sqlCompare enc CmpOp.eq.test (storedRow t r "\"id\"")
          (bindScalar (.docId id)) = some true := by
      simp [SqlWhere.eval, SqlConjunct.eval, SqlAtom.eval, Kleene.all3_eq_true, bindValue]
    rw [SqlWhere.selects, decide_eq_decide.mpr (heval.trans (id_iff enc id (hconforms r hr)))]
  have hrest : restOf enc t namespaceId
      (.allOf [.atom (.compare "\"id\"" .eq (.scalar (.docId id)))]) rows filter =
        (selectDocument rows namespaceId id).toList := by
    rw [restOf, hmatching, hafter]
    cases selectDocument rows namespaceId id <;> rfl
  have hlength : (selectDocument rows namespaceId id).toList.length ≤ 1 := by
    cases selectDocument rows namespaceId id <;> simp
  rw [hrest] at hrun
  rw [queryResult, hstmt]
  dsimp only
  cases hl : filter.limit with
  | none =>
    rw [hl] at hrun
    dsimp only [Option.map_none] at hrun
    rw [hrun, ZyncBase.execQuery, descriptors_inRange hsortable, if_neg Bool.false_ne_true]
    cases selectDocument rows namespaceId id <;> rfl
  | some limit =>
    rw [hl, Option.map_some] at hrun
    dsimp only at hrun
    have hpos := hlimit limit hl
    rw [hrun, execQuery_take hsortable hpos, take_of_length_le (hlength.trans hpos),
      if_neg fun hmore => absurd (hlength.trans hpos) (Nat.not_le.mpr hmore.1)]
    rfl

end PointLookup
end Reading
end ReadWorker
end ZyncBase
