import ZyncBase.Storage.ReadWorker

/-! A read that fails should be answered by an error, and a page that is answered should be the page
of the query. Point lookups keep to this, other queries do not. -/
namespace ZyncBase

open Outcome FilterPredicate

lemma FilterPredicate.Normal.mergeInPlace {p : FilterPredicate} (h : p.Normal)
    (guard : FilterPredicate) : (p.mergeInPlace guard).Normal := by
  unfold FilterPredicate.mergeInPlace
  split_ifs
  · exact h
  · exact normal_of_none rfl rfl
  · exact normalize_normal _

namespace ReadWorker

section Worker

variable {enc : Encodings} {encodeToken : Payload → Bytes} {faults : ReadFaults} {s : Schema}
  {t : Table} {req : ReadRequest} {rows : List Record} {cache : ℤ → DocId → Option Record}
  {size : ReadAnswer → ℕ} {maxSize : ℕ}

/-- The reads that the handlers enqueue: those of queries and subscriptions, and further pages of
what was subscribed to. -/
inductive Requested (s : Schema) : ReadRequest → Prop
  | query {decodeToken : Bytes → Option Payload} {readRule : AuthCondition} {evalCtx : EvalContext}
    {ctx : RequestContext} {tableIndex : ℕ} {parsed : Payload} {subId : Option ℕ} {req : ReadRequest}
    (h : prepareQueryRead decodeToken s readRule evalCtx ctx tableIndex parsed subId = .ok req) :
    Requested s req
  | loadMore {decodeToken : Bytes → Option Payload} {req : ReadRequest} {t : Table} {token : Bytes}
    {next : QueryFilter} (connId subId : ℕ) (hreq : Requested s req)
    (ht : s.tableByIndex req.tableIndex = some t)
    (h : prepareLoadMoreRead decodeToken t req.tableIndex req.filter token = .ok next) :
    Requested s { req with connId, filter := next, subId := some subId }

/-- What parsing guarantees of a filter that is read by. -/
structure Readable (t : Table) (filter : QueryFilter) : Prop where
  sortable : ∀ d ∈ filter.orderBy, d.Sortable t
  limit : ∀ l, filter.limit = some l → 0 < l
  normal : filter.predicate.Normal

lemma Requested.readable (h : Requested s req) (ht : s.tableByIndex req.tableIndex = some t) :
    Readable t req.filter := by
  induction h with
  | query h =>
    obtain ⟨u, guard, filter, hu, -, hparsed, rfl⟩ := prepareQueryRead_eq_ok h
    have hcanonical := parseQueryFilter_canonical hparsed ht
    obtain ⟨-, -, -, hnormal⟩ := parseQueryFilter_predicate hparsed
    cases guard with
    | none => exact ⟨hcanonical.sortable, fun l hl => (hcanonical.limit l hl).1, hnormal⟩
    | some guard =>
      exact ⟨hcanonical.sortable, fun l hl => (hcanonical.limit l hl).1, hnormal.mergeInPlace guard⟩
  | loadMore _ _ _ _ h ih =>
    obtain ⟨cursor, -, hnext⟩ := bind_eq_ok.mp h
    cases hnext
    have hbase := ih ht
    exact ⟨hbase.sortable, hbase.limit, hbase.normal⟩

/-- None of the calls of a document's lookup fails. -/
def DocumentSucceeds (faults : ReadFaults) (cached found : Option Record) : Prop :=
  match cached with
  | some _ => faults.clone = none ∧ faults.slice = false
  | none => faults.bind 0 = none ∧ faults.bind 1 = none ∧ faults.step 0 = none ∧
      (found.isSome → faults.decode 0 = none ∧ faults.slice = false)

/-- The read of the request builds its statement, and none of its calls fails. -/
def ReadSucceeds (enc : Encodings) (faults : ReadFaults) (t : Table)
    (cache : ℤ → DocId → Option Record) (rows : List Record) (req : ReadRequest) : Prop :=
  match isPointLookup req.filter with
  | some id => DocumentSucceeds faults (cache (req.effectiveNamespaceId t) id)
      (selectDocument rows (req.effectiveNamespaceId t) id)
  | none => req.filter.predicate.isAlwaysFalse = true ∨
      ∃ q, selectStatement t (req.effectiveNamespaceId t) req.filter = .ok q ∧
        QuerySucceeds faults q.print.values.length
          (ZyncBase.fetchRecords req.filter.limit 0 (q.run enc rows)).1.length

/-- A failed read is answered by an error, and an answer that is none is the page of the query on a
committed state of the table. -/
structure ReadHonest (enc : Encodings) (encodeToken : Payload → Bytes) (faults : ReadFaults)
    (t : Table) (cache : ℤ → DocId → Option Record) (committed : Set (List Record))
    (rows : List Record) (req : ReadRequest) (answer : Option ReadAnswer) : Prop where
  failed : ¬ ReadSucceeds enc faults t cache rows req → ∃ code message, answer = some (.error code message)
  page : ∀ subId records nextCursor, answer = some (.ok subId records nextCursor) →
    ∃ state ∈ committed, queryResult enc encodeToken t state (req.effectiveNamespaceId t) req.filter =
      some (records, nextCursor)

section Response

lemma executeSelectDocument_eq_ok {namespaceId : ℤ} {id : DocId} {record : Option Record}
    (hconforms : ∀ r ∈ rows, t.Conforms r) :
    executeSelectDocument faults t none rows namespaceId id = .ok record ↔
      faults.bind 0 = none ∧ faults.bind 1 = none ∧ faults.step 0 = none ∧
        (record.isSome → faults.decode 0 = none) ∧ record = selectDocument rows namespaceId id := by
  rw [executeSelectDocument, attempt_bind_eq_ok, attempt_bind_eq_ok, attempt_bind_eq_ok]
  refine and_congr_right fun _ => and_congr_right fun _ => and_congr_right fun _ => ?_
  cases hfound : selectDocument rows namespaceId id with
  | none =>
    constructor
    · intro h
      cases h
      exact ⟨fun hsome => absurd hsome Bool.false_ne_true, rfl⟩
    · rintro ⟨-, rfl⟩
      rfl
  | some r =>
    have hr : t.Conforms r := hconforms r (List.mem_of_find?_eq_some hfound)
    constructor
    · intro h
      obtain ⟨r', hdecode, h⟩ := bind_eq_ok.mp h
      cases h
      obtain ⟨hnone, rfl⟩ := (decodeRecord_eq_ok hr).mp hdecode
      exact ⟨fun _ => hnone, rfl⟩
    · rintro ⟨hnone, rfl⟩
      exact bind_eq_ok.mpr ⟨r, (decodeRecord_eq_ok hr).mpr ⟨hnone rfl, rfl⟩, rfl⟩

lemma executeRead_point {id : DocId} (ht : s.tableByIndex req.tableIndex = some t)
    (hpoint : isPointLookup req.filter = some id) (hconforms : ∀ r ∈ rows, t.Conforms r) :
    (ReadSucceeds enc faults t cache rows req ∧ executeRead enc encodeToken faults s cache rows req =
        { records := ((cache (req.effectiveNamespaceId t) id).or
            (selectDocument rows (req.effectiveNamespaceId t) id)).toList, subId := req.subId }) ∨
    (¬ ReadSucceeds enc faults t cache rows req ∧
      ∃ e, (executeRead enc encodeToken faults s cache rows req).err = some e) := by
  rw [ReadSucceeds, hpoint, executeRead, ht]
  dsimp only
  rw [hpoint]
  dsimp only
  cases cache (req.effectiveNamespaceId t) id with
  | some record =>
    cases hclone : faults.clone with
    | some e =>
      refine .inr ⟨fun h => ?_, e, ?_⟩
      · cases hclone.symm.trans h.1
      · simp [executeSelectDocument, hclone, attempt, bind, Except.bind]
    | none =>
      cases hslice : faults.slice with
      | true =>
        refine .inr ⟨fun h => ?_, .outOfMemory, ?_⟩
        · cases hslice.symm.trans h.2
        · simp [executeSelectDocument, hclone, attempt, buildResponse, hslice]
      | false =>
        refine .inl ⟨⟨hclone, hslice⟩, ?_⟩
        simp [executeSelectDocument, hclone, attempt, buildResponse, hslice]
  | none =>
    cases h : executeSelectDocument faults t none rows (req.effectiveNamespaceId t) id with
    | error e =>
      refine .inr ⟨fun hs => ?_, e, rfl⟩
      have hok := (executeSelectDocument_eq_ok hconforms).mpr
        ⟨hs.1, hs.2.1, hs.2.2.1, fun hsome => (hs.2.2.2 hsome).1, rfl⟩
      cases h.symm.trans hok
    | ok record =>
      obtain ⟨hid, hns, hstep, hdecode, rfl⟩ := (executeSelectDocument_eq_ok hconforms).mp h
      rw [Option.none_or]
      dsimp only
      cases hfound : selectDocument rows (req.effectiveNamespaceId t) id with
      | none => exact .inl ⟨⟨hid, hns, hstep, fun hsome => by cases hsome⟩, rfl⟩
      | some r =>
        rw [hfound] at hdecode
        cases hslice : faults.slice with
        | true =>
          refine .inr ⟨fun hs => ?_, .outOfMemory, by rw [buildResponse, if_pos hslice]⟩
          cases hslice.symm.trans (hs.2.2.2 rfl).2
        | false =>
          refine .inl ⟨⟨hid, hns, hstep, fun hsome => ⟨hdecode hsome, hslice⟩⟩, ?_⟩
          rw [buildResponse, if_neg (by rw [hslice]; exact Bool.false_ne_true)]
          rfl

lemma exists_queryResult {namespaceId : ℤ} {filter : QueryFilter} {q : SqlSelect}
    (hsortable : ∀ d ∈ filter.orderBy, d.Sortable t)
    (hq : selectStatement t namespaceId filter = .ok q) :
    ∃ page, queryResult enc encodeToken t rows namespaceId filter = some page := by
  rw [queryResult, hq]
  dsimp only
  rw [ZyncBase.execQuery, descriptors_inRange hsortable, if_neg Bool.false_ne_true]
  exact ⟨_, rfl⟩

lemma queryResult_alwaysFalse {namespaceId : ℤ} {filter : QueryFilter}
    (hsortable : ∀ d ∈ filter.orderBy, d.Sortable t) (hconforms : ∀ r ∈ rows, t.Conforms r)
    (hfalse : filter.predicate.isAlwaysFalse = true) :
    queryResult enc encodeToken t rows namespaceId filter = some ([], none) := by
  have hstate : filter.predicate.state = .matchNone := by
    simpa [isAlwaysFalse] using hfalse
  have htrue : filter.predicate.isAlwaysTrue = false := by
    simp [isAlwaysTrue, hstate]
  have hw : filterWhere t filter.predicate = .ok .zero := by
    rw [filterWhere, htrue, if_neg Bool.false_ne_true, if_pos hfalse]
  obtain ⟨q, hq, hrun⟩ := run_statement enc namespaceId hconforms hsortable hw
  have hnil : q.run enc rows = [] := by
    rw [restOf_alwaysFalse hfalse hw] at hrun
    rw [hrun]
    cases filter.limit <;> simp
  rw [queryResult, hq]
  dsimp only
  rw [hnil, ZyncBase.execQuery, descriptors_inRange hsortable, if_neg Bool.false_ne_true]
  cases filter.limit <;> rfl

lemma executeRead_query (ht : s.tableByIndex req.tableIndex = some t)
    (hpoint : isPointLookup req.filter = none) (hreadable : Readable t req.filter)
    (hconforms : ∀ r ∈ rows, t.Conforms r) :
    (ReadSucceeds enc faults t cache rows req ∧ ∃ page,
      queryResult enc encodeToken t rows (req.effectiveNamespaceId t) req.filter = some page ∧
        executeRead enc encodeToken faults s cache rows req =
          { records := page.1, nextCursor := page.2, subId := req.subId }) ∨
    (¬ ReadSucceeds enc faults t cache rows req ∧
      executeRead enc encodeToken faults s cache rows req = { subId := req.subId }) := by
  rw [ReadSucceeds, hpoint, executeRead, ht]
  dsimp only
  rw [hpoint]
  dsimp only
  rw [executeSelectQuery]
  cases hfalse : req.filter.predicate.isAlwaysFalse with
  | true =>
    have hempty := @queryResult_alwaysFalse enc encodeToken t rows (req.effectiveNamespaceId t)
      req.filter hreadable.sortable hconforms hfalse
    exact .inl ⟨.inl rfl, _, hempty, rfl⟩
  | false =>
    rw [if_neg Bool.false_ne_true]
    cases hq : selectStatement t (req.effectiveNamespaceId t) req.filter with
    | error e =>
      have herror : ∃ e', selectQuery enc encodeToken faults t rows (req.effectiveNamespaceId t)
          req.filter = .error e' := by
        rw [selectQuery, hq]
        cases faults.build with
        | none => exact ⟨_, rfl⟩
        | some e' => exact ⟨e', rfl⟩
      obtain ⟨e', he⟩ := herror
      refine .inr ⟨?_, by rw [he]⟩
      rintro (h | ⟨q, h, -⟩) <;> cases h
    | ok q =>
      cases hselect : selectQuery enc encodeToken faults t rows (req.effectiveNamespaceId t) req.filter with
      | ok page =>
        obtain ⟨hsucceeds, hresult⟩ :=
          (selectQuery_eq_ok hconforms hreadable.sortable hq).mp hselect
        exact .inl ⟨.inr ⟨q, rfl, hsucceeds⟩, page, hresult, rfl⟩
      | error e =>
        refine .inr ⟨?_, rfl⟩
        rintro (h | ⟨q', h, hsucceeds⟩)
        · cases h
        · cases h
          obtain ⟨page, hresult⟩ := @exists_queryResult enc encodeToken t rows
            (req.effectiveNamespaceId t) req.filter q hreadable.sortable hq
          have hok := (selectQuery_eq_ok hconforms hreadable.sortable hq).mpr ⟨hsucceeds, hresult⟩
          cases hselect.symm.trans hok

variable {response : ReadResponse}

lemma respond_error_iff {e : ReadFailure} (h : response.err = some e) :
    (∃ code message, respond faults size maxSize response = some (.error code message)) ↔
      faults.arena = false ∧ faults.encode = false ∧ faults.push = false := by
  rw [respond, h]
  cases faults.arena <;> cases faults.encode <;> cases faults.push <;> simp

lemma respond_tooLarge_iff (h : response.err = none) :
    (∃ code message, respond faults size maxSize response = some (.error code message)) ↔
      faults.arena = false ∧ faults.encode = false ∧ faults.push = false ∧
        faults.encodeTooLarge = false ∧ maxSize ≠ 0 ∧
        maxSize < size (.ok response.subId response.records response.nextCursor) := by
  rw [respond, h]
  dsimp only
  by_cases hsize : maxSize ≠ 0 ∧ maxSize < size (.ok response.subId response.records response.nextCursor)
  · rw [if_pos hsize]
    cases faults.arena <;> cases faults.encode <;> cases faults.push <;>
      cases faults.encodeTooLarge <;> simp [hsize]
  · rw [if_neg hsize]
    cases faults.arena <;> cases faults.encode <;> cases faults.push <;> simp_all

lemma eq_of_respond_ok {subId : Option ℕ} {records : List Record} {nextCursor : Option Bytes}
    (h : respond faults size maxSize response = some (.ok subId records nextCursor)) :
    response.err = none ∧ records = response.records ∧ nextCursor = response.nextCursor := by
  cases he : response.err with
  | some e =>
    rw [respond, he] at h
    dsimp only at h
    split_ifs at h
    all_goals cases h
  | none =>
    rw [respond, he] at h
    dsimp only at h
    split_ifs at h
    all_goals cases h
    exact ⟨rfl, rfl, rfl⟩

end Response

/-- A failed read is answered by an error, and an answered page is that of the query, exactly when a
read that fails can send its error: that of a point lookup, while any other query has its empty page
refused as too large. -/
theorem read_honest_iff {committed : Set (List Record)} (hreq : Requested s req)
    (ht : s.tableByIndex req.tableIndex = some t) (hconforms : ∀ state ∈ committed, ∀ r ∈ state, t.Conforms r)
    (hids : ∀ state ∈ committed, (state.map fun r => r.value idFieldIndex).Nodup) (hrows : rows ∈ committed)
    (hcache : ∀ namespaceId id r, cache namespaceId id = some r →
      ∃ state ∈ committed, selectDocument state namespaceId id = some r) :
    ReadHonest enc encodeToken faults t cache committed rows req
        (serve enc encodeToken faults s size maxSize cache rows req) ↔
      (¬ ReadSucceeds enc faults t cache rows req →
        (faults.arena = false ∧ faults.encode = false ∧ faults.push = false) ∧
          ((isPointLookup req.filter).isSome ∨ faults.encodeTooLarge = false ∧ maxSize ≠ 0 ∧
            maxSize < size (.ok req.subId [] none))) := by
  have hreadable := hreq.readable ht
  have hrowsConform := hconforms rows hrows
  cases hpoint : isPointLookup req.filter with
  | some id =>
    have hstates : ∀ state ∈ committed, queryResult enc encodeToken t state
        (req.effectiveNamespaceId t) req.filter =
          some ((selectDocument state (req.effectiveNamespaceId t) id).toList, none) :=
      fun state hstate => queryResult_point enc encodeToken (hconforms state hstate)
        (hids state hstate) hreadable.normal hreadable.limit hpoint
    obtain ⟨hsucceeds, hresponse⟩ | ⟨hfails, e, he⟩ :=
      @executeRead_point enc encodeToken faults s t req rows cache id ht hpoint hrowsConform
    · refine ⟨fun _ h => absurd hsucceeds h, fun _ => ⟨fun h => absurd hsucceeds h, ?_⟩⟩
      intro subId records nextCursor hanswer
      obtain ⟨-, hrecords, hcursor⟩ := eq_of_respond_ok hanswer
      rw [hresponse] at hrecords hcursor
      -- a cached record was committed once
      cases hcached : cache (req.effectiveNamespaceId t) id with
      | none =>
        refine ⟨rows, hrows, ?_⟩
        rw [hstates rows hrows, hrecords, hcursor, hcached, Option.none_or]
      | some r =>
        obtain ⟨state, hstate, hfound⟩ := hcache _ _ _ hcached
        refine ⟨state, hstate, ?_⟩
        rw [hstates state hstate, hrecords, hcursor, hcached, hfound]
        rfl
    · have hanswer := @respond_error_iff faults size maxSize _ e he
      constructor
      · intro h _
        exact ⟨hanswer.mp (h.failed hfails), Or.inl rfl⟩
      · intro h
        refine ⟨fun _ => hanswer.mpr (h hfails).1, fun subId records nextCursor hok => ?_⟩
        cases he.symm.trans (eq_of_respond_ok hok).1
  | none =>
    obtain ⟨hsucceeds, page, hpage, hresponse⟩ | ⟨hfails, hresponse⟩ :=
      @executeRead_query enc encodeToken faults s t req rows cache ht hpoint hreadable hrowsConform
    · refine ⟨fun _ h => absurd hsucceeds h, fun _ => ⟨fun h => absurd hsucceeds h, ?_⟩⟩
      intro subId records nextCursor hanswer
      obtain ⟨-, hrecords, hcursor⟩ := eq_of_respond_ok hanswer
      rw [hresponse] at hrecords hcursor
      exact ⟨rows, hrows, by rw [hpage, hrecords, hcursor]⟩
    · have herr : (executeRead enc encodeToken faults s cache rows req).err = none := by rw [hresponse]
      have hanswer := @respond_tooLarge_iff faults size maxSize _ herr
      rw [hresponse] at hanswer
      rw [serve, hresponse]
      constructor
      · intro h _
        obtain ⟨harena, hencode, hpush, hlarge⟩ := hanswer.mp (h.failed hfails)
        exact ⟨⟨harena, hencode, hpush⟩, Or.inr hlarge⟩
      · intro h
        obtain ⟨⟨harena, hencode, hpush⟩, hpoint' | hlarge⟩ := h hfails
        · cases hpoint'
        · have herror := hanswer.mpr ⟨harena, hencode, hpush, hlarge⟩
          refine ⟨fun _ => herror, fun subId records nextCursor hok => ?_⟩
          obtain ⟨code, message, h⟩ := herror
          cases h.symm.trans hok

end Worker
end ReadWorker

namespace ReadHonestyExample

open ReadWorker AgreementExample PaginationExample

def notesRead : ReadRequest where
  connId := 4
  tableIndex := 0
  namespaceId := 1
  filter := allNotesFilter 5
  subId := none

lemma requested_notesRead : Requested noteSchema notesRead := by
  have hprepared : prepareQueryRead (fun _ => none) noteSchema (.boolean true) {} ⟨4, 1⟩ 0
      (allNotes 5) none = .ok notesRead := rfl
  exact .query hprepared

/-- The answer when the reader has the caches and committed notes, and these calls fail. -/
def answerOf (faults : ReadFaults) (n : ℕ) : Option ReadAnswer :=
  serve enc encodeToken faults noteSchema (fun _ => 0) 0 (fun _ _ => none) (notes n) notesRead

/-- Memory runs out while the statement is prepared: the query for the one note is answered by an
empty page, which the table never had. -/
theorem failed_read_swallowed : answerOf { prepare := some .outOfMemory } 1 = some (.ok none [] none) ∧
      ¬ ReadHonest enc encodeToken { prepare := some .outOfMemory } noteTable (fun _ _ => none)
        {notes 1} (notes 1) notesRead (answerOf { prepare := some .outOfMemory } 1) := by
  have hanswer : answerOf { prepare := some .outOfMemory } 1 = some (.ok none [] none) := by decide
  refine ⟨hanswer, fun h => ?_⟩
  obtain ⟨code, message, herror⟩ := h.failed (by
    rintro (h | ⟨q, -, h⟩)
    · cases h
    · cases h.prepare)
  cases hanswer.symm.trans herror

theorem read_honest_notes :
    ReadHonest enc encodeToken {} noteTable (fun _ _ => none) {notes 2} (notes 2) notesRead
      (serve enc encodeToken {} noteSchema (fun _ => 0) 0 (fun _ _ => none) (notes 2) notesRead) := by
  refine (read_honest_iff requested_notesRead rfl ?_ ?_ (Set.mem_singleton _) ?_).mpr
    fun hfails => absurd ?_ hfails
  · rintro state rfl r hr
    exact (notes_conform (by decide) r hr).1
  · rintro state rfl
    exact notes_ids (by decide)
  · intro namespaceId id r h
    cases h
  · exact Or.inr ⟨_, rfl, rfl, rfl, fun _ _ => rfl, fun _ _ => rfl, fun _ _ => rfl, rfl⟩

end ReadHonestyExample
end ZyncBase
