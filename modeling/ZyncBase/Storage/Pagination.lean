import ZyncBase.Sql.SortOrder

/-! Reading a query page by page: the reader returns at most `limit` rows and a cursor when there are
more, and following the cursors reads every matching row once, in the order of the query. -/
namespace ZyncBase

open FilterPredicate Keyset List Outcome SortedSearch

section Reader

variable (enc : Encodings)
-- Base64 and MessagePack encoding of a token, and decoding, `none` on malformed bytes.
variable (encodeToken : Payload → Bytes) (decodeToken : Bytes → Option Payload)

/-- Step through the result until the page is full or the rows are exhausted. Another row tells that
there are more. -/
def fetchRecords (limit : Option ℕ) : ℕ → List Record → List Record × Bool
  | _, [] => ([], false)
  | count, r :: rs =>
    if limit = some count then ([], true)
    else
      let next := fetchRecords limit (count + 1) rs
      (r :: next.1, next.2)

/-- A page of the result, and the token of its last row if there are more. -/
def execQuery (t : Table) (limit : Option ℕ) (descriptors : List SortDescriptor)
    (result : List Record) : Except ReadError (List Record × Option Bytes) :=
  if descriptors.any fun d => t.fields.length ≤ d.fieldIndex then .error .invalidMessageFormat
  else
    let (records, hasMore) := fetchRecords limit 0 result
    let nextCursor := limit.bind fun limit =>
      if hasMore && 0 < limit && limit ≤ records.length then
        records[limit - 1]?.map fun last =>
          encodeToken (cursorPayload t.index descriptors (last.cursor descriptors).values)
      else none
    .ok (records, nextCursor)

/-- Every error becomes an empty page. -/
def executeSelectQuery (t : Table) (rows : List Record) (namespaceId : ℤ) (filter : QueryFilter) :
    List Record × Option Bytes :=
  if filter.predicate.isAlwaysFalse then ([], none)
  else
    match selectStatement t namespaceId filter with
    | .error _ => ([], none)
    | .ok q =>
      match execQuery encodeToken t filter.limit filter.orderBy (q.run enc rows) with
      | .error _ => ([], none)
      | .ok page => page

def prepareLoadMoreRead (t : Table) (tableIndex : ℕ) (filter : QueryFilter) (token : Bytes) :
    Except ParserError QueryFilter := do
  let cursor ← decodeCursorToken decodeToken t tableIndex filter.orderBy token
  return { filter with after := some cursor }

/-- A client reads a page and, if there is a cursor, goes on from it. -/
def fetchPage (t : Table) (tableIndex : ℕ) (rows : List Record) (namespaceId : ℤ)
    (filter : QueryFilter) : Option (List Record × Option QueryFilter) :=
  let page := executeSelectQuery enc encodeToken t rows namespaceId filter
  match page.2 with
  | none => some (page.1, none)
  | some token =>
    match prepareLoadMoreRead decodeToken t tableIndex filter token with
    | .error _ => none
    | .ok next => some (page.1, some next)

end Reader

lemma fetchRecords_eq {limit count : ℕ} (h : count ≤ limit) (result : List Record) :
    fetchRecords (some limit) count result =
      (result.take (limit - count), decide (limit - count < result.length)) := by
  induction result generalizing count with
  | nil => simp [fetchRecords]
  | cons r rs ih =>
    rw [fetchRecords]
    by_cases heq : limit = count
    · subst heq
      simp
    · have hlt : count + 1 ≤ limit := by omega
      have hsub : limit - count = limit - (count + 1) + 1 := by omega
      rw [if_neg (by simpa using heq), ih hlt, hsub]
      simp

def matchingRows (enc : Encodings) (t : Table) (namespaceId : ℤ) (conditions : SqlWhere)
    (rows : List Record) : List Record :=
  rows.filter fun r => r.value namespaceIdFieldIndex = .scalar (.integer namespaceId) &&
    conditions.selects enc (storedRow t r)

/-- Rows of a table with ids and creation times of their own, whose cursors survive a token. -/
structure Pageable (encodeToken : Payload → Bytes) (decodeToken : Bytes → Option Payload)
    (t : Table) (descriptors : List SortDescriptor) (rows : List Record) : Prop where
  conforms : ∀ r ∈ rows, t.Conforms r
  fits : ∀ r ∈ rows, ∀ v ∈ r.values, v.Fits
  ids : (rows.map fun r => r.value idFieldIndex).Nodup
  created : (rows.map fun r => r.value t.createdAtIndex).Nodup
  tokens : ∀ r ∈ rows,
    decodeToken (encodeToken (cursorPayload t.index descriptors (r.cursor descriptors).values)) =
      some (cursorPayload t.index descriptors (r.cursor descriptors).values)

section Rest

variable {enc : Encodings} {t : Table} {namespaceId : ℤ} {conditions : SqlWhere}
  {rows : List Record} {q : QueryFilter}

lemma namespace_iff (enc : Encodings) (namespaceId : ℤ) {r : Record} (hr : t.Conforms r) :
    sqlCompare enc CmpOp.eq.test (storedRow t r "\"namespace_id\"") (.integer namespaceId) = some true ↔
      r.value namespaceIdFieldIndex = .scalar (.integer namespaceId) := by
  have hsortable : (⟨namespaceIdFieldIndex, false⟩ : SortDescriptor).Sortable t :=
    ⟨_, rfl, by decide⟩
  obtain ⟨hrow, hvalue⟩ := hsortable.reads hr
  change storedRow t r "\"namespace_id\"" = _ at hrow
  dsimp only at hrow hvalue
  rw [hrow]
  rcases hvalue with ⟨-, hrequired⟩ | ⟨s, hs, haccepts⟩
  · cases hrequired
  · change FieldType.integer.accepts s at haccepts
    cases s <;> simp only [FieldType.accepts, Bool.false_eq_true] at haccepts
    case integer v =>
      rw [hs]
      simp [storedValue, bindScalar, sqlCompare, sqlOrder, CmpOp.test]

def restOf (enc : Encodings) (t : Table) (namespaceId : ℤ) (conditions : SqlWhere)
    (rows : List Record) (f : QueryFilter) : List Record :=
  sort (recordOrder f.orderBy) ((matchingRows enc t namespaceId conditions rows).filter fun r =>
    f.after.all fun c =>
      evalCursor enc (storedRow t r) (cursorBranches t [] (f.orderBy.zip c.values)) = some true)

lemma filterConditions_eval {p : FilterPredicate} (h : filterWhere t p = .ok conditions) :
    ∃ e, filterConditions t p = .ok e ∧ ∀ row,
      e.elim (some true) (SqlWhere.eval enc row) = conditions.eval enc row := by
  unfold filterConditions
  cases htrue : p.isAlwaysTrue with
  | true =>
    rw [filterWhere, if_pos htrue] at h
    cases h
    exact ⟨none, rfl, fun _ => rfl⟩
  | false =>
    rw [h]
    exact ⟨some conditions, rfl, fun _ => rfl⟩

lemma descriptors_inRange {ds : List SortDescriptor} (h : ∀ d ∈ ds, d.Sortable t) :
    (ds.any fun d => t.fields.length ≤ d.fieldIndex) = false := by
  rw [any_eq_false]
  intro d hd
  obtain ⟨f, hf, -⟩ := h d hd
  have hlt := (List.getElem?_eq_some_iff.mp hf).1
  simpa using hlt

/-- Overfetching one row tells whether rows follow the page. With the greatest limit none are
seen. -/
lemma execQuery_take {encodeToken : Payload → Bytes} {ds : List SortDescriptor}
    (h : ∀ d ∈ ds, d.Sortable t) {limit : ℕ} (hpos : 0 < limit) (rest : List Record) :
    execQuery encodeToken t (some limit) ds (rest.take (effectiveLimit limit)) =
      .ok (rest.take limit,
        if limit < rest.length ∧ limit ≠ 2 ^ 32 - 1 then rest[limit - 1]?.map fun last =>
          encodeToken (cursorPayload t.index ds (last.cursor ds).values)
        else none) := by
  have htake : (rest.take (effectiveLimit limit)).take limit = rest.take limit := by
    rw [take_take]
    congr 1
    unfold effectiveLimit
    split_ifs
    · omega
    · omega
  have hmore : limit < (rest.take (effectiveLimit limit)).length ↔
      limit < rest.length ∧ limit ≠ 2 ^ 32 - 1 := by
    rw [length_take]
    unfold effectiveLimit
    split_ifs
    · omega
    · omega
  have hlast : ∀ hlt : limit < rest.length, (rest.take limit)[limit - 1]? = rest[limit - 1]? :=
    fun _ => List.getElem?_take_of_lt (by omega)
  unfold execQuery
  rw [descriptors_inRange h, if_neg Bool.false_ne_true, fetchRecords_eq (Nat.zero_le _), Nat.sub_zero, htake]
  dsimp only [Option.bind_some]
  by_cases hfollow : limit < rest.length ∧ limit ≠ 2 ^ 32 - 1
  · have hlength : limit ≤ (rest.take limit).length := by
      rw [length_take]
      omega
    have hpage : (decide (limit < (rest.take (effectiveLimit limit)).length) && decide (0 < limit) &&
        decide (limit ≤ (rest.take limit).length)) = true := by
      rw [decide_eq_true (hmore.mpr hfollow), decide_eq_true hpos, decide_eq_true hlength]
      rfl
    rw [if_pos hfollow, if_pos hpage, hlast hfollow.1]
  · rw [if_neg hfollow, decide_eq_false fun hlt => hfollow (hmore.mp hlt)]
    rfl

lemma run_statement (enc : Encodings) (namespaceId : ℤ) (hconforms : ∀ r ∈ rows, t.Conforms r)
    (hsortable : ∀ d ∈ q.orderBy, d.Sortable t)
    (hw : filterWhere t q.predicate = .ok conditions) :
    ∃ stmt, selectStatement t namespaceId q = .ok stmt ∧ stmt.run enc rows =
      match q.limit.map effectiveLimit with
      | none => restOf enc t namespaceId conditions rows q
      | some n => (restOf enc t namespaceId conditions rows q).take n := by
  obtain ⟨e, he, heval⟩ := filterConditions_eval hw
  let stmt : SqlSelect :=
    { table := t, namespaceId, filter := e
      cursor := q.after.map fun c => cursorBranches t [] (q.orderBy.zip c.values)
      orderBy := q.orderBy.map (orderTerm t), limit := q.limit.map effectiveLimit }
  have hstmt : selectStatement t namespaceId q = .ok stmt := by
    rw [selectStatement, descriptors_inRange hsortable, he]
    rfl
  have hcursor : stmt.cursor = q.after.map fun c =>
      cursorBranches t [] (q.orderBy.zip c.values) := rfl
  have hfound : (rows.filter fun r => stmt.evalWhere enc (storedRow t r) = some true) =
      (matchingRows enc t namespaceId conditions rows).filter fun r => q.after.all fun c =>
        evalCursor enc (storedRow t r) (cursorBranches t [] (q.orderBy.zip c.values)) = some true := by
    rw [matchingRows, filter_filter]
    refine filter_congr fun r hr => ?_
    have hns := namespace_iff enc namespaceId (hconforms r hr)
    rw [Bool.eq_iff_iff, decide_eq_true_iff, SqlSelect.evalWhere, Kleene.and3_eq_true, hns,
      SqlSelect.evalConditions, Kleene.and3_eq_true, heval, hcursor]
    cases q.after with
    | none => simp [SqlWhere.selects]
    | some c =>
      simp only [SqlWhere.selects, Option.map_some, Option.elim_some, Option.all_some,
        Bool.and_eq_true, decide_eq_true_eq]
      tauto
  have hsorted : sort (fun a b => orderCompare enc stmt.orderBy (storedRow t a) (storedRow t b))
      (rows.filter fun r => stmt.evalWhere enc (storedRow t r) = some true) =
        restOf enc t namespaceId conditions rows q := by
    rw [restOf, ← hfound]
    refine sort_congr fun a ha b hb => orderCompare_eq enc hsortable ?_ ?_
    · exact hconforms a (mem_filter.mp ha).1
    · exact hconforms b (mem_filter.mp hb).1
  refine ⟨stmt, hstmt, ?_⟩
  unfold SqlSelect.run
  dsimp only
  change (match q.limit.map effectiveLimit with | none => _ | some n => _) = _
  rw [hsorted]

lemma restOf_alwaysFalse (h : q.predicate.isAlwaysFalse) (hw : filterWhere t q.predicate = .ok conditions) :
    restOf enc t namespaceId conditions rows q = [] := by
  have htrue : q.predicate.isAlwaysTrue = false := by
    unfold isAlwaysFalse at h
    have hstate : q.predicate.state = .matchNone := by simpa using h
    simp [isAlwaysTrue, hstate]
  have hzero : conditions = .zero := by
    simp [filterWhere, htrue, h] at hw
    exact hw.symm
  have hnone : matchingRows enc t namespaceId conditions rows = [] := by
    rw [matchingRows, filter_eq_nil_iff]
    intro r _
    simp [hzero, SqlWhere.selects, SqlWhere.eval]
  rw [restOf, hnone]
  rfl

/-- A page is the start of what its filter selects, with the token of its last row if more rows
follow. With the greatest limit none are seen. -/
lemma executeSelectQuery_eq (enc : Encodings) (encodeToken : Payload → Bytes) (namespaceId : ℤ)
    (hconforms : ∀ r ∈ rows, t.Conforms r) (hsortable : ∀ d ∈ q.orderBy, d.Sortable t)
    (hw : filterWhere t q.predicate = .ok conditions) {limit : ℕ} (hlimit : q.limit = some limit)
    (hpos : 0 < limit) :
    executeSelectQuery enc encodeToken t rows namespaceId q =
      let rest := restOf enc t namespaceId conditions rows q
      (rest.take limit,
        if limit < rest.length ∧ limit ≠ 2 ^ 32 - 1 then rest[limit - 1]?.map fun last =>
          encodeToken (cursorPayload t.index q.orderBy (last.cursor q.orderBy).values)
        else none) := by
  unfold executeSelectQuery
  cases hfalse : q.predicate.isAlwaysFalse with
  | true =>
    rw [restOf_alwaysFalse hfalse hw]
    simp
  | false =>
    obtain ⟨stmt, hstmt, hrun⟩ := run_statement enc namespaceId hconforms hsortable hw
    rw [hlimit, Option.map_some] at hrun
    dsimp only at hrun
    rw [hstmt, if_neg Bool.false_ne_true]
    dsimp only
    rw [hrun, hlimit, execQuery_take hsortable hpos]

section Order

variable {ds : List SortDescriptor}

lemma value_eq_of_unique {d : SortDescriptor} (hd : isUniqueSort t.createdAtIndex d) {a b : Record}
    (ha : t.Conforms a) (hb : t.Conforms b)
    (h : sortCompare d.desc (a.value d.fieldIndex) (b.value d.fieldIndex) = .eq) :
    a.value d.fieldIndex = b.value d.fieldIndex := by
  have hfield : ∃ f, t.fields[d.fieldIndex]? = some f ∧ f.required ∧
      (f.storageType = .docId ∨ f.storageType = .integer) := by
    unfold isUniqueSort at hd
    rw [Bool.or_eq_true, decide_eq_true_iff, decide_eq_true_iff] at hd
    cases hd with
    | inl hid =>
      rw [hid]
      exact ⟨_, rfl, rfl, .inl rfl⟩
    | inr hcreated =>
      rw [hcreated]
      exact ⟨_, fields_createdAt t, rfl, .inr rfl⟩
  obtain ⟨f, hf, hrequired, htype⟩ := hfield
  have hsortable : d.Sortable t := ⟨f, hf, by cases htype with
    | inl ht => rw [ht]; decide
    | inr ht => rw [ht]; decide⟩
  have hscalar : ∀ {r : Record}, t.Conforms r →
      ∃ s, r.value d.fieldIndex = .scalar s ∧ f.storageType.accepts s := by
    intro r hr
    obtain ⟨-, hvalue⟩ := hsortable.reads hr
    have hsort : sortField t d = f := by rw [sortField, hf, Option.getD_some]
    rw [hsort] at hvalue
    cases hvalue with
    | inl hnil =>
      rw [hrequired] at hnil
      cases hnil.2
    | inr hscalar => exact hscalar
  obtain ⟨x, hx, hxt⟩ := hscalar ha
  obtain ⟨y, hy, hyt⟩ := hscalar hb
  rw [hx, hy, sortCompare_scalar] at h
  have horder : x.order y = .eq := by
    split_ifs at h
    · cases hxy : x.order y <;> simp [hxy] at h ⊢
    · exact h
  rw [hx, hy]
  cases htype with
  | inl ht =>
    rw [ht] at hxt hyt
    cases x <;> simp only [FieldType.accepts, Bool.false_eq_true] at hxt
    cases y <;> simp only [FieldType.accepts, Bool.false_eq_true] at hyt
    rw [compare_eq_iff_eq.mp horder]
  | inr ht =>
    rw [ht] at hxt hyt
    cases x <;> simp only [FieldType.accepts, Bool.false_eq_true] at hxt
    cases y <;> simp only [FieldType.accepts, Bool.false_eq_true] at hyt
    rw [compare_eq_iff_eq.mp horder]

lemma Pageable.tells_apart {encodeToken : Payload → Bytes} {decodeToken : Bytes → Option Payload}
    (h : Pageable encodeToken decodeToken t ds rows)
    (hunique : ∃ d ∈ ds, isUniqueSort t.createdAtIndex d) :
    rows.Pairwise fun a b => recordOrder ds a b ≠ .eq := by
  obtain ⟨d, hd, hu⟩ := hunique
  have hdistinct : rows.Pairwise fun a b => a.value d.fieldIndex ≠ b.value d.fieldIndex := by
    have hcases := hu
    unfold isUniqueSort at hcases
    rw [Bool.or_eq_true, decide_eq_true_iff, decide_eq_true_iff] at hcases
    cases hcases with
    | inl hid =>
      rw [hid]
      exact pairwise_map.mp h.ids
    | inr hcreated =>
      rw [hcreated]
      exact pairwise_map.mp h.created
  refine hdistinct.imp_of_mem fun {a b} ha hb hne heq => hne ?_
  have hsort := (recordOrder_eq_iff ds a b).mp heq d hd
  exact value_eq_of_unique hu (h.conforms a ha) (h.conforms b hb) hsort

lemma Pageable.matching_apart {encodeToken : Payload → Bytes}
    {decodeToken : Bytes → Option Payload} (h : Pageable encodeToken decodeToken t ds rows)
    (enc : Encodings) (namespaceId : ℤ) (conditions : SqlWhere)
    (hunique : ∃ d ∈ ds, isUniqueSort t.createdAtIndex d) :
    (matchingRows enc t namespaceId conditions rows).Pairwise fun a b => recordOrder ds a b ≠ .eq :=
  (h.tells_apart hunique).filter _

end Order

section Following

variable {encodeToken : Payload → Bytes} {decodeToken : Bytes → Option Payload}

/-- The first page, or the page after a matching row. -/
def Reached (base : QueryFilter) (matching : List Record) (f : QueryFilter) : Prop :=
  f = base ∨ ∃ x ∈ matching, f = { base with after := some (x.cursor base.orderBy) }

lemma restOf_after (h : Pageable encodeToken decodeToken t q.orderBy rows)
    (hq : q.Canonical t) {pre post : List Record} {x : Record}
    (hsplit : sort (recordOrder q.orderBy) (matchingRows enc t namespaceId conditions rows) =
      pre ++ x :: post) :
    restOf enc t namespaceId conditions rows { q with after := some (x.cursor q.orderBy) } =
      post := by
  have hapart := h.matching_apart enc namespaceId conditions hq.unique
  have hx : x ∈ matchingRows enc t namespaceId conditions rows := by
    rw [← (perm_sort (recordOrder q.orderBy) _).mem_iff, hsplit]
    exact mem_append_right _ mem_cons_self
  have hconforms : ∀ r ∈ matchingRows enc t namespaceId conditions rows, t.Conforms r :=
    fun r hr => h.conforms r (mem_filter.mp hr).1
  have hstrict : Strict (recordOrder q.orderBy) (pre ++ x :: post) :=
    hsplit ▸ strict_sort hapart
  have hafter : ∀ r ∈ matchingRows enc t namespaceId conditions rows,
      (decide (evalCursor enc (storedRow t r)
        (cursorBranches t [] (q.orderBy.zip (x.cursor q.orderBy).values)) = some true)) =
      decide (recordOrder q.orderBy x r = .lt) := by
    intro r hr
    rw [decide_eq_decide]
    exact evalCursor_iff enc hq.sortable (hconforms x hx) (hconforms r hr)
  rw [restOf]
  dsimp only [Option.all_some]
  rw [filter_congr hafter, sort_filter hapart, hsplit, filter_after hstrict]

/-- One page of a reached filter: all that is left, or its start and the filter for the others. -/
lemma fetchPage_reached (h : Pageable encodeToken decodeToken t q.orderBy rows)
    (hq : q.Canonical t) (hw : filterWhere t q.predicate = .ok conditions) {limit : ℕ}
    (hlimit : q.limit = some limit)
    (hseen : limit ≠ 2 ^ 32 - 1 ∨
      (matchingRows enc t namespaceId conditions rows).length ≤ limit)
    {f : QueryFilter} (hf : Reached q (matchingRows enc t namespaceId conditions rows) f) {pre : List Record}
    (hrest : sort (recordOrder q.orderBy) (matchingRows enc t namespaceId conditions rows) =
      pre ++ restOf enc t namespaceId conditions rows f) :
    let rest := restOf enc t namespaceId conditions rows f
    (rest.length ≤ limit →
      fetchPage enc encodeToken decodeToken t t.index rows namespaceId f = some (rest, none)) ∧
    (limit < rest.length → ∃ x ∈ matchingRows enc t namespaceId conditions rows,
      restOf enc t namespaceId conditions rows { q with after := some (x.cursor q.orderBy) } = rest.drop limit ∧
      fetchPage enc encodeToken decodeToken t t.index rows namespaceId f =
        some (rest.take limit, some { q with after := some (x.cursor q.orderBy) })) := by
  have hpos := (hq.limit limit hlimit).1
  have hsame : f.orderBy = q.orderBy ∧ f.predicate = q.predicate ∧ f.limit = q.limit := by
    rcases hf with rfl | ⟨x, _, rfl⟩
    · exact ⟨rfl, rfl, rfl⟩
    · exact ⟨rfl, rfl, rfl⟩
  obtain ⟨horder, hpredicate, hlim⟩ := hsame
  have hpage := executeSelectQuery_eq enc encodeToken namespaceId h.conforms
    (horder.symm ▸ hq.sortable) (hpredicate.symm ▸ hw) (hlim.trans hlimit) hpos
  intro rest
  change executeSelectQuery enc encodeToken t rows namespaceId f = (rest.take limit, _) at hpage
  change _ = pre ++ rest at hrest
  unfold fetchPage
  rw [hpage]
  constructor
  · intro hshort
    have hlast : ¬ (limit < rest.length ∧ limit ≠ 2 ^ 32 - 1) := fun hmore => by omega
    rw [if_neg hlast, take_of_length_le hshort]
  · intro hlong
    have hlengths := congrArg List.length hrest
    rw [(perm_sort _ _).length_eq, length_append] at hlengths
    have hmore : limit < rest.length ∧ limit ≠ 2 ^ 32 - 1 := ⟨hlong, by omega⟩
    obtain ⟨x, hx⟩ : ∃ x, rest[limit - 1]? = some x :=
      ⟨_, List.getElem?_eq_getElem (by omega)⟩
    have hsplit : rest = rest.take (limit - 1) ++ x :: rest.drop limit := by
      obtain ⟨hlt, hget⟩ := List.getElem?_eq_some_iff.mp hx
      have hdrop := drop_eq_getElem_cons hlt
      rw [hget, Nat.sub_add_cancel hpos] at hdrop
      rw [← hdrop, take_append_drop]
    have hx' : x ∈ matchingRows enc t namespaceId conditions rows := by
      rw [← (perm_sort (recordOrder q.orderBy) _).mem_iff, hrest]
      exact mem_append_right _ (mem_of_getElem? hx)
    have hxrows : x ∈ rows := (mem_filter.mp hx').1
    refine ⟨x, hx', ?_, ?_⟩
    · have hsorted : sort (recordOrder q.orderBy) (matchingRows enc t namespaceId conditions rows) =
            (pre ++ rest.take (limit - 1)) ++ x :: rest.drop limit := by
        rw [hrest, append_assoc, ← hsplit]
      exact restOf_after h hq hsorted
    · have htoken := decodeCursorToken_write (h.tokens x hxrows) hq.sortable
        (h.conforms x hxrows) fun d _ => Record.value_fits (h.fits x hxrows) d.fieldIndex
      rw [if_pos hmore, hx, Option.map_some]
      dsimp only
      rw [prepareLoadMoreRead, horder, htoken, ok_bind, hpredicate, hlim]
      rfl

lemma readPages_canonical (h : Pageable encodeToken decodeToken t q.orderBy rows)
    (hq : q.Canonical t) (hfirst : q.after = none) (hw : filterWhere t q.predicate = .ok conditions)
    {limit : ℕ} (hlimit : q.limit = some limit)
    (hseen : limit ≠ 2 ^ 32 - 1 ∨
      (matchingRows enc t namespaceId conditions rows).length ≤ limit)
    {fuel : ℕ} (hfuel : (matchingRows enc t namespaceId conditions rows).length < fuel) :
    ∃ pages, readPages (fetchPage enc encodeToken decodeToken t t.index rows namespaceId) fuel q = some pages ∧
      pages.flatten = sort (recordOrder q.orderBy) (matchingRows enc t namespaceId conditions rows) := by
  let matching := matchingRows enc t namespaceId conditions rows
  let rest := restOf enc t namespaceId conditions rows
  -- Every filter the client comes to is reached, and selects an end of the listing.
  let I : QueryFilter → Prop := fun f => Reached q matching f ∧
    ∃ pre, sort (recordOrder q.orderBy) matching = pre ++ rest f
  have hlast : ∀ f, I f → (rest f).length ≤ limit →
      fetchPage enc encodeToken decodeToken t t.index rows namespaceId f = some (rest f, none) := by
    rintro f ⟨hreached, pre, hpre⟩
    exact (fetchPage_reached h hq hw hlimit hseen hreached hpre).1
  have hmore : ∀ f, I f → limit < (rest f).length → ∃ f', I f' ∧ rest f' = (rest f).drop limit ∧
      fetchPage enc encodeToken decodeToken t t.index rows namespaceId f =
        some ((rest f).take limit, some f') := by
    rintro f ⟨hreached, pre, hpre⟩ hlong
    obtain ⟨x, hx, hrest, hfetch⟩ :=
      (fetchPage_reached h hq hw hlimit hseen hreached hpre).2 hlong
    refine ⟨_, ⟨.inr ⟨x, hx, rfl⟩, pre ++ (rest f).take limit, ?_⟩, hrest, hfetch⟩
    change _ = _ ++ restOf enc t namespaceId conditions rows _
    rw [hpre, hrest, append_assoc, take_append_drop]
  have hstart : rest q = sort (recordOrder q.orderBy) matching := by
    change restOf enc t namespaceId conditions rows q = _
    rw [restOf, hfirst]
    simp [matching]
  have hlength : (rest q).length < fuel := by
    rw [hstart, (perm_sort _ _).length_eq]
    exact hfuel
  rw [← hstart]
  exact readPages_rest (hq.limit limit hlimit).1 hlast hmore
    ⟨.inl rfl, [], by rw [hstart, nil_append]⟩ hlength

end Following
end Rest

/-- Over rows with ids and creation times of their own, following the cursors of a parsed query reads
every matching row once, in the order of the query, and the last page has no cursor. With the greatest
limit the matching rows have to fit a page. -/
theorem pages_read_once {encodeToken : Payload → Bytes} {decodeToken : Bytes → Option Payload}
    {s : Schema} {tableIndex : ℕ} {p : Payload} {q : QueryFilter} {t : Table}
    {predicate : FilterPredicate} {conditions : SqlWhere} {limit : ℕ} {rows : List Record}
    (enc : Encodings) (namespaceId : ℤ) (hq : parseQueryFilter decodeToken s tableIndex p = .ok q)
    (ht : s.tableByIndex tableIndex = some t) (hfirst : q.after = none)
    (hlimit : q.limit = some limit) (hw : filterWhere t predicate = .ok conditions)
    (h : Pageable encodeToken decodeToken t q.orderBy rows)
    (hseen : limit ≠ 2 ^ 32 - 1 ∨
      (matchingRows enc t namespaceId conditions rows).length ≤ limit)
    {fuel : ℕ} (hfuel : (matchingRows enc t namespaceId conditions rows).length < fuel) :
    ∃ pages, readPages (fetchPage enc encodeToken decodeToken t tableIndex rows namespaceId) fuel
        { q with predicate } = some pages ∧
      pages.flatten.Perm (matchingRows enc t namespaceId conditions rows) ∧
      pages.flatten.Pairwise fun a b =>
        orderCompare enc (q.orderBy.map (orderTerm t)) (storedRow t a) (storedRow t b) = .lt := by
  have hindex : t.index = tableIndex := s.indexed _ _ ht
  have hparsed := parseQueryFilter_canonical hq ht
  subst hindex
  let base : QueryFilter := { q with predicate }
  have hbase : base.Canonical t := ⟨hparsed.sortable, hparsed.unique, hparsed.limit⟩
  obtain ⟨pages, hpages, hflatten⟩ :=
    @readPages_canonical enc t namespaceId conditions rows base encodeToken decodeToken h hbase
      hfirst hw limit hlimit hseen fuel hfuel
  change pages.flatten = sort (recordOrder q.orderBy) _ at hflatten
  refine ⟨pages, hpages, hflatten ▸ perm_sort _ _, ?_⟩
  have hconforms : ∀ r ∈ pages.flatten, t.Conforms r := fun r hr =>
    h.conforms r (List.mem_filter.mp ((perm_sort _ _).mem_iff.mp (hflatten ▸ hr))).1
  have hstrict := strict_sort (h.matching_apart enc namespaceId conditions hparsed.unique)
  rw [← hflatten] at hstrict
  refine hstrict.imp_of_mem fun {a b} ha hb hlt => ?_
  rw [orderCompare_eq enc hparsed.sortable (hconforms a ha) (hconforms b hb)]
  exact hlt

namespace PaginationExample

open AgreementExample

/-- Notes with the creation times `0`, `1`, .. -/
def noteAt (i : ℕ) : Record where
  values := [.scalar (.docId (Fin.ofNat _ i)), .scalar (.integer 1), .scalar (.docId 7), .nil,
    .scalar (.integer i), .scalar (.integer i)]

def notes (n : ℕ) : List Record := (List.range n).map noteAt

lemma noteAt_conforms (i : ℕ) : noteTable.Conforms (noteAt i) := by
  refine .cons ?_ (.cons ?_ (.cons ?_ (.cons ?_ (.cons ?_ (.cons ?_ .nil))))) <;> rfl

lemma noteAt_fits {i : ℕ} (hi : i < 2 ^ 63) : ∀ v ∈ (noteAt i).values, v.Fits := by
  intro v hv
  simp only [noteAt, mem_cons, not_mem_nil, or_false] at hv
  rcases hv with rfl | rfl | rfl | rfl | rfl | rfl
  · trivial
  · exact ⟨by decide, by decide⟩
  · trivial
  · trivial
  · exact ⟨by omega, by omega⟩
  · exact ⟨by omega, by omega⟩

lemma notes_ids {n : ℕ} (hn : n ≤ 2 ^ 128) : ((notes n).map fun r => r.value idFieldIndex).Nodup := by
  rw [notes, map_map]
  refine List.Nodup.map_on (fun i hi j hj hij => ?_) nodup_range
  have hmod : (Fin.ofNat (2 ^ 128) i).val = (Fin.ofNat (2 ^ 128) j).val := by
    change Value.scalar (.docId _) = .scalar (.docId _) at hij
    injection hij with hij
    injection hij with hij
    exact congrArg Fin.val hij
  rw [mem_range] at hi hj
  rwa [Fin.val_ofNat, Fin.val_ofNat, Nat.mod_eq_of_lt (by omega), Nat.mod_eq_of_lt (by omega)]
    at hmod

lemma notes_created (n : ℕ) : ((notes n).map fun r => r.value noteTable.createdAtIndex).Nodup := by
  rw [notes, map_map]
  refine List.Nodup.map_on (fun i _ j _ hij => ?_) nodup_range
  change Value.scalar (.integer _) = .scalar (.integer _) at hij
  injection hij with hij
  injection hij with hij
  exact Int.ofNat.inj hij

def allNotes (limit : ℕ) : Payload := .map [(.str (asciiBytes "limit"), .uint limit)]

def allNotesFilter (limit : ℕ) : QueryFilter where
  predicate := { state := .matchAll }
  orderBy := [{ fieldIndex := 4, desc := false }]
  limit := some limit

lemma parse_allNotes {limit : ℕ} (hpos : 0 < limit) (hlimit : limit < 2 ^ 32)
    (decodeToken : Bytes → Option Payload) :
    parseQueryFilter decodeToken noteSchema 0 (allNotes limit) = .ok (allNotesFilter limit) := by
  have hkey : FilterParseCtx.handleFilterKey noteTable {} (asciiBytes "limit") (.uint limit) =
      .ok { limit := some limit } := by
    have hparse : parseLimit none (.uint limit) = .ok (some limit) := by
      have hne : some limit ≠ some 0 := by
        rintro h
        cases h
        omega
      simp only [parseLimit]
      rw [if_pos hlimit, ok_bind, if_neg hne]
      rfl
    change (parseLimit none (.uint limit)).bind _ = _
    rw [hparse]
    rfl
  have hentries : FilterParseCtx.handleEntries noteTable {}
      [(.str (asciiBytes "limit"), .uint limit)] = .ok { limit := some limit } := by
    rw [FilterParseCtx.handleEntries, hkey]
    rfl
  change (FilterParseCtx.handleEntries noteTable {} _ >>= _) = _
  rw [hentries]
  rfl

lemma matchingRows_notes (n : ℕ) : matchingRows enc noteTable 1 .one (notes n) = notes n := by
  rw [matchingRows, filter_eq_self]
  intro r hr
  obtain ⟨i, -, rfl⟩ := mem_map.mp hr
  rfl

lemma notes_length (n : ℕ) : (notes n).length = n := by
  rw [notes, length_map, length_range]

lemma notes_conform {n : ℕ} (hn : n ≤ 2 ^ 63) :
    ∀ r ∈ notes n, noteTable.Conforms r ∧ ∀ v ∈ r.values, v.Fits := by
  intro r hr
  obtain ⟨i, hi, rfl⟩ := mem_map.mp hr
  have hi := mem_range.mp hi
  exact ⟨noteAt_conforms i, noteAt_fits (by omega)⟩

lemma fetchPage_greatest {n limit : ℕ} (hn : n ≤ 2 ^ 63) (hlimit : limit = 2 ^ 32 - 1)
    (encodeToken : Payload → Bytes) (decodeToken : Bytes → Option Payload) :
    ∃ page, fetchPage enc encodeToken decodeToken noteTable 0 (notes n) 1 (allNotesFilter limit) =
      some (page, none) ∧ page.length ≤ limit := by
  have hparse := @parse_allNotes limit (by omega) (by omega) decodeToken
  have hq := parseQueryFilter_canonical hparse rfl
  have hw : filterWhere noteTable (allNotesFilter limit).predicate = .ok .one := rfl
  have hpage := executeSelectQuery_eq enc encodeToken 1 (fun r hr => (notes_conform hn r hr).1)
    hq.sortable hw rfl (by omega)
  dsimp only at hpage
  rw [if_neg fun h => h.2 hlimit] at hpage
  refine ⟨(restOf enc noteTable 1 .one (notes n) (allNotesFilter limit)).take limit, ?_,
    length_take_le _ _⟩
  unfold fetchPage
  rw [hpage]

/-- The page leaves out notes when there are more than the greatest limit. -/
theorem greatest_limit_stops : (∀ r ∈ notes (2 ^ 32), noteTable.Conforms r ∧ ∀ v ∈ r.values, v.Fits) ∧
    ((notes (2 ^ 32)).map fun r => r.value idFieldIndex).Nodup ∧
    ((notes (2 ^ 32)).map fun r => r.value noteTable.createdAtIndex).Nodup ∧
    ∀ (encodeToken : Payload → Bytes) (decodeToken : Bytes → Option Payload),
      parseQueryFilter decodeToken noteSchema 0 (allNotes (2 ^ 32 - 1)) = .ok (allNotesFilter (2 ^ 32 - 1)) ∧
      ∃ page, fetchPage enc encodeToken decodeToken noteTable 0 (notes (2 ^ 32)) 1
          (allNotesFilter (2 ^ 32 - 1)) = some (page, none) ∧
        page.length < (matchingRows enc noteTable 1 .one (notes (2 ^ 32))).length := by
  refine ⟨notes_conform (by decide), notes_ids (by decide), notes_created _, fun encodeToken decodeToken =>
      ⟨parse_allNotes (by decide) (by decide) decodeToken, ?_⟩⟩
  obtain ⟨page, hpage, hlength⟩ := @fetchPage_greatest (2 ^ 32) (2 ^ 32 - 1) (by decide) rfl
    encodeToken decodeToken
  refine ⟨page, hpage, ?_⟩
  rw [matchingRows_notes, notes_length]
  exact Nat.lt_of_le_of_lt hlength (by decide)

def encodeToken : Payload → Bytes
  | .arr [_, _, .arr [.uint 0]] => asciiBytes "kwCRkgQAkQA="
  | _ => asciiBytes "kwCRkgQAkQE="

def decodeToken (token : Bytes) : Option Payload :=
  if token = asciiBytes "kwCRkgQAkQA=" then
    some (cursorPayload 0 [⟨4, false⟩] [.scalar (.integer 0)])
  else if token = asciiBytes "kwCRkgQAkQE=" then
    some (cursorPayload 0 [⟨4, false⟩] [.scalar (.integer 1)])
  else none

lemma notes_pageable : Pageable encodeToken decodeToken noteTable (allNotesFilter 1).orderBy (notes 2) where
  conforms r hr := (notes_conform (by decide) r hr).1
  fits r hr := (notes_conform (by decide) r hr).2
  ids := notes_ids (by decide)
  created := notes_created 2
  tokens r hr := by
    obtain ⟨i, hi, rfl⟩ := mem_map.mp hr
    match i, mem_range.mp hi with
    | 0, _ => rfl
    | 1, _ => rfl

theorem pages_read_once_notes :
    ∃ pages, readPages (fetchPage enc encodeToken decodeToken noteTable 0 (notes 2) 1) 3
        { allNotesFilter 1 with predicate := { state := .matchAll } } = some pages ∧
      pages.flatten.Perm (matchingRows enc noteTable 1 .one (notes 2)) ∧
      pages.flatten.Pairwise fun a b =>
        orderCompare enc ((allNotesFilter 1).orderBy.map (orderTerm noteTable))
          (storedRow noteTable a) (storedRow noteTable b) = .lt :=
  pages_read_once enc 1 (parse_allNotes (by decide) (by decide) decodeToken) rfl rfl rfl rfl
    notes_pageable (Or.inl (by decide)) (by rw [matchingRows_notes]; decide)

end PaginationExample
end ZyncBase
