import ZyncBase.Storage.CacheMutations
import ZyncBase.Storage.ReadHonesty

/-! The lookup of one document by its id, through the cache, and the query that it stands for. -/
namespace ZyncBase

open AssocMap ReadWorker List

def Database.records (db : Database) (t : Table) : List Record :=
  (db.rows.filter fun e => e.1.tableIndex = t.index).map fun e => e.2.record e.1.id

def DocumentCache.document (c : DocumentCache) (t : Table) (namespaceId : ℤ) (id : DocId) : Option Record :=
  c.get (getCacheKey t namespaceId id)

section Records

variable {db : Database} {t : Table} {r : Record}

lemma record_id (id : DocId) (r : Row) : (r.record id).value idFieldIndex = .scalar (.docId id) := rfl

lemma record_namespaceId (id : DocId) (r : Row) :
    (r.record id).value namespaceIdFieldIndex = .scalar (.integer r.namespaceId) := rfl

lemma mem_records : r ∈ db.records t ↔ ∃ id row, db.row ⟨t.index, id⟩ = some row ∧ r = row.record id := by
  rw [Database.records, mem_map]
  constructor
  · rintro ⟨⟨⟨i, id⟩, row⟩, hmem, rfl⟩
    obtain ⟨hrow, htable⟩ := mem_filter.mp hmem
    obtain rfl : i = t.index := of_decide_eq_true htable
    exact ⟨id, row, Database.mem_rows.mp hrow, rfl⟩
  · rintro ⟨id, row, hrow, rfl⟩
    exact ⟨⟨⟨t.index, id⟩, row⟩, mem_filter.mpr ⟨Database.mem_rows.mpr hrow, decide_eq_true rfl⟩, rfl⟩

lemma records_ids : ((db.records t).map fun r => r.value idFieldIndex).Nodup := by
  rw [Database.records, map_map, List.Nodup, pairwise_map]
  refine ((List.Pairwise.sublist filter_sublist db.distinct).imp_of_mem fun {a b} ha hb hne heq => ?_)
  have hid : a.1.id = b.1.id := by
    injection heq with hscalar
    injection hscalar
  have htable : a.1.tableIndex = b.1.tableIndex :=
    (of_decide_eq_true (mem_filter.mp ha).2).trans (of_decide_eq_true (mem_filter.mp hb).2).symm
  obtain ⟨⟨i, id⟩, row⟩ := a
  obtain ⟨⟨j, id'⟩, row'⟩ := b
  dsimp only at hid htable
  rw [hid, htable] at hne
  exact absurd rfl ((eqKey_eq_false _ _).mp hne)

lemma selected_iff (namespaceId : ℤ) (id id' : DocId) (row : Row) :
    ((row.record id').value namespaceIdFieldIndex = .scalar (.integer namespaceId) &&
      (row.record id').value idFieldIndex = .scalar (.docId id)) = true ↔
      row.namespaceId = namespaceId ∧ id' = id := by
  simp [record_id, record_namespaceId]

lemma selectDocument_records (namespaceId : ℤ) (id : DocId) :
    selectDocument (db.records t) namespaceId id = db.contents (namespaceId, ⟨t.index, id⟩) := by
  rw [Database.contents, Database.select]
  cases hfound : selectDocument (db.records t) namespaceId id with
  | some r =>
    unfold selectDocument at hfound
    obtain ⟨id', row, hrow, rfl⟩ := mem_records.mp (mem_of_find?_eq_some hfound)
    have hselected := find?_some hfound
    obtain ⟨hns, rfl⟩ := (selected_iff namespaceId id id' row).mp hselected
    simp only [hrow, if_pos hns]
  | none =>
    cases hrow : db.row ⟨t.index, id⟩ with
    | none => rfl
    | some row =>
      have hother := find?_eq_none.mp hfound _ (mem_records.mpr ⟨id, row, hrow, rfl⟩)
      dsimp only
      rw [if_neg fun hns => hother ((selected_iff namespaceId id id row).mpr ⟨hns, rfl⟩)]

end Records

section PointLookup

lemma selectQuery_of_queryResult {enc : Encodings} {encodeToken : Payload → Bytes} {t : Table}
    {rows : List Record} {namespaceId : ℤ} {filter : QueryFilter} {page : List Record × Option Bytes}
    (hconforms : ∀ r ∈ rows, t.Conforms r) (hsortable : ∀ d ∈ filter.orderBy, d.Sortable t)
    (h : queryResult enc encodeToken t rows namespaceId filter = some page) :
    selectQuery enc encodeToken {} t rows namespaceId filter = .ok page ∧
      ∀ faults page', selectQuery enc encodeToken faults t rows namespaceId filter = .ok page' →
        page' = page := by
  cases hq : selectStatement t namespaceId filter with
  | error e =>
    rw [queryResult, hq] at h
    cases h
  | ok q =>
    refine ⟨(selectQuery_eq_ok hconforms hsortable hq).mpr ⟨⟨rfl, rfl, fun _ _ => rfl, fun _ _ => rfl,
      fun _ _ => rfl, rfl⟩, h⟩, fun faults page' hpage => ?_⟩
    exact Option.some.inj (((selectQuery_eq_ok hconforms hsortable hq).mp hpage).2.symm.trans h)

variable {s : Schema} {t : Table} {req : ReadRequest} {id : DocId} {c : DocumentCache} {db : Database}

lemma document_slot : (getCacheKey t (req.effectiveNamespaceId t) id).slot =
    (req.effectiveNamespaceId t, ⟨t.index, id⟩) := by
  rw [getCacheKey, DocumentCacheKey.slot, ReadRequest.effectiveNamespaceId]
  cases t.namespaced <;> rfl

/-- A document lookup answers with the rows and the cursor of the query of its filter. -/
theorem pointLookup_eq_query (enc : Encodings) (encodeToken : Payload → Bytes) (hreq : Requested s req)
    (ht : s.tableByIndex req.tableIndex = some t) (hpoint : isPointLookup req.filter = some id)
    (hconforms : ∀ r ∈ db.records t, t.Conforms r) (hcoherent : c.Serves db) :
    (∃ records nextCursor,
      ReadWorker.executeSelectQuery enc encodeToken {} t (db.records t) (req.effectiveNamespaceId t)
        req.filter = (records, nextCursor) ∧
      executeRead enc encodeToken {} s (c.document t) (db.records t) req =
        { records, nextCursor, subId := req.subId }) ∧
    ∀ faults faults' page, (executeRead enc encodeToken faults s (c.document t) (db.records t) req).err = none →
      selectQuery enc encodeToken faults' t (db.records t) (req.effectiveNamespaceId t) req.filter = .ok page →
      executeRead enc encodeToken faults s (c.document t) (db.records t) req =
        { records := page.1, nextCursor := page.2, subId := req.subId } := by
  have hreadable := hreq.readable ht
  have hquery : queryResult enc encodeToken t (db.records t) (req.effectiveNamespaceId t) req.filter =
      some ((selectDocument (db.records t) (req.effectiveNamespaceId t) id).toList, none) :=
    queryResult_point enc encodeToken hconforms records_ids hreadable.normal hreadable.limit hpoint
  obtain ⟨hselects, hselected⟩ := selectQuery_of_queryResult hconforms hreadable.sortable hquery
  have hcached : (c.document t (req.effectiveNamespaceId t) id).or
      (selectDocument (db.records t) (req.effectiveNamespaceId t) id) =
        selectDocument (db.records t) (req.effectiveNamespaceId t) id := by
    cases hdocument : c.document t (req.effectiveNamespaceId t) id with
    | none => rfl
    | some r => rw [selectDocument_records, ← document_slot, hcoherent _ r hdocument, Option.some_or]
  have hread (faults) : ReadSucceeds enc faults t (c.document t) (db.records t) req ∧
      executeRead enc encodeToken faults s (c.document t) (db.records t) req =
        { records := (selectDocument (db.records t) (req.effectiveNamespaceId t) id).toList,
          subId := req.subId } ∨
      ¬ReadSucceeds enc faults t (c.document t) (db.records t) req ∧
        ∃ e, (executeRead enc encodeToken faults s (c.document t) (db.records t) req).err = some e := by
    rw [← hcached]
    exact executeRead_point ht hpoint hconforms
  constructor
  · have hsucceeds : ReadSucceeds enc {} t (c.document t) (db.records t) req := by
      rw [ReadSucceeds, hpoint]
      dsimp only
      unfold DocumentSucceeds
      split
      · exact ⟨rfl, rfl⟩
      · exact ⟨rfl, rfl, rfl, fun _ => ⟨rfl, rfl⟩⟩
    refine ⟨_, none, ?_, ((hread {}).resolve_right fun h => h.1 hsucceeds).2⟩
    rw [ReadWorker.executeSelectQuery, if_neg (by rw [(conditional_point hreadable.normal hpoint).2]; simp),
      hselects]
  · intro faults faults' page herr hpage
    rw [hselected faults' page hpage]
    rcases hread faults with ⟨-, hresponse⟩ | ⟨-, e, he⟩
    · exact hresponse
    · cases he.symm.trans herr

end PointLookup

namespace PointLookupExample

open AgreementExample PaginationExample

/-- The note with the id 5 in namespace 1, as a client asks for it. -/
def noteLookup : Payload :=
  .map [(.str (asciiBytes "conditions"), .arr [.arr [.uint 0, .uint 0, .bin (List.replicate 15 0 ++ [5])]]),
    (.str (asciiBytes "orderBy"), .arr [.arr [.uint 0, .uint 0]])]

def lookup : ReadRequest where
  connId := 4
  tableIndex := 0
  namespaceId := 1
  filter :=
    { predicate :=
        { state := .conditional
          conditions := some [⟨0, .eq, some (.scalar (.docId 5)), .docId, none⟩] }
      orderBy := [⟨0, false⟩]
      limit := none
      after := none }
  subId := none

lemma requested_lookup : Requested noteSchema lookup := by
  have hprepared : prepareQueryRead (fun _ => none) noteSchema (.boolean true) {} ⟨4, 1⟩ 0 noteLookup
      none = .ok lookup := rfl
  exact .query hprepared

def note : Row := { namespaceId := 1, ownerId := 7, fields := [.nil], createdAt := 5, updatedAt := 5 }

def stored : Database := Database.put {} ⟨0, 5⟩ note

def cached : DocumentCache := { entries := [(⟨1, 0, 5⟩, note.record 5)] }

theorem pointLookup_eq_query_note : ∃ records nextCursor,
    ReadWorker.executeSelectQuery enc encodeToken {} noteTable (stored.records noteTable)
      (lookup.effectiveNamespaceId noteTable) lookup.filter = (records, nextCursor) ∧
    executeRead enc encodeToken {} noteSchema (cached.document noteTable)
      (stored.records noteTable) lookup = { records, nextCursor, subId := none } := by
  have hpoint : isPointLookup lookup.filter = some 5 := rfl
  have hserves : cached.Serves stored := by
    intro key r h
    obtain ⟨k, hk, hmem⟩ := mem_of_find eqKey h
    rw [← (eqKey_iff _ _).mp hk]
    cases mem_singleton.mp hmem
    rfl
  refine (pointLookup_eq_query enc encodeToken requested_lookup rfl hpoint ?_ hserves).1
  intro r hr
  obtain rfl : r = note.record 5 := mem_singleton.mp hr
  refine .cons ?_ (.cons ?_ (.cons ?_ (.cons ?_ (.cons ?_ (.cons ?_ .nil))))) <;> rfl

end PointLookupExample

end ZyncBase
