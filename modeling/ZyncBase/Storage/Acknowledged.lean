import ZyncBase.Storage.PkSets

/-! What an acknowledgement promises: an operation that is reported as committed left its document
as it asked, unless it is an upsert without a guard whose id is stored in another namespace. -/
namespace ZyncBase

open Database Outcome WriteWorker List Option

section Columns

/-- The first value given for a user field. -/
def firstValue (columns : List ColumnValue) (i : ℕ) : Option Value :=
  (columns.find? fun c => c.index - firstUserFieldIndex = i).map ColumnValue.value

def lastValue (columns : List ColumnValue) : ℕ → Option Value := firstValue columns.reverse

/-- The row has the values written to its user fields. -/
def Row.Carries (r : Row) (written : ℕ → Option Value) : Prop :=
  ∀ i v, written i = some v → i < r.fields.length → r.fields[i]? = some v

lemma length_setColumns (r : Row) (columns : List ColumnValue) :
    (r.setColumns columns).fields.length = r.fields.length := by
  unfold Row.setColumns
  induction columns using List.reverseRecOn with
  | nil => rfl
  | append_singleton cs c ih =>
    rw [foldl_concat, length_set]
    exact ih

lemma carries_setColumns (r : Row) (columns : List ColumnValue) :
    (r.setColumns columns).Carries (lastValue columns) := by
  induction columns using List.reverseRecOn with
  | nil =>
    intro i v hv
    cases hv
  | append_singleton cs c ih =>
    intro i v hv hi
    have hlength : (r.setColumns cs).fields.length = r.fields.length := length_setColumns r cs
    rw [length_setColumns, ← hlength] at hi
    have hset : (r.setColumns (cs ++ [c])).fields =
        (r.setColumns cs).fields.set (c.index - firstUserFieldIndex) c.value := by
      unfold Row.setColumns
      rw [foldl_concat]
    rw [hset, getElem?_set]
    rw [lastValue, firstValue, reverse_append, reverse_singleton, singleton_append, find?_cons] at hv
    by_cases hc : c.index - firstUserFieldIndex = i
    · simp only [hc, decide_true, map_some] at hv
      rw [if_pos hc, if_pos (hc ▸ hi), hv]
    · simp only [hc, decide_false] at hv
      rw [if_neg hc]
      exact ih i v hv hi

lemma carries_insertColumns (r : Row) (columns : List ColumnValue) :
    (r.insertColumns columns).Carries (firstValue columns) := by
  have h := carries_setColumns r columns.reverse
  rwa [lastValue, reverse_reverse] at h

end Columns

namespace RowOp

/-- The stored rows are as the operation asked: an upsert left its row with the written values, an
update did so or had no row to update, and a delete left no row. A column that is given twice is written
as SQLite does: an upsert writes the first value and an update the last one. -/
def Effected (s : Schema) (db db' : Database) (op : RowOp) : Prop :=
  ∃ t, s.tableByIndex op.target.tableIndex = some t ∧
    match op with
    | .upsert u => ∃ r, db'.row op.target = some r ∧ r.namespaceId = op.storedNamespace t ∧
        r.Carries (firstValue u.columns)
    | .update u => (∃ r, db'.row op.target = some r ∧ r.namespaceId = op.storedNamespace t ∧
        r.Carries (lastValue u.columns)) ∨ db.select op.target (op.storedNamespace t) = none
    | .delete _ => db'.select op.target (op.storedNamespace t) = none

def Shadowed (s : Schema) (db : Database) (op : RowOp) : Prop :=
  ∃ t r, s.tableByIndex op.target.tableIndex = some t ∧ op.guardPredicate = none ∧
    (∃ u, op = .upsert u) ∧ db.row op.target = some r ∧ r.namespaceId ≠ op.storedNamespace t

variable {s : Schema} {sqlite : Sqlite} {enc : Encodings} {t : Table} {guard : Option SqlWhere}
  {db : Database} {op : RowOp} {p : Database × Option Record} {ctx ctx' : BatchCtx}

lemma Performs.effected_of_isSome (ht : s.tableByIndex op.target.tableIndex = some t)
    (h : op.Performs s enc t guard db p) (hsome : p.2.isSome) : op.Effected s db p.1 := by
  refine ⟨t, ht, ?_⟩
  cases h with
  | upsert op createdAt =>
    rcases upsert_spec db (guardSelects enc t guard) ⟨op.tableIndex, op.id⟩ (newRow t
      ((RowOp.upsert op).storedNamespace t) (if t.isUsersTable then op.id else op.ownerDocId)
      (if t.isUsersTable then some (hexSlice op.id) else none) op.columns createdAt) op.columns with
      ⟨r, he, hn, hr⟩ | ⟨he, _⟩
    · rw [he]
      refine ⟨r, by rw [row_put]; exact if_pos rfl, hn, ?_⟩
      rcases hr with rfl | ⟨r₀, rfl⟩
      · exact carries_insertColumns _ op.columns
      · exact carries_insertColumns r₀ op.columns
    · rw [he] at hsome
      cases hsome
  | update op =>
    rcases update_spec db (guardSelects enc t guard) ⟨op.tableIndex, op.id⟩
      ((RowOp.update op).storedNamespace t) op.columns op.timestamp with
      ⟨r, _, hn, he⟩ | ⟨he, _⟩
    · rw [he]
      refine .inl ⟨{ r.setColumns op.columns with updatedAt := op.timestamp },
        by rw [row_put]; exact if_pos rfl, hn, ?_⟩
      exact carries_setColumns r op.columns
    · rw [he] at hsome
      cases hsome
  | delete op =>
    rcases delete_spec db (guardSelects enc t guard) s ⟨op.tableIndex, op.id⟩
      ((RowOp.delete op).storedNamespace t) with ⟨r, _, _, he⟩ | ⟨he, _⟩
    · rw [he]
      change Database.select _ ⟨op.tableIndex, op.id⟩ _ = none
      rw [Database.select, row_deleteCascading_self]
    · rw [he] at hsome
      cases hsome

lemma select_eq_none_of {key : RowKey} {namespaceId : ℤ}
    (h : ∀ r, db.row key = some r → r.namespaceId ≠ namespaceId) : db.select key namespaceId = none := by
  unfold Database.select
  cases hr : db.row key with
  | none => rfl
  | some r => exact if_neg (h r hr)

/-- Without a guard a statement that returned no row found none in its namespace; for an upsert,
the row is in another one. -/
lemma Performs.select_eq_none (h : op.Performs s enc t none db p) (hnone : p.2 = none) :
    db.select op.target (op.storedNamespace t) = none ∧
      ((∃ u, op = .upsert u) → ∃ r, db.row op.target = some r ∧ r.namespaceId ≠ op.storedNamespace t) := by
  have hselects : ∀ r, guardSelects enc t none r = true := fun _ => rfl
  cases h with
  | upsert op createdAt =>
    rcases upsert_spec db (guardSelects enc t none) ⟨op.tableIndex, op.id⟩ (newRow t
      ((RowOp.upsert op).storedNamespace t) (if t.isUsersTable then op.id else op.ownerDocId)
      (if t.isUsersTable then some (hexSlice op.id) else none) op.columns createdAt) op.columns with
      ⟨r, he, hn, hr⟩ | ⟨he, r, hr, hsel⟩
    · rw [he] at hnone
      cases hnone
    · rw [hselects, Bool.and_true, decide_eq_false_iff_not] at hsel
      refine ⟨select_eq_none_of fun r' hr' => ?_, fun _ => ⟨r, hr, hsel⟩⟩
      change db.row ⟨op.tableIndex, op.id⟩ = some r' at hr'
      rw [hr, Option.some.injEq] at hr'
      exact hr' ▸ hsel
  | update op =>
    rcases update_spec db (guardSelects enc t none) ⟨op.tableIndex, op.id⟩
      ((RowOp.update op).storedNamespace t) op.columns op.timestamp with
      ⟨r, _, hn, he⟩ | ⟨he, hrow⟩
    · rw [he] at hnone
      cases hnone
    · refine ⟨select_eq_none_of fun r hr => ?_, fun ⟨_, hu⟩ => by cases hu⟩
      have hsel := hrow r hr
      rwa [hselects, Bool.and_true, decide_eq_false_iff_not] at hsel
  | delete op =>
    rcases delete_spec db (guardSelects enc t none) s ⟨op.tableIndex, op.id⟩
      ((RowOp.delete op).storedNamespace t) with ⟨r, _, _, he⟩ | ⟨he, hrow⟩
    · rw [he] at hnone
      cases hnone
    · refine ⟨select_eq_none_of fun r hr => ?_, fun ⟨_, hu⟩ => by cases hu⟩
      have hsel := hrow r hr
      rwa [hselects, Bool.and_true, decide_eq_false_iff_not] at hsel

lemma Performs.unchanged (h : op.Performs s enc t guard db p) (hnone : p.2 = none) : p.1 = db := by
  cases h with
  | upsert op createdAt => exact (upsert_result _ op.columns rfl).unchanged hnone
  | update op => exact (update_result _ _).unchanged hnone
  | delete op => exact delete_result.unchanged hnone

lemma not_effected_of_shadowed (h : op.Performs s enc t guard db p)
    (ht : s.tableByIndex op.target.tableIndex = some t) (hs : op.Shadowed s db) :
    p.2 = none ∧ ¬ op.Effected s db p.1 := by
  obtain ⟨t', r, ht', _, ⟨u, rfl⟩, hr, hn⟩ := hs
  rw [ht, Option.some.injEq] at ht'
  subst ht'
  have hnone : p.2 = none := by
    cases h with
    | upsert _ createdAt =>
      rw [← not_isSome_iff_eq_none, upsert_isSome]
      change ¬ (db.row (upsert u).target).all _
      rw [hr, all_some, Bool.and_eq_true, decide_eq_true_eq]
      exact fun hsel => hn hsel.1
  refine ⟨hnone, ?_⟩
  rintro ⟨t', ht', r', hr', hn', _⟩
  rw [ht, Option.some.injEq] at ht'
  subst ht'
  rw [h.unchanged hnone, hr, Option.some.injEq] at hr'
  exact hn (hr' ▸ hn')

/-- Only an upsert is accepted beside a row of its namespace that its statement did not return. -/
lemma Performs.absent (h : op.Performs s enc t guard db p)
    (hguard : renderAndClause t op.guardPredicate = .ok guard)
    (haccepted : p.2.isSome || op.passesWithoutRow db t) (hnone : p.2 = none)
    (hno : ∀ u, op ≠ .upsert u) : db.select op.target (op.storedNamespace t) = none := by
  unfold passesWithoutRow at haccepted
  rw [hnone, isSome_none, Bool.false_or, Bool.or_eq_true] at haccepted
  rcases haccepted with hg | hsel
  · rw [isNone_iff_eq_none] at hg
    rw [hg] at hguard
    cases hguard
    exact (h.select_eq_none hnone).1
  · cases op with
    | upsert u => exact absurd rfl (hno u)
    | update u => exact isNone_iff_eq_none.mp hsel
    | delete u => exact isNone_iff_eq_none.mp hsel

lemma effected_iff (ht : s.tableByIndex op.target.tableIndex = some t)
    (hguard : renderAndClause t op.guardPredicate = .ok guard) (h : op.Performs s enc t guard db p)
    (haccepted : p.2.isSome || op.passesWithoutRow db t) : op.Effected s db p.1 ↔ ¬ op.Shadowed s db := by
  refine ⟨fun he hs => (not_effected_of_shadowed h ht hs).2 he, fun hs => ?_⟩
  cases hp : p.2 with
  | some r => exact h.effected_of_isSome ht (by rw [hp]; rfl)
  | none =>
    cases op with
    | upsert u =>
      rw [passesWithoutRow, hp, isSome_none, Bool.false_or, Bool.or_false] at haccepted
      have hg := isNone_iff_eq_none.mp haccepted
      rw [hg] at hguard
      cases hguard
      obtain ⟨r, hr, hn⟩ := (h.select_eq_none hp).2 ⟨u, rfl⟩
      exact absurd ⟨t, r, ht, hg, ⟨u, rfl⟩, hr, hn⟩ hs
    | update u =>
      exact ⟨t, ht, .inr (h.absent hguard haccepted hp fun _ he => by cases he)⟩
    | delete u =>
      refine ⟨t, ht, ?_⟩
      rw [h.unchanged hp]
      exact h.absent hguard haccepted hp fun _ he => by cases he

end RowOp

section Outcome

variable {s : Schema} {sqlite : Sqlite} {failFast : Bool} {opIdx : ℕ} {ops pre post : List RowOp}
  {op : RowOp} {ctx ctx' : BatchCtx} {u : Unit}

lemma runOps_rejected {i : ℕ} (h : runOps s sqlite failFast opIdx ops ctx = .ok u ctx')
    (hi : i ∈ ctx.guardRejected) : i ∈ ctx'.guardRejected := by
  refine runOps_induct (I := fun c => i ∈ c.guardRejected) ?_ ?_ h hi
  · intro op _ c b c' hc he
    obtain ⟨es, haccounts⟩ := executeEntry_accounts he
    rwa [haccounts.tracked.rejected]
  · intro j c hc
    exact mem_append_left _ hc

/-- An operation that the transaction did not reject was executed and accepted: it took effect,
unless it is a shadowed upsert. -/
lemma runOps_acknowledged (h : runOps s sqlite failFast 0 (pre ++ op :: post) ctx = .ok u ctx')
    (hack : failFast = true ∨ pre.length ∉ ctx'.guardRejected) :
    ∃ c c', runOps s sqlite failFast 0 pre ctx = .ok () c ∧
      runOps s sqlite failFast pre.length [op] c = .ok () c' ∧
      runOps s sqlite failFast (pre.length + 1) post c' = .ok () ctx' ∧
      (op.Effected s c.db c'.db ↔ ¬ op.Shadowed s c.db) := by
  obtain ⟨c, hpre, hrest⟩ := runOps_append.mp h
  rw [Nat.zero_add] at hrest
  obtain ⟨c', hop, hpost⟩ := runOps_cons.mp hrest
  refine ⟨c, c', hpre, hop, hpost, ?_⟩
  obtain ⟨b, c₁, hexec, hguard⟩ := runOps_one hop
  obtain ⟨t, guard, p, ht, hrender, hp, hdb, hb⟩ := executeEntry_performs hexec
  rw [guardOutcome_db hguard, hdb]
  refine RowOp.effected_iff ht hrender hp ?_
  rw [← hb]
  by_contra hrejected
  rw [Bool.not_eq_true] at hrejected
  subst hrejected
  cases hack with
  | inl hfast =>
    subst hfast
    cases hguard
  | inr hack =>
    refine hack (runOps_rejected hpost ?_)
    rw [guardOutcome_false hguard]
    exact mem_append_right _ (mem_singleton.mpr rfl)

end Outcome

/-- Whenever an operation is reported as committed, in a flush or as part of a batch, it was executed
in the transaction that was committed, and there it took effect, exactly unless it is an upsert
without a guard whose id was stored in another namespace. -/
theorem acknowledged_effect_iff (s : Schema) (sqlite : Sqlite) (w : WriteWorker)
    (pre post : List RowOp) (op : RowOp) :
    (w.flushOutcome s sqlite (pre ++ op :: post) pre.length = none →
      ∃ c c' ctx, runOps s sqlite false 0 pre w.begin = .ok () c ∧
        runOps s sqlite false pre.length [op] c = .ok () c' ∧
        runOps s sqlite false (pre.length + 1) post c' = .ok () ctx ∧
        (w.flushBatch s sqlite (pre ++ op :: post)).db = ctx.db ∧
        (op.Effected s c.db c'.db ↔ ¬ op.Shadowed s c.db)) ∧
    (w.batchOutcome s sqlite (pre ++ op :: post) = none →
      ∃ c c' ctx, runOps s sqlite true 0 pre w.begin = .ok () c ∧
        runOps s sqlite true pre.length [op] c = .ok () c' ∧
        runOps s sqlite true (pre.length + 1) post c' = .ok () ctx ∧
        (w.executeBatchOp s sqlite (pre ++ op :: post)).db = ctx.db ∧
        (op.Effected s c.db c'.db ↔ ¬ op.Shadowed s c.db)) := by
  constructor
  · intro h
    unfold flushOutcome at h
    unfold flushBatch runTransaction
    cases ht : w.tryTransaction s sqlite false (pre ++ op :: post) with
    | error e ctx => simp [ht] at h
    | ok u ctx =>
      have hack : pre.length ∉ ctx.guardRejected := by
        intro hm
        simp [ht, hm] at h
      obtain ⟨c, c', hpre, hop, hpost, heffect⟩ :=
        runOps_acknowledged (tryTransaction_eq_ok ht) (Or.inr hack)
      exact ⟨c, c', ctx, hpre, hop, hpost, rfl, heffect⟩
  · intro h
    unfold batchOutcome at h
    unfold executeBatchOp runTransaction
    cases ht : w.tryTransaction s sqlite true (pre ++ op :: post) with
    | error e ctx => simp [ht] at h
    | ok u ctx =>
      obtain ⟨c, c', hpre, hop, hpost, heffect⟩ :=
        runOps_acknowledged (tryTransaction_eq_ok ht) (Or.inl rfl)
      exact ⟨c, c', ctx, hpre, hop, hpost, rfl, heffect⟩

namespace AcknowledgedExample

open PkSetsExample

/-- Items with a value, kept by namespace. -/
def itemsTable : Table where
  name := "items"
  userFields := [.plain "val" .integer]
  fields_wellFormed := forall_mem_singleton.mpr (Field.plain_wellFormed (by decide))
  names_nodup := by decide

def itemsSchema : Schema := soloSchema itemsTable rfl fun f hf => by rw [mem_singleton.mp hf]

/-- Item 1 with this value, written in a namespace. -/
def putItem (namespaceId v : ℤ) : RowOp :=
  .upsert ⟨0, 1, namespaceId, 9, [⟨3, .scalar (.integer v), first_user_column⟩], none, 5, some ⟨1, 1⟩⟩

/-- A client of namespace 3 has created item 1. -/
def withItem : WriteWorker := flushBatch itemsSchema accepting [putItem 3 10] {}

/-- A client of namespace 4 writes item 1 as well: the write is reported as committed, but there is
no item 1 in namespace 4 then. -/
theorem shadowed_acknowledged : withItem.flushOutcome itemsSchema accepting [putItem 4 20] 0 = none ∧
    (withItem.flushBatch itemsSchema accepting [putItem 4 20]).db.contents (4, ⟨0, 1⟩) = none ∧
    ¬ (putItem 4 20).Effected itemsSchema withItem.db
      (withItem.flushBatch itemsSchema accepting [putItem 4 20]).db := by
  refine ⟨by decide, by decide, ?_⟩
  rintro ⟨t, ht, r, hr, hn, _⟩
  cases ht
  revert hn
  have hrow : (withItem.flushBatch itemsSchema accepting [putItem 4 20]).db.row ⟨0, 1⟩ =
      some ⟨3, 9, none, [.scalar (.integer 10)], 5, 5⟩ := by decide
  change (withItem.flushBatch itemsSchema accepting [putItem 4 20]).db.row ⟨0, 1⟩ = some r at hr
  rw [hrow, Option.some.injEq] at hr
  subst hr
  decide

theorem acknowledged_effect_withItem :
    ∃ c c', runOps itemsSchema accepting false 0 [] withItem.begin = .ok () c ∧
      runOps itemsSchema accepting false 0 [putItem 3 20] c = .ok () c' ∧
      (putItem 3 20).Effected itemsSchema c.db c'.db := by
  obtain ⟨c, c', _, hpre, hop, _, _, heffect⟩ :=
    (acknowledged_effect_iff itemsSchema accepting withItem [] [] (putItem 3 20)).1 (by decide)
  refine ⟨c, c', hpre, hop, heffect.mpr ?_⟩
  rintro ⟨t, r, ht, _, _, hr, hn⟩
  cases hpre
  cases ht
  cases hr
  exact hn rfl

end AcknowledgedExample
end ZyncBase
