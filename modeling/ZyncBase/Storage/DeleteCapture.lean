import ZyncBase.Storage.PkSets

/-! The capture made before a delete beside what SQLite's foreign keys do: the rows captured are the
rows deleted and nullified, provided that the transaction knows the row or no row refers to it. -/
namespace ZyncBase

open Outcome Worklist List Database

section Termination

variable {s : Schema} {db : Database} {root : RowKey}

lemma scanLookupRows_cascade (c : Capture) (parent : RowKey) :
    (scanLookupRows s db root c parent).cascade = c.cascade.enqueueAll (db.cascadeChildren s parent) := by
  rw [scanLookupRows_eq, foldl_collectLookupRow, foldl_enqueueCascade]

lemma captureLoop_cascade (fuel : ℕ) (c : Capture) :
    (captureLoop s db root fuel c).cascade = c.cascade.run (db.cascadeChildren s) fuel := by
  induction fuel generalizing c with
  | zero => rfl
  | succ fuel ih =>
    unfold captureLoop Search.run
    cases hp : c.cascade.pending with
    | nil => rfl
    | cons parent rest =>
      dsimp only
      rw [ih, scanLookupRows_cascade]

lemma captureLoop_pending (s : Schema) (db : Database) (root : RowKey) :
    (captureLoop s db root (db.keysWith root).length ⟨[], Search.start root⟩).cascade.pending = [] := by
  have hstart : Search.Inv (db.cascadeChildren s) (db.keysWith root) root [] (Search.start root) :=
    Search.Inv.start mem_cons_self
  rw [captureLoop_cascade]
  exact (hstart.run cascadeChildren_within _ (by simp [Search.start])).2

end Termination

namespace Database

def RowDeleted (db db' : Database) (key : RowKey) : Prop :=
  (db.row key).isSome ∧ db'.row key = none

instance (db db' : Database) (key : RowKey) : Decidable (RowDeleted db db' key) :=
  inferInstanceAs (Decidable (_ ∧ _))

/-- The row of this key stayed, and one of its references became null. -/
def RowNullified (db db' : Database) (key : RowKey) : Prop :=
  ∃ r r', db.row key = some r ∧ db'.row key = some r' ∧
    ∃ (i : ℕ) (id : DocId), r.fields[i]? = some (.scalar (.docId id)) ∧ r'.fields[i]? = some .nil

variable {s : Schema} {db : Database} {root key : RowKey} {r : Row}

lemma rowNullified_iff : RowNullified db (db.deleteCascading s root) key ↔
    ¬ db.CascadesTo s root key ∧ ∃ r, db.row key = some r ∧ NullifiedBy s db root key r := by
  unfold RowNullified
  rw [row_deleteCascading]
  constructor
  · rintro ⟨r, r', hr, hr', i, id, hold, hnew⟩
    split_ifs at hr' with hc
    rw [hr, Option.map_some, Option.some.injEq] at hr'
    subst hr'
    rw [nullify_field, hold, Option.map_some, Option.some.injEq] at hnew
    split_ifs at hnew with hn
    obtain ⟨fk, hfk, ho, ht, hi, id', hv, hp⟩ := nulled_iff.mp hn
    refine ⟨hc, r, hr, fk, hfk, ho, ⟨fk.parentTableIndex, id'⟩, hp, ?_⟩
    rw [hv] at hold
    simp [ForeignKey.refersTo, ht, hi, hold]
  · rintro ⟨hc, r, hr, fk, hfk, ho, parent, hp, href⟩
    simp only [ForeignKey.refersTo, Bool.and_eq_true, decide_eq_true_eq] at href
    obtain ⟨⟨hparent, hchild⟩, hfield⟩ := href
    refine ⟨r, _, hr, by rw [if_neg hc, hr, Option.map_some], fk.fieldIndex, parent.id, hfield, ?_⟩
    rw [nullify_field, hfield, Option.map_some, if_pos]
    exact nulled_iff.mpr ⟨fk, hfk, ho, hchild.symm, rfl, parent.id, rfl, hparent ▸ hp⟩

lemma rowDeleted_iff : RowDeleted db (db.deleteCascading s root) key ↔
    (db.row key).isSome ∧ db.CascadesTo s root key := by
  unfold RowDeleted
  rw [row_deleteCascading]
  refine and_congr_right fun hrow => ?_
  obtain ⟨r, hr⟩ := Option.isSome_iff_exists.mp hrow
  split_ifs with hc <;> simp [hc, hr]

end Database

section Exact

variable {s : Schema} {db : Database} {root key : RowKey}

lemma captured_delete_iff : (∃ c ∈ captureReferentialChanges s db root,
    c.key = key ∧ c.action = .delete) ↔
      key ≠ root ∧ RowDeleted db (db.deleteCascading s root) key := by
  rw [rowDeleted_iff]
  constructor
  · rintro ⟨c, hc, rfl, hd⟩
    obtain ⟨hne, r, hr, _⟩ := capture_met hc
    exact ⟨hne, by rw [hr]; rfl, (capture_delete_iff hc).mp hd⟩
  · rintro ⟨hne, _, hcascade⟩
    obtain ⟨c, hc, rfl⟩ := mem_map.mp (captured_of_cascadesTo hcascade hne)
    exact ⟨c, hc, rfl, (capture_delete_iff hc).mpr hcascade⟩

lemma captured_setNull_iff : (∃ c ∈ captureReferentialChanges s db root,
    c.key = key ∧ c.action = .setNull) ↔ RowNullified db (db.deleteCascading s root) key := by
  rw [rowNullified_iff]
  constructor
  · rintro ⟨c, hc, rfl, hs⟩
    have hd : c.action ≠ .delete := by
      rw [hs]
      decide
    obtain ⟨_, r, hr, _⟩ := capture_met hc
    exact ⟨fun hcascade => hd ((capture_delete_iff hc).mpr hcascade), r, hr, nullifiedBy_of_captured hc hd hr⟩
  · rintro ⟨hkept, r, hr, hnull⟩
    have hne : key ≠ root := by
      rintro rfl
      exact hkept Relation.ReflTransGen.refl
    obtain ⟨c, hc, rfl⟩ := mem_map.mp (captured_of_nullified hr hnull hne)
    refine ⟨c, hc, rfl, ?_⟩
    cases ha : c.action with
    | delete => exact absurd ((capture_delete_iff hc).mp ha) hkept
    | setNull => rfl

end Exact

variable {c : ReferentialChange}

section ReadBack

variable {s : Schema} {sqlite : Sqlite} {ctx : BatchCtx} {db : Database} {root : RowKey}

lemma table_of_foreignKey {fk : ForeignKey} (h : fk ∈ s.foreignKeys) :
    ∃ t, s.tableByIndex fk.childTableIndex = some t := by
  obtain ⟨t, ht, hfk⟩ := mem_flatMap.mp h
  obtain ⟨⟨f, i⟩, _, hf⟩ := mem_filterMap.mp hfk
  obtain ⟨name, _, hname⟩ := Option.bind_eq_some_iff.mp hf
  obtain ⟨parent, _, hparent⟩ := Option.bind_eq_some_iff.mp hname
  cases hparent
  obtain ⟨j, hj⟩ := getElem?_of_mem ht
  refine ⟨t, ?_⟩
  change s.tables[t.index]? = some t
  rw [s.indexed j t hj, hj]

lemma table_of_captured (h : c ∈ captureReferentialChanges s db root) :
    ∃ t, s.tableByIndex c.key.tableIndex = some t := by
  obtain ⟨_, v, hv, hk, _⟩ := (recorded_capture s db root).met c h
  obtain ⟨parent, _, hvp⟩ := (mem_captured_visits s db root v).mp hv
  obtain ⟨fk, hfk, _, _, href⟩ := mem_visits.mp hvp
  simp only [ForeignKey.refersTo, Bool.and_eq_true, decide_eq_true_eq] at href
  rw [← hk, href.1.2]
  exact table_of_foreignKey hfk

lemma captured_reconciles (h : c ∈ captureReferentialChanges s db root) :
    decide (c.action = .delete) ≠ ((db.deleteCascading s root).select c.key c.namespaceId).isSome := by
  obtain ⟨_, r, hr, hn, _⟩ := capture_met h
  unfold select
  rw [row_deleteCascading, hr, hn]
  by_cases hd : c.action = .delete
  · rw [if_pos ((capture_delete_iff h).mp hd)]
    simp [hd]
  · rw [if_neg (mt (capture_delete_iff h).mpr hd)]
    simp [hd]

lemma applyReferentialChange_ok {t : Table} (ht : s.tableByIndex c.key.tableIndex = some t)
    (hread : sqlite.error ctx.db (.select c.key) = none)
    (hc : decide (c.action = .delete) ≠ (ctx.db.select c.key c.namespaceId).isSome) :
    ∃ ctx', applyReferentialChange s sqlite c ctx = .ok () ctx' := by
  have hwrite : ∃ b ctx', applyWriteResult t false ⟨⟨t.index, c.key.id⟩, c.namespaceId, false,
      c.action = .delete, some c.oldRecord, ctx.db.select c.key c.namespaceId⟩ ctx = .ok b ctx' := by
    unfold applyWriteResult
    split_ifs
    · exact ⟨_, _, rfl⟩
    · exact ⟨_, _, rfl⟩
  obtain ⟨b, ctx', hw⟩ := hwrite
  refine ⟨ctx', ?_⟩
  refine run_bind_eq_ok.mpr ⟨t, ctx, requireTable_eq_ok.mpr ⟨ht, rfl⟩, ?_⟩
  refine run_bind_eq_ok.mpr ⟨ctx.db.select c.key c.namespaceId, ctx, ?_, ?_⟩
  · unfold getDocumentHelper
    simp only [ht, hread]
  · rw [if_neg hc]
    exact run_bind_eq_ok.mpr ⟨b, ctx', hw, rfl⟩

lemma applyReferentialChanges_ok {changes : List ReferentialChange}
    (hread : ∀ key, sqlite.error ctx.db (.select key) = none)
    (hchanges : ∀ c ∈ changes, (∃ t, s.tableByIndex c.key.tableIndex = some t) ∧
      decide (c.action = .delete) ≠ (ctx.db.select c.key c.namespaceId).isSome) :
    ∃ ctx', applyReferentialChanges s sqlite changes ctx = .ok () ctx' := by
  induction changes generalizing ctx with
  | nil => exact ⟨ctx, rfl⟩
  | cons c cs ih =>
    rw [forall_mem_cons] at hchanges
    obtain ⟨⟨t, ht⟩, hc⟩ := hchanges.1
    obtain ⟨ctx₁, hfirst⟩ := applyReferentialChange_ok ht (hread c.key) hc
    have hdb := (applyReferentialChange_eq_ok hfirst).1
    obtain ⟨ctx', hrest⟩ := ih (by rwa [hdb]) (by rw [hdb]; exact hchanges.2)
    exact ⟨ctx', run_bind_eq_ok.mpr ⟨(), ctx₁, hfirst, hrest⟩⟩

end ReadBack

/-- An effect with the records of its row before and after, as the bookkeeping needs them. -/
structure RowEffect.TrueTo (db db' : Database) (e : RowEffect) : Prop where
  old : e.oldRecord = db.recordAt e.key
  new : e.newRecord = db'.recordAt e.key
  pkInsert : e.pkInsert = false
  pkDelete : e.pkDelete = (db'.row e.key).isNone
  nspace : ∃ r, db.row e.key = some r ∧ r.namespaceId = e.namespaceId

/-- The changes captured before a delete are what it did beside the root: the rows deleted, the
surviving rows with a reference set to null, each once and as it was before; and the effects of the
delete were tracked for the root and exactly these rows. -/
structure CapturesDelete (s : Schema) (root : RowKey) (ctx ctx' : BatchCtx)
    (changes : List ReferentialChange) : Prop where
  once : (changes.map ReferentialChange.key).Nodup
  cascaded : ∀ key, (∃ c ∈ changes, c.key = key ∧ c.action = .delete) ↔
    key ≠ root ∧ ctx.db.RowDeleted ctx'.db key
  nullified : ∀ key, (∃ c ∈ changes, c.key = key ∧ c.action = .setNull) ↔ ctx.db.RowNullified ctx'.db key
  records : ∀ c ∈ changes, some c.oldRecord = ctx.db.recordAt c.key
  applied : ∃ es, Tracked s ctx ctx' es ∧ es.map RowEffect.key = root :: changes.map ReferentialChange.key ∧
      ∀ e ∈ es, e.TrueTo ctx.db ctx'.db

section Delete

variable {s : Schema} {sqlite : Sqlite} {ctx ctx' : BatchCtx} {op : DeleteOp} {t : Table}
  {db : Database} {root : RowKey}

lemma trueTo_captured (hc : c ∈ captureReferentialChanges s db root) :
    (c.effect (db.deleteCascading s root)).TrueTo db (db.deleteCascading s root) := by
  obtain ⟨_, r, hr, hn, _⟩ := capture_met hc
  have hrow := row_deleteCascading s db root c.key
  have hold := oldRecord_captured hc
  by_cases hd : c.action = .delete
  · rw [if_pos ((capture_delete_iff hc).mp hd)] at hrow
    refine ⟨hold, ?_, rfl, ?_, r, hr, hn.symm⟩
    · simp [ReferentialChange.effect, select, recordAt, hrow]
    · simp [ReferentialChange.effect, hd, hrow]
  · rw [if_neg (mt (capture_delete_iff hc).mpr hd), hr, Option.map_some] at hrow
    refine ⟨hold, ?_, rfl, ?_, r, hr, hn.symm⟩
    · simp [ReferentialChange.effect, select, recordAt, hrow, hn]
    · simp [ReferentialChange.effect, hd, hrow]

lemma capturesDelete_of_applied {r : Row} (hr : ctx.db.row root = some r)
    (ht : s.tableByIndex root.tableIndex = some t)
    (happly : applyReferentialChanges s sqlite (captureReferentialChanges s ctx.db root)
      (BatchCtx.track t ⟨root, r.namespaceId, false, true, some (r.record root.id), none⟩
        { ctx with db := ctx.db.deleteCascading s root }) = .ok () ctx') :
    CapturesDelete s root ctx ctx' (captureReferentialChanges s ctx.db root) := by
  obtain ⟨hdb, htrack, _⟩ := applyReferentialChanges_eq_ok happly
  simp only [track_db] at hdb htrack
  have hroot := row_deleteCascading_self s ctx.db root
  refine ⟨capture_nodup s ctx.db root, ?_, ?_, fun c hc => oldRecord_captured hc, _,
    (Tracked.after t _ ht ctx.lastCreatedAt).trans htrack, ?_, ?_⟩
  · intro key
    rw [hdb]
    exact captured_delete_iff
  · intro key
    rw [hdb]
    exact captured_setNull_iff
  · rw [singleton_append, map_cons, map_map]
    rfl
  · rw [singleton_append, forall_mem_cons, forall_mem_map, hdb]
    refine ⟨⟨?_, ?_, rfl, ?_, r, hr, rfl⟩, fun c hc => trueTo_captured hc⟩
    · simp [recordAt, hr]
    · simp [recordAt, hroot]
    · simp [hroot]

abbrev DeleteOp.storedNamespace (op : DeleteOp) (t : Table) : ℤ :=
  (RowOp.delete op).storedNamespace t

lemma executeEntry_delete (ht : s.tableByIndex op.tableIndex = some t) :
    executeEntry s sqlite (.delete op) ctx = executeDeleteEntry s sqlite op (op.storedNamespace t) t ctx := by
  have htarget : resolveEntryTarget s op.tableIndex op.namespaceId ctx = .ok (t, op.storedNamespace t) ctx :=
    run_bind_eq_ok.mpr ⟨t, ctx, requireTable_eq_ok.mpr ⟨ht, rfl⟩, rfl⟩
  rw [executeEntry, run_bind_of_ok htarget]

lemma tracedReferences_run (s : Schema) (ctx : BatchCtx) (t : Table) (key : RowKey) :
    ∃ changes, tracedReferences s t key ctx = .ok changes ctx := by
  unfold tracedReferences
  split_ifs
  · exact ⟨_, rfl⟩
  · exact ⟨_, rfl⟩

/-- A `DELETE` that is rejected leaves nothing behind: none of the captured changes is applied. -/
lemma executeEntry_delete_rejected (ht : s.tableByIndex op.tableIndex = some t) {e : StorageError}
    (he : sqlite.error ctx.db (.delete ⟨op.tableIndex, op.id⟩ (op.storedNamespace t)) = some e) :
    ∃ e', executeEntry s sqlite (.delete op) ctx = .error e' ctx := by
  obtain ⟨changes, htrace⟩ := tracedReferences_run s ctx t ⟨op.tableIndex, op.id⟩
  rw [executeEntry_delete ht, executeDeleteEntry, run_bind_of_ok htrace]
  unfold executeDelete
  cases hg : renderAndClause t op.guardPredicate with
  | error e' =>
    refine ⟨e', run_bind_of_error (run_bind_of_error ?_)⟩
    rfl
  | ok guard =>
    refine ⟨e, run_bind_of_error ?_⟩
    rw [run_bind_of_ok (liftExcept_eq_ok.mpr ⟨rfl, rfl⟩), performStatement, he]

/-- A `DELETE` that meets its row and is accepted is followed by all captured changes: reading them
back never fails to reconcile. -/
lemma executeEntry_delete_accepted (ht : s.tableByIndex op.tableIndex = some t)
    {guard : Option SqlWhere} {r : Row} (hguard : renderAndClause t op.guardPredicate = .ok guard)
    (hr : ctx.db.row ⟨op.tableIndex, op.id⟩ = some r) (hn : r.namespaceId = op.storedNamespace t)
    (hsel : guardSelects sqlite.enc t guard (r.record op.id))
    (he : sqlite.error ctx.db (.delete ⟨op.tableIndex, op.id⟩ (op.storedNamespace t)) = none)
    (hread : ∀ key, sqlite.error (ctx.db.deleteCascading s ⟨op.tableIndex, op.id⟩)
      (.select key) = none) :
    ∃ ctx', executeEntry s sqlite (.delete op) ctx = .ok true ctx' ∧
      ctx.db.RowDeleted ctx'.db ⟨op.tableIndex, op.id⟩ := by
  obtain ⟨changes, htrace⟩ := tracedReferences_run s ctx t ⟨op.tableIndex, op.id⟩
  have hchanges := (tracedReferences_eq_ok htrace).2
  rw [index_of_tableByIndex ht] at hchanges
  have hdelete : executeDelete s sqlite op (op.storedNamespace t) t ctx = .ok (some (r.record op.id))
        { ctx with db := ctx.db.deleteCascading s ⟨op.tableIndex, op.id⟩ } := by
    unfold executeDelete
    rw [hguard, run_bind_of_ok (liftExcept_eq_ok.mpr ⟨rfl, rfl⟩), performStatement, he]
    simp [delete, hr, hn, hsel]
  have hreconciles : ∀ c ∈ changes, (∃ t, s.tableByIndex c.key.tableIndex = some t) ∧
      decide (c.action = .delete) ≠
        ((ctx.db.deleteCascading s ⟨op.tableIndex, op.id⟩).select c.key c.namespaceId).isSome := by
    intro c hc
    rcases hchanges with ⟨rfl, _⟩ | ⟨rfl, _⟩
    · exact ⟨table_of_captured hc, captured_reconciles hc⟩
    · cases hc
  have happly : ∃ ctx', applyReferentialChanges s sqlite changes
      (BatchCtx.track t ⟨⟨op.tableIndex, op.id⟩, op.storedNamespace t, false, true, some (r.record op.id), none⟩
          { ctx with db := ctx.db.deleteCascading s ⟨op.tableIndex, op.id⟩ }) = .ok () ctx' :=
    applyReferentialChanges_ok (by simpa using hread) (by simpa using hreconciles)
  obtain ⟨ctx', happly⟩ := happly
  refine ⟨ctx', ?_, by rw [hr]; rfl, ?_⟩
  · rw [executeEntry_delete ht, executeDeleteEntry, run_bind_of_ok htrace, run_bind_of_ok hdelete,
      if_neg (by simp), index_of_tableByIndex ht]
    refine run_bind_eq_ok.mpr ⟨true, _, rfl, run_bind_eq_ok.mpr ⟨(), ctx', happly, rfl⟩⟩
  · rw [applyReferentialChanges_db happly, track_db]
    exact row_deleteCascading_self s ctx.db _

/-- What a delete that removed its row captured is what it did exactly when the transaction knew the
row or no other row referred to it. -/
lemma capturesDelete_iff (ht : s.tableByIndex op.tableIndex = some t) {b : Bool}
    (hexec : executeEntry s sqlite (.delete op) ctx = .ok b ctx')
    (hdeleted : ctx.db.RowDeleted ctx'.db ⟨op.tableIndex, op.id⟩) {changes : List ReferentialChange}
    (htrace : tracedReferences s t ⟨op.tableIndex, op.id⟩ ctx = .ok changes ctx) :
    CapturesDelete s ⟨op.tableIndex, op.id⟩ ctx ctx' changes ↔
      ctx.containsEffectivePk ⟨op.tableIndex, op.id⟩ ∨ ¬ ctx.db.Referenced s ⟨op.tableIndex, op.id⟩ := by
  rw [executeEntry_delete ht] at hexec
  obtain ⟨changes', guard, p, htrace', _, hp, hcase⟩ := executeDeleteEntry_eq_ok ht hexec
  rw [htrace] at htrace'
  cases htrace'
  have hres : DeleteResult s ctx.db ⟨op.tableIndex, op.id⟩ (op.storedNamespace t) p :=
    hp ▸ delete_result
  cases hcase with
  | inl hnone =>
    obtain ⟨_, _, rfl⟩ := hnone
    rw [RowDeleted] at hdeleted
    exact absurd hdeleted.1 (by simp [hdeleted.2])
  | inr hsome =>
    obtain ⟨hs, _, happly⟩ := hsome
    cases hres with
    | unaffected => simp at hs
    | deleted r hr hn =>
      obtain ⟨_, hchanges⟩ := tracedReferences_eq_ok htrace
      rw [index_of_tableByIndex ht] at hchanges
      rw [← hn] at happly
      rcases hchanges with ⟨rfl, hknown⟩ | ⟨rfl, hno⟩
      · exact iff_of_true (capturesDelete_of_applied hr ht happly) (.inl hknown)
      · constructor
        · -- nothing was captured, so a row that refers to the root would be missing
          intro hcaptures
          refine .inr fun href => ?_
          have hdb : ctx'.db = ctx.db.deleteCascading s ⟨op.tableIndex, op.id⟩ := by
            rw [applyReferentialChanges_db happly, track_db]
          obtain ⟨c, hc⟩ := exists_mem_of_ne_nil _ (mt capture_eq_nil_iff.mp (not_not.mpr href))
          cases ha : c.action with
          | delete =>
            have hgone := captured_delete_iff.mp ⟨c, hc, rfl, ha⟩
            rw [← hdb] at hgone
            simpa using (hcaptures.cascaded c.key).mpr hgone
          | setNull =>
            have hnull := captured_setNull_iff.mp ⟨c, hc, rfl, ha⟩
            rw [← hdb] at hnull
            simpa using (hcaptures.nullified c.key).mpr hnull
        · intro hcond
          have hnil : captureReferentialChanges s ctx.db ⟨op.tableIndex, op.id⟩ = [] := by
            cases hcond with
            | inl hknown =>
              have hincoming : s.hasIncomingCascadeOrSetNull op.tableIndex = false := by
                rw [← Bool.not_eq_true]
                exact fun h => hno ⟨h, hknown⟩
              exact capture_eq_nil_iff.mpr (not_referenced_of_no_incoming hincoming)
            | inr href => exact capture_eq_nil_iff.mpr href
          have hcaptures : CapturesDelete s ⟨op.tableIndex, op.id⟩ ctx ctx'
              (captureReferentialChanges s ctx.db ⟨op.tableIndex, op.id⟩) :=
            capturesDelete_of_applied hr ht (hnil ▸ happly)
          rwa [hnil] at hcaptures

end Delete

/-- The capture for a delete ends; nothing of it is applied when SQLite rejects the `DELETE`; when
the `DELETE` meets its row and is accepted all of it is applied; and then it is what the delete did
beside its row exactly when the transaction knew the row or no other row referred to it. -/
theorem deleteCapture_exact_iff (s : Schema) (sqlite : Sqlite) (ctx : BatchCtx) (op : DeleteOp)
    {t : Table} (ht : s.tableByIndex op.tableIndex = some t) :
    (captureLoop s ctx.db ⟨op.tableIndex, op.id⟩ (ctx.db.keysWith ⟨op.tableIndex, op.id⟩).length
        ⟨[], Search.start ⟨op.tableIndex, op.id⟩⟩).cascade.pending = [] ∧
    (∀ e, sqlite.error ctx.db (.delete ⟨op.tableIndex, op.id⟩ (op.storedNamespace t)) = some e →
      ∃ e', executeEntry s sqlite (.delete op) ctx = .error e' ctx) ∧
    (∀ guard r, renderAndClause t op.guardPredicate = .ok guard →
      ctx.db.row ⟨op.tableIndex, op.id⟩ = some r → r.namespaceId = op.storedNamespace t →
      guardSelects sqlite.enc t guard (r.record op.id) →
      sqlite.error ctx.db (.delete ⟨op.tableIndex, op.id⟩ (op.storedNamespace t)) = none →
      (∀ key, sqlite.error (ctx.db.deleteCascading s ⟨op.tableIndex, op.id⟩) (.select key) = none) →
      ∃ ctx', executeEntry s sqlite (.delete op) ctx = .ok true ctx' ∧
        ctx.db.RowDeleted ctx'.db ⟨op.tableIndex, op.id⟩) ∧
    ∀ b ctx', executeEntry s sqlite (.delete op) ctx = .ok b ctx' →
      ctx.db.RowDeleted ctx'.db ⟨op.tableIndex, op.id⟩ →
      ((∃ changes, tracedReferences s t ⟨op.tableIndex, op.id⟩ ctx = .ok changes ctx ∧
          CapturesDelete s ⟨op.tableIndex, op.id⟩ ctx ctx' changes) ↔
        ctx.containsEffectivePk ⟨op.tableIndex, op.id⟩ ∨ ¬ ctx.db.Referenced s ⟨op.tableIndex, op.id⟩) := by
  refine ⟨captureLoop_pending s ctx.db _, fun e he => executeEntry_delete_rejected ht he,
    fun guard r hguard hr hn hsel he hread =>
      executeEntry_delete_accepted ht hguard hr hn hsel he hread, ?_⟩
  intro b ctx' hexec hdeleted
  obtain ⟨changes, htrace⟩ := tracedReferences_run s ctx t ⟨op.tableIndex, op.id⟩
  rw [← capturesDelete_iff ht hexec hdeleted htrace]
  constructor
  · rintro ⟨changes', htrace', hcaptures⟩
    rw [htrace] at htrace'
    cases htrace'
    exact hcaptures
  · exact fun hcaptures => ⟨changes, htrace, hcaptures⟩

namespace DeleteCaptureExample

open PkSetsExample

/-- Notes with an author, who takes them along when deleted. -/
def notesTable : Table where
  name := "notes"
  index := 1
  userFields :=
    [{ name := "author", declaredType := .text, storageType := .docId, references := some "users",
       onDelete := some .cascade }]
  fields_wellFormed := by
    intro f hf
    rw [mem_singleton] at hf
    subst hf
    exact ⟨rfl, by decide, fun _ => rfl, by decide, fun _ => rfl, by decide, rfl⟩
  names_nodup := by decide

def notesSchema : Schema where
  tables := [usersTable, notesTable]
  indexed := by
    intro i t h
    match i, h with
    | 0, h => cases h; rfl
    | 1, h => cases h; rfl
    | i + 2, h => simp at h
  names_nodup := by decide
  references_resolve := by
    intro t ht f hf r hr
    simp only [mem_cons, not_mem_nil, or_false] at ht
    rcases ht with rfl | rfl
    · cases hf
    · simp only [notesTable, mem_singleton] at hf
      subst hf
      cases hr
      exact ⟨usersTable, by simp, rfl⟩

def writeNote : RowOp :=
  .upsert ⟨1, 1, 0, 7, [⟨3, .scalar (.docId 7), first_user_column⟩], none, 6, none⟩

def signedIn : WriteWorker :=
  (fresh.step notesSchema signIn).step notesSchema (.flush accepting [writeNote])

def deleteUser : DeleteOp := ⟨0, 7, 0, none, none⟩

/-- A delete of the signed-in user takes the note along, but captures nothing, and the note remains
known to the transaction. -/
theorem note_not_captured :
    ∃ ctx', executeEntry notesSchema accepting (.delete deleteUser) signedIn.begin = .ok true ctx' ∧
      tracedReferences notesSchema usersTable ⟨0, 7⟩ signedIn.begin = .ok [] signedIn.begin ∧
      signedIn.db.RowDeleted ctx'.db ⟨0, 7⟩ ∧ signedIn.db.RowDeleted ctx'.db ⟨1, 1⟩ ∧
      ctx'.containsEffectivePk ⟨1, 1⟩ ∧ ¬ CapturesDelete notesSchema ⟨0, 7⟩ signedIn.begin ctx' [] := by
  refine ⟨_, rfl, rfl, by decide, by decide, by decide, fun h => ?_⟩
  simpa using (h.cascaded ⟨1, 1⟩).mpr ⟨by decide, by decide⟩

/-- The user 7 is created by a client instead. -/
def created : WriteWorker :=
  fresh.step notesSchema (.flush accepting [.upsert ⟨0, 7, 0, 7, [], none, 5, none⟩, writeNote])

theorem deleteCapture_exact_created :
    ∃ ctx', executeEntry notesSchema accepting (.delete deleteUser) created.begin = .ok true ctx' ∧
      ∃ changes, tracedReferences notesSchema usersTable ⟨0, 7⟩ created.begin = .ok changes created.begin ∧
        CapturesDelete notesSchema ⟨0, 7⟩ created.begin ctx' changes := by
  refine ⟨_, rfl, ?_⟩
  have h := deleteCapture_exact_iff notesSchema accepting created.begin deleteUser
    (rfl : notesSchema.tableByIndex 0 = some usersTable)
  exact (h.2.2.2 true _ rfl (by decide)).mpr (Or.inl (by decide))

end DeleteCaptureExample
end ZyncBase
