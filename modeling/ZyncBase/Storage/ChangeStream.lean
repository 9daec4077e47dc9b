import ZyncBase.Storage.PendingChanges

/-! The change stream: replaying everything that the worker has pushed onto the contents at startup
gives the committed contents, as long as no session resolution inserts a users row. -/
namespace ZyncBase

open AssocMap Journal Outcome WriteWorker

/-- Set or remove the document of each change in turn. -/
def applyChanges (contents : Slot → Option Record) (changes : List OwnedRecordChange) : Slot → Option Record :=
  changes.foldl (fun σ c => Function.update σ c.slot c.newRecord) contents

lemma applyChanges_append (contents : Slot → Option Record) (as bs : List OwnedRecordChange) :
    applyChanges contents (as ++ bs) = applyChanges (applyChanges contents as) bs := List.foldl_append

lemma applyChanges_eq_replay (contents : Slot → Option Record) (changes : List OwnedRecordChange) :
    applyChanges contents changes = replay contents (changes.map OwnedRecordChange.entry) := by
  rw [applyChanges, replay, List.foldl_map]
  rfl

section Transaction

variable {s : Schema} {sqlite : Sqlite} {failFast : Bool} {opIdx : ℕ} {ops : List RowOp}
  {ctx ctx' : BatchCtx} {op : RowOp} {k : Slot} {w : WriteWorker}

lemma BatchCtx.PkExact.not_overlooks (h : ctx.PkExact) : ¬ op.Overlooks s sqlite ctx k := by
  rintro ⟨⟨t, guard, p, _, _, hp, hsome, hk⟩, hne, hunknown⟩
  obtain ⟨hdelete, _⟩ := hk.resolve_left fun he => hne (by rw [he])
  refine hunknown ?_
  rw [h]
  cases hp with
  | upsert op createdAt => cases hdelete
  | update op => cases hdelete
  | delete op =>
    cases hr : ctx.db.row ⟨op.tableIndex, op.id⟩ with
    | none => simp [Database.delete, hr] at hsome
    | some r =>
      change (ctx.db.row ⟨op.tableIndex, op.id⟩).isSome
      rw [hr]
      rfl

lemma BatchCtx.PkExact.executedOps (h : ctx.PkExact) :
    ∀ x ∈ executedOps s sqlite failFast opIdx ops ctx, x.1.PkExact := by
  induction ops generalizing opIdx ctx with
  | nil => simp [ZyncBase.executedOps]
  | cons op ops ih =>
    rw [ZyncBase.executedOps, List.forall_mem_cons]
    refine ⟨h, ?_⟩
    cases hop : runOps s sqlite failFast opIdx [op] ctx with
    | error e c => simp
    | ok u c =>
      obtain ⟨b, c₁, hexec, hguard⟩ := runOps_one hop
      have hc := h.executeEntry hexec
      refine ih ?_
      obtain rfl | rfl := guardOutcome_eq_ok hguard
      · exact hc
      · exact hc

lemma not_overlookedIn {xs : List (BatchCtx × RowOp)} (h : ∀ x ∈ xs, x.1.PkExact) (k : Slot) :
    ¬ OverlookedIn s sqlite k xs := by
  rintro (hearly | hlate)
  · obtain ⟨x, hx, ho⟩ := exists_of_early hearly
    exact (h x hx).not_overlooks ho
  · obtain ⟨x, hx, ho⟩ := exists_of_late hlate
    exact (h x hx).not_overlooks ho

lemma applyChanges_pushed {queue : List OwnedRecordChange} (hexact : w.PkExact)
    (hqueue : w.changeQueue = some queue) (hread : ∀ db key, sqlite.error db (.select key) = none)
    (h : w.tryTransaction s sqlite failFast ops = .ok () ctx) :
    applyChanges w.db.contents ctx.pushed = ctx.db.contents := by
  obtain ⟨ms, hms⟩ := tryTransaction_journaled hqueue hread h
  have hpushed := (hms.exact_iff rfl).mpr (not_overlookedIn hexact.begin.executedOps)
  have hclassified := hms.classified (by simp [begin])
  rw [pushedExactly_iff fun c hc => hclassified c (List.mem_filter.mp hc).1] at hpushed
  rw [applyChanges_eq_replay]
  refine hpushed.replay fun k hk => ?_
  rw [affectedIn_iff hms.moves] at hk
  exact hms.run.eq_of_not_touched hk

end Transaction

def WorkerStep.ReadsSucceed : WorkerStep → Prop
  | .flush sqlite _ => ∀ db key, sqlite.error db (.select key) = none
  | .batch sqlite _ => ∀ db key, sqlite.error db (.select key) = none
  | .resolveSession _ _ _ => True

namespace WriteWorker

variable {s : Schema} {sqlite : Sqlite} {w : WriteWorker} {contents : Slot → Option Record}

/-- The queue replays the contents at the start into what is committed. -/
def Streams (contents : Slot → Option Record) (w : WriteWorker) : Prop :=
  ∃ queue, w.changeQueue = some queue ∧ applyChanges contents queue = w.db.contents

lemma Streams.runTransaction {failFast : Bool} {ops : List RowOp} (h : w.Streams contents)
    (hexact : w.PkExact) (hread : ∀ db key, sqlite.error db (.select key) = none) :
    (w.runTransaction s sqlite failFast ops).Streams contents := by
  obtain ⟨queue, hqueue, hstream⟩ := h
  cases ht : w.tryTransaction s sqlite failFast ops with
  | error e ctx =>
    obtain ⟨hsame, hdb⟩ := changeQueue_rolledBack ht
    exact ⟨queue, by rw [hsame, hqueue], by rw [hstream, hdb]⟩
  | ok u ctx =>
    obtain ⟨hpushed, hdb⟩ := changeQueue_committed hqueue ht
    refine ⟨queue ++ ctx.pushed, hpushed, ?_⟩
    rw [applyChanges_append, hstream, hdb]
    exact applyChanges_pushed hexact hqueue hread ht

lemma Streams.resolveSession {sop : ResolveSessionOp} {newUserId : DocId} (h : w.Streams contents)
    (hn : ¬ (WorkerStep.resolveSession sqlite newUserId sop).InsertsUser s w) :
    (w.executeResolveSessionOp s sqlite sop newUserId).Streams contents := by
  obtain ⟨queue, hqueue, hstream⟩ := h
  refine ⟨queue, ?_, ?_⟩
  · rw [(executeResolveSessionOp_cases s sqlite sop newUserId w).1.changeQueue, hqueue]
  · rw [hstream, db_resolveSession hn]

lemma Streams.step {st : WorkerStep} (h : w.Streams contents) (hexact : w.PkExact)
    (hn : ¬ st.InsertsUser s w) (hread : st.ReadsSucceed) : (w.step s st).Streams contents := by
  cases st with
  | flush sqlite ops => exact h.runTransaction hexact hread
  | batch sqlite entries => exact h.runTransaction hexact hread
  | resolveSession sqlite newUserId sop => exact h.resolveSession hn

end WriteWorker

/-- In every run from startup in which no session resolution inserts a users row, and reads inside
transactions succeed, the changes pushed so far replay the contents at startup into exactly what is
committed. -/
theorem changeStream_complete {s : Schema} {db : Database} {namespaces : List (Bytes × ℤ)} {w₀ w : WriteWorker}
    (hboot : bootstrapRuntimeTableState s (some []) db namespaces = .ok w₀)
    (hrun : Reaches s (fun w st => ¬ st.InsertsUser s w ∧ st.ReadsSucceed) w₀ w) :
    ∃ queue, w.changeQueue = some queue ∧ applyChanges db.contents queue = w.db.contents := by
  have hstart : w₀.PkExact ∧ w₀.Streams db.contents := by
    refine ⟨pkExact_of_bootstrap hboot, [], ?_⟩
    unfold bootstrapRuntimeTableState at hboot
    split_ifs at hboot
    cases hboot
    exact ⟨rfl, rfl⟩
  have hrunning := hrun.invariant (I := fun w => w.PkExact ∧ w.Streams db.contents) hstart
    fun w st hw hcond => ⟨hw.1.step hcond.1, hw.2.step hw.1 hcond.1 hcond.2⟩
  exact hrunning.2

namespace ChangeStreamExample

open PkSetsExample PendingChangesExample

lemma bootstrap_watched :
    bootstrapRuntimeTableState usersSchema (some []) {} [([36], 0)] = .ok watched := rfl

/-- The users row that a session resolution inserts is not announced. -/
theorem resolved_user_not_announced :
    bootstrapRuntimeTableState usersSchema (some []) {} [([36], 0)] = .ok watched ∧
      (watched.step usersSchema signIn).changeQueue = some [] ∧
      applyChanges ({} : Database).contents [] (0, ⟨0, 7⟩) ≠
        (watched.step usersSchema signIn).db.contents (0, ⟨0, 7⟩) :=
  ⟨rfl, rfl, by decide⟩

theorem changeStream_complete_settle :
    ∃ queue, (settle watched).changeQueue = some queue ∧
      applyChanges ({} : Database).contents queue = (settle watched).db.contents :=
  changeStream_complete bootstrap_watched (((Relation.ReflTransGen.single
    ⟨createUsers, ⟨nofun, fun _ _ => rfl⟩, rfl⟩).tail
    ⟨signBackIn, ⟨signBackIn_inserts_none (by decide), trivial⟩, rfl⟩).tail
    ⟨removeUser, ⟨nofun, fun _ _ => rfl⟩, rfl⟩)

end ChangeStreamExample
end ZyncBase
