import ZyncBase.Storage.CacheMutations
import ZyncBase.Storage.ChangeStream

/-! Atomic batches when any allocation may fail: a batch either leaves the database, the primary key
sets, the document cache and the change queue alone, or takes effect in all four. -/
namespace ZyncBase

open AssocMap Outcome WriteWorker

inductive BatchError where
  | storage (e : StorageError)
  | outOfMemory
  deriving DecidableEq, Repr

/-- What a `WriteError` carries: the error and the index of the entry that failed. -/
abbrev WriteError := BatchError × Option ℕ

/-- What fails in a batch beside the statements that SQLite refuses: `BEGIN`, and the allocations
in an entry, in the record of the entry that failed, in the clone of a record for the cache, before
the `COMMIT`, in the cache and in the pushes of changes. -/
structure BatchFaults where
  begin : Option StorageError := none
  entry : ℕ → Bool := fun _ => false
  record : Bool := false
  clone : ℕ → Bool := fun _ => false
  reserve : Bool := false
  cache : CacheFaults := {}
  push : OwnedRecordChange → Bool := fun _ => false

/-- The four stores that a batch writes. -/
structure Stores where
  db : Database
  pkSets : List RowKey
  documentCache : DocumentCache
  changeQueue : Option (List OwnedRecordChange)

section Run

variable (f : BatchFaults) (s : Schema) (sqlite : Sqlite)

/-- The error of the entry that failed. The index is lost when it cannot be recorded. -/
def entryError (opIdx : ℕ) (e : BatchError) : WriteError :=
  if f.record then (.outOfMemory, none) else (e, some opIdx)

/-- The entries in turn, up to the first that fails or is rejected. -/
def runEntries : ℕ → List RowOp → BatchCtx → Except WriteError BatchCtx
  | _, [], ctx => .ok ctx
  | opIdx, op :: ops, ctx =>
    if f.entry opIdx then .error (entryError f opIdx .outOfMemory)
    else match executeEntry s sqlite op ctx with
      | .error e _ => .error (entryError f opIdx (.storage e))
      | .ok false _ => .error (entryError f opIdx (.storage .permissionDenied))
      | .ok true ctx => runEntries (opIdx + 1) ops ctx

/-- A record that cannot be cloned for the cache is evicted instead. -/
def trackedCacheOps (clone : ℕ → Bool) : ℕ → List CacheOp → List CacheOp
  | _, [] => []
  | i, op :: ops => (if clone i then .evict op.key else op) :: trackedCacheOps clone (i + 1) ops

/-- The transaction up to its `COMMIT`. -/
def runBatch (entries : List RowOp) (w : WriteWorker) : Except WriteError BatchCtx :=
  match f.begin with
  | some e => .error (.storage e, none)
  | none =>
    match runEntries f s sqlite 0 entries w.begin with
    | .error e => .error e
    | .ok ctx =>
      if f.reserve then .error (.outOfMemory, none)
      else match sqlite.error ctx.db .commit with
        | some e => .error (.storage e, none)
        | none => .ok ctx

/-- What follows the `COMMIT`. A change that cannot be pushed is dropped. -/
def commitStores (ctx : BatchCtx) (cache : DocumentCache) (w : WriteWorker) : Stores where
  db := ctx.db
  pkSets := ctx.pkMutations.foldl applyPkMutation w.pkSets
  documentCache :=
    cache.applyDocumentCache f.cache (trackedCacheOps f.clone 0 ctx.pendingCacheOps)
  changeQueue := w.changeQueue.map (· ++ ctx.pushed.filter fun c => !f.push c)

def executeBatchOpWith (entries : List RowOp) (w : WriteWorker) (cache : DocumentCache) :
    Stores × Option WriteError :=
  match runBatch f s sqlite entries w with
  | .error e => (⟨w.db, w.pkSets, cache, w.changeQueue⟩, some e)
  | .ok ctx => (commitStores f ctx cache w, none)

end Run

section Spec

variable (f : BatchFaults) (s : Schema) (sqlite : Sqlite) (entries : List RowOp) (w : WriteWorker)
  (cache : DocumentCache)

/-- Every entry succeeded, and each store has the effects of all of them: the rows as the entries
left them, the mutations of the sets and of the cache, which may serve less than it could, and the
coalesced changes. So each store that followed the rows before still does. -/
structure CommittedTogether (ctx : BatchCtx) (stores : Stores) : Prop where
  executed : runOps s sqlite true 0 entries w.begin = .ok () ctx
  db : stores.db = ctx.db
  pkSets : stores.pkSets = ctx.pkMutations.foldl applyPkMutation w.pkSets
  served : ∀ key, stores.documentCache.get key = none ∨ stores.documentCache.get key =
    find eqKey key (ctx.pendingCacheOps.foldl applyMutation cache.visible)
  changeQueue : stores.changeQueue = w.changeQueue.map (· ++ ctx.pushed)
  known : w.PkExact → ∀ key, key ∈ stores.pkSets ↔ (stores.db.row key).isSome
  serves : w.PkExact → w.db.Placed s → cache.Serves w.db → stores.documentCache.Serves stores.db
  announced : w.PkExact → w.changeQueue.isSome → (∀ db key, sqlite.error db (.select key) = none) →
    applyChanges w.db.contents ctx.pushed = stores.db.contents

/-- A batch without an error is committed in all four stores, and one with an error in none. -/
def AllOrNothing : Prop :=
  match executeBatchOpWith f s sqlite entries w cache with
  | (stores, none) => ∃ ctx, CommittedTogether s sqlite entries w cache ctx stores
  | (stores, some _) => stores = ⟨w.db, w.pkSets, cache, w.changeQueue⟩

def FailsAt (opIdx : ℕ) : Prop :=
  f.begin = none ∧ ∃ op ctx, entries[opIdx]? = some op ∧
    runEntries f s sqlite 0 (entries.take opIdx) w.begin = .ok ctx ∧
    (f.entry opIdx ∨ ∀ ctx', executeEntry s sqlite op ctx ≠ .ok true ctx')

def ReportsFailure : Prop :=
  ∀ opIdx, FailsAt f s sqlite entries w opIdx ↔
    ∃ e, (executeBatchOpWith f s sqlite entries w cache).2 = some (e, some opIdx)

end Spec

section Entries

variable {f : BatchFaults} {s : Schema} {sqlite : Sqlite} {opIdx : ℕ} {ops : List RowOp}
  {ctx ctx' : BatchCtx} {e : WriteError}

lemma runOps_of_runEntries (h : runEntries f s sqlite opIdx ops ctx = .ok ctx') :
    runOps s sqlite true opIdx ops ctx = .ok () ctx' := by
  induction ops generalizing opIdx ctx with
  | nil =>
    cases h
    rfl
  | cons op ops ih =>
    rw [runEntries] at h
    split_ifs at h
    rw [runOps]
    cases he : executeEntry s sqlite op ctx with
    | error e c => simp [he] at h
    | ok b c =>
      cases b with
      | false => simp [he] at h
      | true =>
        rw [he] at h
        have hop : executeOp s sqlite true opIdx op ctx = .ok true c := by
          unfold executeOp
          rw [he]
        have hguard : guardOutcome true opIdx true c = .ok () c := rfl
        rw [run_bind_of_ok hop, run_bind_of_ok hguard]
        exact ih h

lemma runEntries_eq_error (h : runEntries f s sqlite opIdx ops ctx = .error e) :
    ∃ i op c, ops[i]? = some op ∧ runEntries f s sqlite opIdx (ops.take i) ctx = .ok c ∧
      (f.entry (opIdx + i) ∨ ∀ c', executeEntry s sqlite op c ≠ .ok true c') ∧
      ∃ b, e = entryError f (opIdx + i) b := by
  induction ops generalizing opIdx ctx with
  | nil => cases h
  | cons op ops ih =>
    rw [runEntries] at h
    by_cases hf : f.entry opIdx
    · rw [if_pos hf] at h
      cases h
      exact ⟨0, op, ctx, rfl, rfl, .inl hf, _, rfl⟩
    · rw [if_neg hf] at h
      cases he : executeEntry s sqlite op ctx with
      | error e c =>
        rw [he] at h
        cases h
        exact ⟨0, op, ctx, rfl, rfl, .inr (by simp [he]), _, rfl⟩
      | ok b c =>
        rw [he] at h
        cases b with
        | false =>
          cases h
          exact ⟨0, op, ctx, rfl, rfl, .inr (by simp [he]), _, rfl⟩
        | true =>
          obtain ⟨i, op', c', hop, hrun, hfails, hb⟩ := ih h
          rw [Nat.add_right_comm, Nat.add_assoc] at hfails hb
          refine ⟨i + 1, op', c', hop, ?_, hfails, hb⟩
          rw [List.take_succ_cons, runEntries, if_neg hf, he]
          exact hrun

lemma runEntries_of_failure {i : ℕ} {op : RowOp} {c : BatchCtx} (hop : ops[i]? = some op)
    (hrun : runEntries f s sqlite opIdx (ops.take i) ctx = .ok c)
    (hfails : f.entry (opIdx + i) ∨ ∀ c', executeEntry s sqlite op c ≠ .ok true c') :
    ∃ b, runEntries f s sqlite opIdx ops ctx = .error (entryError f (opIdx + i) b) := by
  induction ops generalizing opIdx ctx i with
  | nil => cases hop
  | cons first ops ih =>
    cases i with
    | zero =>
      cases hop
      cases hrun
      rw [runEntries]
      by_cases hf : f.entry opIdx
      · exact ⟨_, if_pos hf⟩
      · rw [if_neg hf]
        have hfails := hfails.resolve_left hf
        cases he : executeEntry s sqlite op c with
        | error e c' => exact ⟨_, rfl⟩
        | ok b c' =>
          cases b with
          | false => exact ⟨_, rfl⟩
          | true => exact absurd he (hfails c')
    | succ i =>
      rw [List.take_succ_cons, runEntries] at hrun
      rw [runEntries]
      split_ifs at hrun with hf
      rw [if_neg hf]
      cases he : executeEntry s sqlite first ctx with
      | error e c => simp [he] at hrun
      | ok b c =>
        cases b with
        | false => simp [he] at hrun
        | true =>
          rw [he] at hrun
          rw [← Nat.add_assoc, Nat.add_right_comm] at hfails ⊢
          exact ih hop hrun hfails

end Entries

section Outcome

variable {f : BatchFaults} {s : Schema} {sqlite : Sqlite} {entries : List RowOp} {w : WriteWorker}
  {cache : DocumentCache} {ctx : BatchCtx} {e : WriteError}

lemma runBatch_eq_ok (h : runBatch f s sqlite entries w = .ok ctx) :
    runOps s sqlite true 0 entries w.begin = .ok () ctx ∧
      w.tryTransaction s sqlite true entries = .ok () ctx := by
  unfold runBatch at h
  cases hb : f.begin with
  | some e => simp [hb] at h
  | none =>
    simp only [hb] at h
    cases hr : runEntries f s sqlite 0 entries w.begin with
    | error e => simp [hr] at h
    | ok c =>
      simp only [hr] at h
      split_ifs at h
      cases hc : sqlite.error c.db .commit with
      | some e => simp [hc] at h
      | none =>
        simp only [hc] at h
        cases h
        have hops := runOps_of_runEntries hr
        refine ⟨hops, ?_⟩
        unfold tryTransaction
        rw [hops]
        dsimp only
        rw [hc]

lemma runBatch_eq_error (h : runBatch f s sqlite entries w = .error e) :
    e.2 = none ∨ ∃ i b, FailsAt f s sqlite entries w i ∧ e = entryError f i b := by
  unfold runBatch at h
  cases hb : f.begin with
  | some e' =>
    simp only [hb] at h
    cases h
    exact .inl rfl
  | none =>
    simp only [hb] at h
    cases hr : runEntries f s sqlite 0 entries w.begin with
    | error e' =>
      simp only [hr] at h
      cases h
      obtain ⟨i, op, c, hop, hrun, hfails, b, he⟩ := runEntries_eq_error hr
      rw [Nat.zero_add] at hfails he
      exact .inr ⟨i, b, ⟨hb, op, c, hop, hrun, hfails⟩, he⟩
    | ok c =>
      simp only [hr] at h
      split_ifs at h
      · cases h
        exact .inl rfl
      · cases hc : sqlite.error c.db .commit with
        | some e' =>
          simp only [hc] at h
          cases h
          exact .inl rfl
        | none =>
          simp only [hc] at h
          cases h

lemma FailsAt.error {i : ℕ} (h : FailsAt f s sqlite entries w i) :
    ∃ b, runBatch f s sqlite entries w = .error (entryError f i b) := by
  obtain ⟨hbegin, op, c, hop, hrun, hfails⟩ := h
  rw [← Nat.zero_add i] at hfails
  obtain ⟨b, hb⟩ := runEntries_of_failure hop hrun hfails
  rw [Nat.zero_add] at hb
  refine ⟨b, ?_⟩
  unfold runBatch
  rw [hbegin]
  dsimp only
  rw [hb]

lemma executeBatchOpWith_of_ok (h : runBatch f s sqlite entries w = .ok ctx) :
    executeBatchOpWith f s sqlite entries w cache = (commitStores f ctx cache w, none) := by
  unfold executeBatchOpWith
  rw [h]

lemma executeBatchOpWith_of_error (h : runBatch f s sqlite entries w = .error e) :
    executeBatchOpWith f s sqlite entries w cache = (⟨w.db, w.pkSets, cache, w.changeQueue⟩, some e) := by
  unfold executeBatchOpWith
  rw [h]

lemma reportsFailure_iff : ReportsFailure f s sqlite entries w cache ↔
    ∀ i, FailsAt f s sqlite entries w i → f.record = false := by
  constructor
  · intro h i hi
    obtain ⟨b, hb⟩ := hi.error
    obtain ⟨e, he⟩ := (h i).mp hi
    rw [executeBatchOpWith_of_error hb, Option.some.injEq] at he
    cases hrecord : f.record with
    | false => rfl
    | true => simp [entryError, hrecord] at he
  · intro h i
    constructor
    · intro hi
      obtain ⟨b, hb⟩ := hi.error
      refine ⟨b, ?_⟩
      rw [executeBatchOpWith_of_error hb]
      simp [entryError, h i hi]
    · rintro ⟨e, he⟩
      cases hb : runBatch f s sqlite entries w with
      | ok ctx => simp [executeBatchOpWith_of_ok hb] at he
      | error e' =>
        rw [executeBatchOpWith_of_error hb, Option.some.injEq] at he
        subst he
        obtain hnone | ⟨j, b, hj, hej⟩ := runBatch_eq_error hb
        · cases hnone
        · simp only [entryError, h j hj, Bool.false_eq_true, if_false, Prod.mk.injEq, Option.some.injEq] at hej
          rw [hej.2]
          exact hj

end Outcome

section Cache

variable {key : DocumentCacheKey} {entries entries' : List (DocumentCacheKey × Record)}

lemma find_trackedCacheOps (clone : ℕ → Bool) (i : ℕ) (ops : List CacheOp)
    (h : find eqKey key entries = none ∨ find eqKey key entries = find eqKey key entries') :
    find eqKey key ((trackedCacheOps clone i ops).foldl applyMutation entries) = none ∨
      find eqKey key ((trackedCacheOps clone i ops).foldl applyMutation entries) =
        find eqKey key (ops.foldl applyMutation entries') := by
  induction ops generalizing i entries entries' with
  | nil => exact h
  | cons op ops ih =>
    rw [trackedCacheOps, List.foldl_cons, List.foldl_cons]
    refine ih (i + 1) ?_
    cases clone i with
    | true =>
      rw [if_pos rfl, find_applyMutation, find_applyMutation]
      by_cases hk : op.key = key
      · exact .inl (if_pos hk)
      · have hevict : (CacheOp.evict op.key).key ≠ key := hk
        rw [if_neg hevict, if_neg hk]
        exact h
    | false =>
      rw [if_neg Bool.false_ne_true, find_applyMutation, find_applyMutation]
      by_cases hk : op.key = key
      · rw [if_pos hk, if_pos hk]
        exact .inr rfl
      · rw [if_neg hk, if_neg hk]
        exact h

end Cache

section Agreement

variable {s : Schema} {sqlite : Sqlite} {opIdx : ℕ} {ops : List RowOp} {ctx : BatchCtx}

end Agreement
section Committed

variable {f : BatchFaults} {s : Schema} {sqlite : Sqlite} {entries : List RowOp} {w : WriteWorker}
  {cache : DocumentCache} {ctx : BatchCtx}

lemma served_commitStores (f : BatchFaults) (w : WriteWorker) (cache : DocumentCache)
    (ctx : BatchCtx) (key : DocumentCacheKey) :
    (commitStores f ctx cache w).documentCache.get key = none ∨
      (commitStores f ctx cache w).documentCache.get key =
        find eqKey key (ctx.pendingCacheOps.foldl applyMutation cache.visible) := by
  have hsame : find eqKey key cache.visible = none ∨
      find eqKey key cache.visible = find eqKey key cache.visible := .inr rfl
  have htracked := find_trackedCacheOps f.clone 0 ctx.pendingCacheOps hsame
  cases DocumentCache.get_applyDocumentCache f.cache
      (trackedCacheOps f.clone 0 ctx.pendingCacheOps) cache key with
  | inl hnone => exact .inl hnone
  | inr hsame =>
    unfold commitStores
    rw [hsame]
    exact htracked

lemma serves_commitStores (h : runOps s sqlite true 0 entries w.begin = .ok () ctx)
    (hexact : w.PkExact) (hplaced : w.db.Placed s) (hserves : cache.Serves w.db) :
    (commitStores f ctx cache w).documentCache.Serves ctx.db := by
  obtain ⟨_, cs, hcs, hsettled⟩ := runOps_settled hplaced h
  intro key r hr
  have hlast : ¬ OverlookedLast s sqlite key.slot (executedOps s sqlite true 0 entries w.begin) :=
    fun hlate => not_overlookedIn hexact.begin.executedOps _ (.inr hlate)
  cases served_commitStores f w cache ctx key with
  | inl hnone =>
    rw [hnone] at hr
    cases hr
  | inr hsame =>
    rw [hsame, hcs] at hr
    exact ((hsettled key).2 hlast).stored (hserves key r) hr

lemma commitStores_together (h : runBatch f s sqlite entries w = .ok ctx)
    (hpush : w.changeQueue.isSome → ∀ c ∈ ctx.pushed, f.push c = false) :
    CommittedTogether s sqlite entries w cache ctx (commitStores f ctx cache w) := by
  obtain ⟨hops, htx⟩ := runBatch_eq_ok h
  refine ⟨hops, rfl, rfl, served_commitStores f w cache ctx, ?_, fun hexact => ?_, serves_commitStores hops, ?_⟩
  · unfold commitStores
    cases hq : w.changeQueue with
    | none => rfl
    | some queue =>
      rw [hq] at hpush
      rw [Option.map_some, Option.map_some, List.filter_eq_self.mpr]
      intro c hc
      rw [hpush rfl c hc]
      rfl
  · have hafter : (w.runTransaction s sqlite true entries).PkExact := hexact.runTransaction
    unfold runTransaction at hafter
    rw [htx] at hafter
    exact hafter
  · intro hexact hq hread
    obtain ⟨queue, hqueue⟩ := Option.isSome_iff_exists.mp hq
    exact applyChanges_pushed hexact hqueue hread htx

lemma allOrNothing_iff : AllOrNothing f s sqlite entries w cache ↔
    ∀ ctx, runBatch f s sqlite entries w = .ok ctx → w.changeQueue.isSome →
      ∀ c ∈ ctx.pushed, f.push c = false := by
  unfold AllOrNothing
  cases hb : runBatch f s sqlite entries w with
  | error e =>
    rw [executeBatchOpWith_of_error hb]
    exact iff_of_true rfl fun ctx h => by cases h
  | ok ctx =>
    rw [executeBatchOpWith_of_ok hb]
    constructor
    · rintro ⟨ctx₁, htogether⟩ ctx₂ h hq c hc
      cases h
      have hops := htogether.executed
      rw [(runBatch_eq_ok hb).1] at hops
      cases hops
      obtain ⟨queue, hqueue⟩ := Option.isSome_iff_exists.mp hq
      have hpushed := htogether.changeQueue
      unfold commitStores at hpushed
      rw [hqueue, Option.map_some, Option.map_some, Option.some.injEq, List.append_cancel_left_eq,
        List.filter_eq_self] at hpushed
      simpa using hpushed c hc
    · exact fun h => ⟨ctx, commitStores_together hb (h ctx rfl)⟩

end Committed

/-- An atomic batch takes effect in the database, the primary key sets, the document cache and the
change queue together, or in none of them, and reports the entry that failed, exactly when no push
of a change after the `COMMIT` runs out of memory, nor the record of a failed entry. -/
theorem batch_atomic_iff (f : BatchFaults) (s : Schema) (sqlite : Sqlite) (entries : List RowOp)
    (w : WriteWorker) (cache : DocumentCache) :
    AllOrNothing f s sqlite entries w cache ∧ ReportsFailure f s sqlite entries w cache ↔
      (∀ ctx, runBatch f s sqlite entries w = .ok ctx → w.changeQueue.isSome →
        ∀ c ∈ ctx.pushed, f.push c = false) ∧ ∀ i, FailsAt f s sqlite entries w i → f.record = false := by
  rw [allOrNothing_iff, reportsFailure_iff]

namespace BatchAtomicityExample

open PkSetsExample PendingChangesExample

def createUser : RowOp := .upsert ⟨0, 9, 0, 9, [], none, 5, none⟩

def noPush : BatchFaults := { push := fun _ => true }

/-- The batch is committed and reported as committed, but its change never reaches the queue. -/
theorem dropped_change :
    ((executeBatchOpWith noPush usersSchema accepting [createUser] watched {}).1.db.row
        ⟨0, 9⟩).isSome ∧
      (executeBatchOpWith noPush usersSchema accepting [createUser] watched {}).1.changeQueue = some [] ∧
      (executeBatchOpWith noPush usersSchema accepting [createUser] watched {}).2 = none ∧
      ¬ AllOrNothing noPush usersSchema accepting [createUser] watched {} := by
  refine ⟨by decide, rfl, rfl, fun h => ?_⟩
  exact Bool.false_ne_true (allOrNothing_iff.mp h _ rfl rfl _ List.mem_cons_self).symm

end BatchAtomicityExample
end ZyncBase
