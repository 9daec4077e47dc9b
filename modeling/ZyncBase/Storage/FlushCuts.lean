import ZyncBase.Storage.Acknowledged
import ZyncBase.Storage.Batching

/-! Cutting the queue into flushes: the rows and the answers are those of a transaction for every
operation, except that a flush is rolled back as a whole. -/
namespace ZyncBase

open AssocMap List Machine Outcome WriteWorker WriteLoop

section Singly

variable (s : Schema) (sqlite : Sqlite)

/-- What rolls the operation back when it has a transaction of its own. -/
def RowOp.failure (op : RowOp) (w : WriteWorker) : Option StorageError :=
  match w.tryTransaction s sqlite false [op] with
  | .error e _ => some e
  | .ok _ _ => none

/-- A transaction for every operation, with the outcome of each. -/
def singly : List RowOp → WriteWorker → WriteWorker × List (RowOp × Option StorageError)
  | [], w => (w, [])
  | op :: ops, w =>
    let rest := singly ops (w.flushBatch s sqlite [op])
    (rest.1, (op, w.flushOutcome s sqlite [op] 0) :: rest.2)

/-- The first failure when every operation has a transaction of its own, and the worker it leaves. -/
def firstFailure : List RowOp → WriteWorker → Option (StorageError × WriteWorker)
  | [], _ => none
  | op :: ops, w =>
    match op.failure s sqlite w with
    | some e => some (e, w.flushBatch s sqlite [op])
    | none => firstFailure ops (w.flushBatch s sqlite [op])

/-- The operations of a flush: the first failure undoes and answers all of them. -/
def together (ops : List RowOp) (w : WriteWorker) : WriteWorker × List (RowOp × Option StorageError) :=
  match firstFailure s sqlite ops w with
  | none => singly s sqlite ops w
  | some (e, failed) =>
    ({ w with lastCreatedAt := failed.lastCreatedAt }, ops.map fun op => (op, some e))

end Singly

/-- A flush that has executed some operations, and a worker that has executed each of them in a
transaction of its own. -/
structure Caught (ctx : BatchCtx) (w : WriteWorker) : Prop where
  ahead : Ahead ctx.pkMutations ctx.pendingCacheOps ctx w.begin
  documentCache : w.documentCache = ctx.pendingCacheOps.foldl applyMutation ctx.self.documentCache
  namespaces : ctx.self.namespaces = w.namespaces
  namespaceCache : ctx.self.namespaceCache = w.namespaceCache
  identityCache : ctx.self.identityCache = w.identityCache

section Flush

variable {s : Schema} {sqlite : Sqlite} {w w' : WriteWorker} {ctx : BatchCtx} {op : RowOp}

lemma Matches.caught (h : Matches w w') : Caught w.begin w' :=
  ⟨⟨h.db, h.lastCreatedAt, rfl, rfl, h.pkSets.symm, h.watched⟩, h.documentCache.symm, h.namespaces,
    h.namespaceCache, h.identityCache⟩

lemma Caught.reject (h : Caught ctx w) (opIdx : ℕ) : Caught (reject opIdx ctx) w :=
  ⟨⟨h.ahead.db, h.ahead.lastCreatedAt, h.ahead.pkMutations, h.ahead.cacheOps, h.ahead.pkSets,
    h.ahead.watched⟩, h.documentCache, h.namespaces, h.namespaceCache, h.identityCache⟩

lemma Caught.commit (h : Caught ctx w') (hself : ctx.self = w) :
    Matches ((w.commit ctx).applyCommitted ctx) w' := by
  subst hself
  refine ⟨h.ahead.db, h.namespaces, h.documentCache.symm, h.namespaceCache, h.identityCache,
    h.ahead.pkSets.symm, h.ahead.lastCreatedAt, ?_⟩
  change (ctx.self.changeQueue.map _).isSome = w'.changeQueue.isSome
  rw [Option.isSome_map]
  exact h.ahead.watched

lemma tryTransaction_of_error {e : StorageError} {c : BatchCtx}
    (hexec : executeEntry s sqlite op w.begin = .error e c) :
    w.tryTransaction s sqlite false [op] = .error e c := by
  have hop : executeOp s sqlite false 0 op w.begin = .error e c := by
    unfold executeOp
    rw [hexec]
    rfl
  unfold tryTransaction
  rw [runOps, run_bind_of_error hop]

lemma tryTransaction_of_ok (hcommit : ∀ db, sqlite.error db .commit = none) {b : Bool}
    {c : BatchCtx} (hexec : executeEntry s sqlite op w.begin = .ok b c) :
    w.tryTransaction s sqlite false [op] = .ok () (if b then c else reject 0 c) := by
  have hop : executeOp s sqlite false 0 op w.begin = .ok b c := by
    unfold executeOp
    rw [hexec]
  have hrun : runOps s sqlite false 0 [op] w.begin = .ok () (if b then c else reject 0 c) := by
    rw [runOps, run_bind_of_ok hop]
    cases b with
    | true => rfl
    | false => rfl
  unfold tryTransaction
  rw [hrun]
  dsimp only
  rw [hcommit]

lemma Caught.advance (h : Caught ctx w) {c c' : BatchCtx}
    (hc : Ahead ctx.pkMutations ctx.pendingCacheOps c c') (hself : c.self = ctx.self)
    (hself' : c'.self = w) : Caught c ((w.commit c').applyCommitted c') := by
  subst hself'
  refine ⟨⟨hc.db, hc.lastCreatedAt, (append_nil _).symm, (append_nil _).symm, ?_, ?_⟩, ?_, ?_, ?_, ?_⟩
  · change c'.pkMutations.foldl applyPkMutation c'.self.pkSets = _
    rw [hc.pkSets, hc.pkMutations, foldl_append]
  · rw [hc.watched]
    exact (Option.isSome_map ..).symm
  · change c'.pendingCacheOps.foldl applyMutation c'.self.documentCache = _
    rw [h.documentCache, hc.cacheOps, foldl_append, hself]
  · exact (congrArg WriteWorker.namespaces hself).trans h.namespaces
  · exact (congrArg WriteWorker.namespaceCache hself).trans h.namespaceCache
  · exact (congrArg WriteWorker.identityCache hself).trans h.identityCache

lemma Caught.executeEntry (h : Caught ctx w) (hcommit : ∀ db, sqlite.error db .commit = none) (op : RowOp) :
    (∃ e c, executeEntry s sqlite op ctx = .error e c ∧ op.failure s sqlite w = some e ∧
      c.lastCreatedAt = (w.flushBatch s sqlite [op]).lastCreatedAt) ∨
    ∃ b c, executeEntry s sqlite op ctx = .ok b c ∧ op.failure s sqlite w = none ∧
      w.flushOutcome s sqlite [op] 0 = (if b then none else some .permissionDenied) ∧
      c.self = ctx.self ∧ Caught c (w.flushBatch s sqlite [op]) := by
  unfold RowOp.failure WriteWorker.flushBatch runTransaction flushOutcome
  obtain ⟨b, c, c', hexec, hexec', hc⟩ | ⟨e, c, c', hexec, hexec', hc⟩ :=
    @Ahead.executeEntry s sqlite _ _ op _ _ h.ahead
  · obtain ⟨es, haccounts⟩ := executeEntry_accounts hexec
    obtain ⟨es', haccounts'⟩ := executeEntry_accounts hexec'
    have hself := haccounts.tracked.self
    have hself' := haccounts'.tracked.self
    have hnone : c'.guardRejected = [] := haccounts'.tracked.rejected
    rw [tryTransaction_of_ok hcommit hexec']
    refine .inr ⟨b, c, hexec, rfl, ?_, hself, ?_⟩
    · cases b with
      | true => simp [hnone]
      | false => simp [ZyncBase.reject]
    · have hnext := h.advance hc hself hself'
      cases b with
      | true => exact hnext
      | false => exact hnext
  · rw [tryTransaction_of_error hexec']
    exact .inl ⟨e, c, hexec, rfl, hc.lastCreatedAt⟩

/-- The answers of a committed flush to its operations. -/
def BatchCtx.answers (opIdx : ℕ) (ops : List RowOp) (ctx : BatchCtx) : List (RowOp × Option StorageError) :=
  (ops.zipIdx opIdx).map fun p =>
    (p.1, if p.2 ∈ ctx.guardRejected then some .permissionDenied else none)

/-- A flush fails with the first failure, or ends with the rows and the answers of single
transactions. -/
lemma Caught.runOps (h : Caught ctx w) (hcommit : ∀ db, sqlite.error db .commit = none)
    (opIdx : ℕ) (ops : List RowOp) (hctx : ∀ j ∈ ctx.guardRejected, j < opIdx) :
    (∃ e failed c, firstFailure s sqlite ops w = some (e, failed) ∧
      runOps s sqlite false opIdx ops ctx = .error e c ∧
      c.lastCreatedAt = failed.lastCreatedAt) ∨
    ∃ c, firstFailure s sqlite ops w = none ∧ runOps s sqlite false opIdx ops ctx = .ok () c ∧
      c.self = ctx.self ∧ Caught c (singly s sqlite ops w).1 ∧
      c.answers opIdx ops = (singly s sqlite ops w).2 := by
  induction ops generalizing opIdx ctx w with
  | nil => exact .inr ⟨ctx, rfl, rfl, rfl, h, rfl⟩
  | cons op ops ih =>
    rw [firstFailure, ZyncBase.runOps]
    obtain ⟨e, c, hexec, hfailure, hlast⟩ | ⟨b, c, hexec, hfailure, houtcome, hself, hc⟩ :=
      @Caught.executeEntry s sqlite w ctx h hcommit op
    · have hop : executeOp s sqlite false opIdx op ctx = .error e c := by
        unfold executeOp
        rw [hexec]
        rfl
      rw [hfailure, run_bind_of_error hop]
      exact .inl ⟨e, _, c, rfl, rfl, hlast⟩
    · have hop : executeOp s sqlite false opIdx op ctx = .ok b c := by
        unfold executeOp
        rw [hexec]
      have hguard : guardOutcome false opIdx b c = .ok () (if b then c else ZyncBase.reject opIdx c) := by
        cases b with
        | true => rfl
        | false => rfl
      have hrejected := Kept.ok (kept_executeEntry op) hexec
      have hnext : Caught (if b then c else ZyncBase.reject opIdx c) (w.flushBatch s sqlite [op]) := by
        cases b with
        | true => exact hc
        | false => exact hc.reject opIdx
      have hbefore : ∀ j ∈ (if b then c else ZyncBase.reject opIdx c).guardRejected, j < opIdx + 1 := by
        intro j hj
        cases b with
        | true => exact Nat.lt_succ_of_lt (hctx j (hrejected ▸ hj))
        | false =>
          cases mem_append.mp hj with
          | inl hj => exact Nat.lt_succ_of_lt (hctx j (hrejected ▸ hj))
          | inr hj => exact mem_singleton.mp hj ▸ Nat.lt_succ_self opIdx
      rw [hfailure, run_bind_of_ok hop, run_bind_of_ok hguard]
      obtain ⟨e, failed, d, hfirst, hrun, hlast⟩ | ⟨d, hfirst, hrun, hdself, hd, hanswers⟩ :=
        ih hnext (opIdx + 1) hbefore
      · exact .inl ⟨e, failed, d, hfirst, hrun, hlast⟩
      · refine .inr ⟨d, hfirst, hrun, ?_, hd, ?_⟩
        · rw [hdself, ← hself]
          cases b with
          | true => rfl
          | false => rfl
        · have hown : opIdx ∈ d.guardRejected ↔ b = false := by
            rw [runOps_rejected_before hrun (Nat.lt_succ_self opIdx)]
            cases b with
            | true => simpa using fun hm => Nat.lt_irrefl _ (hctx opIdx (hrejected ▸ hm))
            | false => simp [ZyncBase.reject]
          rw [singly, ← hanswers, BatchCtx.answers, zipIdx_cons, map_cons, houtcome, if_congr hown rfl rfl]
          cases b with
          | true => rfl
          | false => rfl

lemma Matches.together (h : Matches w w') (hcommit : ∀ db, sqlite.error db .commit = none)
    (ops : List RowOp) :
    Matches (w.flushBatch s sqlite ops) (together s sqlite ops w').1 ∧
      ops.zipIdx.map (fun p => (p.1, w.flushOutcome s sqlite ops p.2)) =
        (ZyncBase.together s sqlite ops w').2 := by
  unfold WriteWorker.flushBatch WriteWorker.runTransaction WriteWorker.flushOutcome
    WriteWorker.tryTransaction ZyncBase.together
  obtain ⟨e, failed, c, hfirst, hrun, hlast⟩ | ⟨c, hfirst, hrun, hself, hc, hanswers⟩ :=
    @Caught.runOps s sqlite w' w.begin h.caught hcommit 0 ops (by simp [WriteWorker.begin])
  · rw [hfirst, hrun]
    refine ⟨⟨h.db, h.namespaces, h.documentCache, h.namespaceCache, h.identityCache, h.pkSets,
      hlast, h.watched⟩, ?_⟩
    have hfst := congrArg (List.map fun op => (op, some e)) (zipIdx_map_fst 0 ops)
    rwa [map_map] at hfst
  · rw [hfirst, hrun]
    dsimp only
    rw [hcommit]
    exact ⟨hc.commit hself, hanswers⟩

end Flush

/-- What the thread executes at a time. -/
inductive Work where
  | rows (ops : List RowOp)
  | batch (entries : List RowOp) (ack : Option WriteAck)
  | session (sop : ResolveSessionOp) (newUserId : DocId)
  | checkpoint

namespace Work

def ops : Work → List WriteOp
  | rows ops => ops.map .row
  | batch entries ack => [.batch entries ack]
  | session sop _ => [.resolveSession sop]
  | checkpoint => [.checkpoint]

def sent (answers : List (RowOp × Option StorageError)) : List (WriteAck × WriteOutcome) :=
  answers.filterMap fun p => p.1.ack.map fun a => (a, p.2.map fun e => (.storage e, none))

/-- The worker and the outcomes sent after one more piece of work, with this execution of row
operations. -/
def perform (rowOps : List RowOp → WriteWorker → WriteWorker × List (RowOp × Option StorageError))
    (s : Schema) (sqlite : Sqlite) (p : WriteWorker × List (WriteAck × WriteOutcome)) :
    Work → WriteWorker × List (WriteAck × WriteOutcome)
  | rows ops => ((rowOps ops p.1).1, p.2 ++ sent (rowOps ops p.1).2)
  | batch entries ack =>
    (p.1.executeBatchOp s sqlite entries, p.2 ++ (ack.map fun a =>
      (a, (p.1.batchOutcome s sqlite entries).map fun e => (.storage e.1, e.2))).toList)
  | session sop newUserId => (p.1.executeResolveSessionOp s sqlite sop newUserId, p.2)
  | checkpoint => p

/-- The flush has one operation, or none of its operations fails in a transaction of its own. -/
def Unspoiled (s : Schema) (sqlite : Sqlite) (p : WriteWorker × List (WriteAck × WriteOutcome)) : Work → Prop
  | rows ops => ops.length ≤ 1 ∨ firstFailure s sqlite ops p.1 = none
  | _ => True

end Work

open Work

section Loop

variable {s : Schema} {sqlite : Sqlite} {batchSize : ℕ} {w : WriteWorker} {st : WriteLoop} {done : List Work}

lemma together_eq_singly {ops : List RowOp} (h : ops.length ≤ 1 ∨ firstFailure s sqlite ops w = none) :
    together s sqlite ops w = singly s sqlite ops w := by
  unfold together
  obtain hshort | hnone := h
  · obtain hzero | hone := Nat.le_one_iff_eq_zero_or_eq_one.mp hshort
    · rw [length_eq_zero_iff.mp hzero]
      rfl
    · obtain ⟨op, rfl⟩ := length_eq_one_iff.mp hone
      rw [firstFailure]
      unfold RowOp.failure
      cases htx : w.tryTransaction s sqlite false [op] with
      | ok u c => rfl
      | error e c =>
        dsimp only
        rw [singly, WriteWorker.flushBatch, runTransaction, flushOutcome, htx]
        rfl
  · rw [hnone]

lemma perform_together_eq_singly {p : WriteWorker × List (WriteAck × WriteOutcome)}
    (h : Along (perform (together s sqlite) s sqlite) (Unspoiled s sqlite) p done) :
    done.foldl (perform (together s sqlite) s sqlite) p =
      done.foldl (perform (singly s sqlite) s sqlite) p := by
  induction done generalizing p with
  | nil => rfl
  | cons work done ih =>
    have hwork : perform (together s sqlite) s sqlite p work =
        perform (singly s sqlite) s sqlite p work := by
      cases work with
      | rows ops =>
        unfold perform
        dsimp only
        rw [together_eq_singly h.1]
      | batch entries ack => rfl
      | session sop newUserId => rfl
      | checkpoint => rfl
    rw [foldl_cons, foldl_cons, ih h.2, hwork]

/-- The thread has done this work, and what is still to do waits in the batch. -/
structure Follows (s : Schema) (sqlite : Sqlite) (w : WriteWorker) (st : WriteLoop)
    (done : List Work) : Prop where
  dequeued : st.dequeued = done.flatMap ops ++ st.batch.map WriteOp.row
  worker : Matches st.worker (done.foldl (perform (together s sqlite) s sqlite) (w, [])).1
  sent : st.sendQueue = (done.foldl (perform (together s sqlite) s sqlite) (w, [])).2

namespace Follows

lemma flushBatch (h : Follows s sqlite w st done) (hcommit : ∀ db, sqlite.error db .commit = none) :
    Follows s sqlite w (st.flushBatch s sqlite) (done ++ [.rows st.batch]) := by
  obtain ⟨hworker, hanswers⟩ := h.worker.together hcommit st.batch
  refine ⟨?_, ?_, ?_⟩
  · rw [flatMap_append, flatMap_singleton]
    exact h.dequeued.trans (append_nil _).symm
  · rw [foldl_concat]
    exact hworker
  · rw [foldl_concat]
    change st.sendQueue ++ _ = _ ++ Work.sent _
    rw [h.sent, ← hanswers, Work.sent, filterMap_map]
    rfl

lemma flushNonempty (h : Follows s sqlite w st done) (hcommit : ∀ db, sqlite.error db .commit = none) :
    ∃ done, Follows s sqlite w (st.flushNonempty s sqlite) done := by
  unfold WriteLoop.flushNonempty
  split_ifs
  · exact ⟨done, h⟩
  · exact ⟨_, h.flushBatch hcommit⟩

lemma alone (h : Follows s sqlite w st done) {st' : WriteLoop} (work : Work)
    (hbatch : st.batch = []) (hbatch' : st'.batch = []) (hdequeued : st'.dequeued = st.dequeued ++ work.ops)
    (hworker : Matches st'.worker (perform (together s sqlite) s sqlite
      (done.foldl (perform (together s sqlite) s sqlite) (w, [])) work).1)
    (hsent : st'.sendQueue = (perform (together s sqlite) s sqlite
      (done.foldl (perform (together s sqlite) s sqlite) (w, [])) work).2) :
    Follows s sqlite w st' (done ++ [work]) := by
  refine ⟨?_, ?_, ?_⟩
  · rw [hdequeued, h.dequeued, hbatch, hbatch', map_nil, append_nil, append_nil,
      flatMap_append, flatMap_singleton]
  · rwa [foldl_concat]
  · rwa [foldl_concat]

lemma tryEnqueueOp (h : Follows s sqlite w st done)
    (hcommit : ∀ db, sqlite.error db .commit = none) (newUserId : DocId) (op : WriteOp)
    (rest : List WriteOp) : ∃ done, Follows s sqlite w
      ((st.dequeue op rest).tryEnqueueOp s ⟨sqlite, sqlite, newUserId⟩ op) done := by
  obtain ⟨flushed, hflushed⟩ := h.flushNonempty hcommit
  have hempty : (st.flushNonempty s sqlite).batch = [] := batch_flushNonempty sqlite
  unfold WriteLoop.tryEnqueueOp
  cases op with
  | row op =>
    refine ⟨done, ?_, h.worker, h.sent⟩
    change st.dequeued ++ [.row op] = _ ++ (st.batch ++ [op]).map WriteOp.row
    rw [h.dequeued, append_assoc, map_append]
    rfl
  | batch entries ack =>
    dsimp only
    rw [flushNonempty_dequeue]
    refine ⟨_, hflushed.alone (.batch entries ack) hempty hempty rfl
      (hflushed.worker.runTransaction s sqlite true entries) ?_⟩
    change (st.flushNonempty s sqlite).sendQueue ++ (ack.map fun a => (a,
      ((st.flushNonempty s sqlite).worker.batchOutcome s sqlite entries).map fun e =>
        (.storage e.1, e.2))).toList = _ ++ _
    rw [hflushed.worker.batchOutcome s sqlite entries, hflushed.sent]
  | resolveSession sop =>
    dsimp only
    rw [flushNonempty_dequeue]
    exact ⟨_, hflushed.alone (.session sop newUserId) hempty hempty rfl
      (hflushed.worker.resolveSession s sqlite sop newUserId) hflushed.sent⟩
  | checkpoint =>
    dsimp only
    rw [flushNonempty_dequeue]
    exact ⟨_, hflushed.alone .checkpoint hempty hempty rfl hflushed.worker hflushed.sent⟩

lemma withMode (h : Follows s sqlite w st done) (mode : LoopMode) :
    Follows s sqlite w { st with mode } done :=
  ⟨h.dequeued, h.worker, h.sent⟩

end Follows

/-- SQLite answers the statement as it always does, and the thread does not fail. -/
def LoopEvent.Steady (sqlite : Sqlite) : LoopEvent → Prop
  | .fatal => False
  | .pop v => v.flush = sqlite ∧ v.exec = sqlite
  | .flushDue sqlite' _ => sqlite' = sqlite
  | .finish sqlite' => sqlite' = sqlite
  | _ => True

lemma Follows.step (h : Follows s sqlite w st done) (hmode : st.mode ≠ .failed)
    (hcommit : ∀ db, sqlite.error db .commit = none) {ev : LoopEvent} (hev : ev.Steady sqlite) :
    (∃ done, Follows s sqlite w (st.step s batchSize ev) done) ∧ (st.step s batchSize ev).mode ≠ .failed := by
  cases ev with
  | enqueue op =>
    change (∃ done, Follows s sqlite w (st.enqueueOp op) done) ∧ (st.enqueueOp op).mode ≠ .failed
    unfold enqueueOp
    rw [if_neg hmode]
    exact ⟨⟨done, h.dequeued, h.worker, h.sent⟩, hmode⟩
  | start =>
    unfold WriteLoop.step
    dsimp only
    split_ifs
    · exact ⟨⟨done, h.withMode .running⟩, by simp⟩
    · exact ⟨⟨done, h⟩, hmode⟩
  | fatal => exact hev.elim
  | stop =>
    unfold WriteLoop.step
    dsimp only
    split_ifs
    · exact ⟨⟨done, h.withMode .draining⟩, by simp⟩
    · exact ⟨⟨done, h⟩, hmode⟩
  | pop v =>
    obtain ⟨flush, exec, newUserId⟩ := v
    obtain ⟨hflush, hexec⟩ : flush = sqlite ∧ exec = sqlite := hev
    subst hflush hexec
    change (∃ done, Follows s exec w (st.pop s batchSize ⟨exec, exec, newUserId⟩) done) ∧
      (st.pop s batchSize ⟨exec, exec, newUserId⟩).mode ≠ .failed
    unfold pop
    cases st.queue with
    | nil => exact ⟨⟨done, h⟩, hmode⟩
    | cons op rest =>
      have hnext : (∃ done, Follows s exec w
          ((st.dequeue op rest).tryEnqueueOp s ⟨exec, exec, newUserId⟩ op) done) ∧
          ((st.dequeue op rest).tryEnqueueOp s ⟨exec, exec, newUserId⟩ op).mode ≠ .failed := by
        refine ⟨h.tryEnqueueOp hcommit newUserId op rest, ?_⟩
        rw [(fields_tryEnqueueOp _ op).2.2.2]
        exact hmode
      dsimp only
      cases hm : st.mode with
      | starting => exact ⟨⟨done, h⟩, hmode⟩
      | stopped => exact ⟨⟨done, h⟩, hmode⟩
      | running =>
        dsimp only
        split_ifs
        · exact hnext
        · exact ⟨⟨done, h⟩, hmode⟩
      | draining => exact hnext
      | failed => exact absurd hm hmode
  | flushDue sqlite' timedOut =>
    cases hev
    change (∃ done, Follows s sqlite w (st.flushDue s batchSize sqlite timedOut) done) ∧
      (st.flushDue s batchSize sqlite timedOut).mode ≠ .failed
    unfold flushDue
    split_ifs
    · exact ⟨⟨_, h.flushBatch hcommit⟩, hmode⟩
    · exact ⟨⟨done, h⟩, hmode⟩
  | finish sqlite' =>
    cases hev
    unfold WriteLoop.step
    dsimp only
    split_ifs
    · obtain ⟨flushed, hflushed⟩ := h.flushNonempty hcommit
      exact ⟨⟨flushed, hflushed.withMode .stopped⟩, by simp⟩
    · exact ⟨⟨done, h⟩, hmode⟩

end Loop

/-- In every run of the thread, however the operations were cut into flushes, the rows and the
outcomes sent are those of the operations executed one after the other, where the first failure in a
flush undoes and answers all of it; they are those of a transaction for every operation when no
flush of several operations meets a failure. -/
theorem flushes_cut (s : Schema) (sqlite : Sqlite) (hcommit : ∀ db, sqlite.error db .commit = none)
    (batchSize : ℕ) (w : WriteWorker) (events : List LoopEvent)
    (hsteady : ∀ ev ∈ events, ev.Steady sqlite) :
    let st := events.foldl (WriteLoop.step s batchSize) { worker := w }
    ∃ done : List Work, st.dequeued = done.flatMap ops ++ st.batch.map WriteOp.row ∧
      st.worker.db = (done.foldl (perform (together s sqlite) s sqlite) (w, [])).1.db ∧
      st.sendQueue = (done.foldl (perform (together s sqlite) s sqlite) (w, [])).2 ∧
      (Along (perform (together s sqlite) s sqlite) (Unspoiled s sqlite) (w, []) done →
        st.worker.db = (done.foldl (perform (singly s sqlite) s sqlite) (w, [])).1.db ∧
        st.sendQueue = (done.foldl (perform (singly s sqlite) s sqlite) (w, [])).2) := by
  intro st
  obtain ⟨⟨done, h⟩, _⟩ : (∃ done, Follows s sqlite w st done) ∧ st.mode ≠ .failed :=
    List.foldlRecOn events (WriteLoop.step s batchSize)
      (motive := fun st => (∃ done, Follows s sqlite w st done) ∧ st.mode ≠ .failed)
      ⟨⟨[], rfl, .refl w, rfl⟩, by simp⟩
      fun st' h ev hev => h.1.elim fun _ hf => hf.step h.2 hcommit (hsteady ev hev)
  refine ⟨done, h.dequeued, h.worker.db, h.sent, fun hunspoiled => ?_⟩
  rw [← perform_together_eq_singly hunspoiled]
  exact ⟨h.worker.db, h.sent⟩

namespace FlushCutsExample

open PkSetsExample AcknowledgedExample

/-- SQLite with a unique index on the value of an item. -/
def uniqueVal : Sqlite where
  enc := accepting.enc
  error db
    | .upsert key candidate _ =>
      if db.rows.any fun e => e.1 ≠ key && e.2.namespaceId = candidate.namespaceId &&
        e.2.fields = candidate.fields then some .uniqueConstraintViolation
      else none
    | _ => none

def createItem (connId : ℕ) (id : DocId) (v : ℤ) : RowOp :=
  .upsert ⟨0, id, 3, 9, [⟨3, .scalar (.integer v), first_user_column⟩], none, 5, some ⟨connId, 1⟩⟩

/-- Item 1 has the value 10. One connection creates item 2 with another value, the next one item 3
with the same. -/
def creations : List RowOp := [createItem 1 2 20, createItem 2 3 10]

def oneFlush : List LoopEvent :=
  [.start, .enqueue (.row (createItem 1 2 20)), .enqueue (.row (createItem 2 3 10)),
    .pop ⟨uniqueVal, uniqueVal, 0⟩, .pop ⟨uniqueVal, uniqueVal, 0⟩, .flushDue uniqueVal true]

/-- In one flush the second connection's failure undoes and answers the first one's write, which
succeeds in a transaction of its own. -/
theorem other_write_undone :
    let st := oneFlush.foldl (WriteLoop.step itemsSchema 200) { worker := withItem }
    st.dequeued = creations.map WriteOp.row ∧ st.batch = [] ∧ st.worker.db.row ⟨0, 2⟩ = none ∧
      st.sendQueue = [(⟨1, 1⟩, some (.storage .uniqueConstraintViolation, none)),
        (⟨2, 1⟩, some (.storage .uniqueConstraintViolation, none))] ∧
      ((singly itemsSchema uniqueVal creations withItem).1.db.row ⟨0, 2⟩).isSome ∧
      sent (singly itemsSchema uniqueVal creations withItem).2 =
        [(⟨1, 1⟩, none), (⟨2, 1⟩, some (.storage .uniqueConstraintViolation, none))] :=
  ⟨rfl, by decide, by decide, by decide, by decide, by decide⟩

theorem flushes_cut_creations :
    let st := oneFlush.foldl (WriteLoop.step itemsSchema 200) { worker := withItem }
    ∃ done : List Work, st.dequeued = done.flatMap ops ++ st.batch.map WriteOp.row ∧ st.worker.db =
        (done.foldl (perform (together itemsSchema uniqueVal) itemsSchema uniqueVal)
          (withItem, [])).1.db := by
  intro st
  obtain ⟨done, hdequeued, hdb, _⟩ :=
    flushes_cut itemsSchema uniqueVal (fun _ => rfl) 200 withItem oneFlush (by
      simp [oneFlush, LoopEvent.Steady])
  exact ⟨done, hdequeued, hdb⟩

end FlushCutsExample
end ZyncBase
