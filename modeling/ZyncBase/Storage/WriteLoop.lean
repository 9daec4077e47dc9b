import ZyncBase.Lib.Machine
import ZyncBase.Storage.Effects

/-! The thread of the write worker: it dequeues operations, collects row operations in a batch,
executes the others at once after flushing the batch, and sends every outcome to the send queue. -/
namespace ZyncBase

open List Machine Outcome WriteWorker

/-- The operations of the write queue. -/
inductive WriteOp where
  | row (op : RowOp)
  | batch (entries : List RowOp) (ack : Option WriteAck)
  | resolveSession (sop : ResolveSessionOp)
  | checkpoint

namespace WriteOp

def getWriteAckInfo : WriteOp → Option WriteAck
  | row op => op.ack
  | batch _ ack => ack
  | _ => none

end WriteOp

inductive OutcomeError where
  | storage (e : StorageError)
  | engineUnhealthy
  deriving DecidableEq, Repr

/-- `WriteCommitted`, or a `WriteError` with the index of a batch entry. -/
abbrev WriteOutcome := Option (OutcomeError × Option ℕ)

inductive LoopMode where
  | starting | running | draining | stopped | failed
  deriving DecidableEq, Repr

/-- What SQLite answers while an operation is dequeued: to the flush of the batch before it and to
the operation. -/
structure Verdicts where
  flush : Sqlite
  exec : Sqlite
  newUserId : DocId := 0

/-- The thread with its queues. All operations ever enqueued and dequeued are kept for reference. -/
structure WriteLoop where
  worker : WriteWorker
  queue : List WriteOp := []
  batch : List RowOp := []
  sendQueue : List (WriteAck × WriteOutcome) := []
  mode : LoopMode := .starting
  enqueued : List WriteOp := []
  dequeued : List WriteOp := []

/-- Anybody enqueues operations; the other events are steps of the thread, which may find at any time
that it is to stop, or that the timeout of the batch has passed. -/
inductive LoopEvent where
  | enqueue (op : WriteOp)
  | start
  | fatal
  | stop
  | pop (verdicts : Verdicts)
  | flushDue (sqlite : Sqlite) (timedOut : Bool)
  | finish (sqlite : Sqlite)

namespace WriteLoop

variable (s : Schema) (batchSize : ℕ)

def pushWriteOutcome (ack : Option WriteAck) (outcome : WriteOutcome) (st : WriteLoop) : WriteLoop :=
  { st with sendQueue := st.sendQueue ++ (ack.map fun a => (a, outcome)).toList }

/-- The operations of a flush are answered by their position. -/
def pushBatchOutcomes (outcome : ℕ → WriteOutcome) (ops : List RowOp) (st : WriteLoop) : WriteLoop :=
  { st with
    sendQueue := st.sendQueue ++
      ops.zipIdx.filterMap fun (op, opIdx) => op.ack.map fun a => (a, outcome opIdx) }

/-- What `pushBatchOutcomes` is told of the operation at this position. -/
def flushedOutcome (sqlite : Sqlite) (ops : List RowOp) (w : WriteWorker) (opIdx : ℕ) :
    WriteOutcome :=
  (w.flushOutcome s sqlite ops opIdx).map fun e => (.storage e, none)

def flushBatch (sqlite : Sqlite) (st : WriteLoop) : WriteLoop :=
  let answered := st.pushBatchOutcomes (flushedOutcome s sqlite st.batch st.worker) st.batch
  { answered with worker := st.worker.flushBatch s sqlite st.batch, batch := [] }

def executeBatchOp (sqlite : Sqlite) (entries : List RowOp) (ack : Option WriteAck)
    (st : WriteLoop) : WriteLoop :=
  let outcome := (st.worker.batchOutcome s sqlite entries).map fun e => (.storage e.1, e.2)
  { st.pushWriteOutcome ack outcome with worker := st.worker.executeBatchOp s sqlite entries }

def flushNonempty (sqlite : Sqlite) (st : WriteLoop) : WriteLoop :=
  if st.batch.isEmpty then st else st.flushBatch s sqlite

/-- A dequeued operation joins the batch, or is executed after the batch is flushed. -/
def tryEnqueueOp (v : Verdicts) (st : WriteLoop) : WriteOp → WriteLoop
  | .row op => { st with batch := st.batch ++ [op] }
  | .batch entries ack => (st.flushNonempty s v.flush).executeBatchOp s v.exec entries ack
  | .resolveSession sop =>
    let flushed := st.flushNonempty s v.flush
    { flushed with worker := flushed.worker.executeResolveSessionOp s v.exec sop v.newUserId }
  | .checkpoint => st.flushNonempty s v.flush

def dequeue (op : WriteOp) (rest : List WriteOp) (st : WriteLoop) : WriteLoop :=
  { st with queue := rest, dequeued := st.dequeued ++ [op] }

/-- The loop stops collecting at the size of a batch; the drain takes everything. After a fatal
error what is queued is only answered. -/
def pop (v : Verdicts) (st : WriteLoop) : WriteLoop :=
  match st.queue with
  | [] => st
  | op :: rest =>
    match st.mode with
    | .running => if st.batch.length < batchSize then (st.dequeue op rest).tryEnqueueOp s v op else st
    | .draining => (st.dequeue op rest).tryEnqueueOp s v op
    | .failed => (st.dequeue op rest).pushWriteOutcome op.getWriteAckInfo (some (.engineUnhealthy, none))
    | _ => st

/-- A batch is flushed when it is full or has waited long enough. -/
def flushDue (sqlite : Sqlite) (timedOut : Bool) (st : WriteLoop) : WriteLoop :=
  if st.mode = .running ∧ (batchSize ≤ st.batch.length ∨ timedOut ∧ st.batch ≠ []) then
    st.flushBatch s sqlite
  else st

/-- An unhealthy worker refuses operations. -/
def enqueueOp (op : WriteOp) (st : WriteLoop) : WriteLoop :=
  if st.mode = .failed then st
  else { st with queue := st.queue ++ [op], enqueued := st.enqueued ++ [op] }

def step (st : WriteLoop) : LoopEvent → WriteLoop
  | .enqueue op => st.enqueueOp op
  | .start => if st.mode = .starting then { st with mode := .running } else st
  | .fatal => if st.mode = .starting then { st with mode := .failed } else st
  | .stop => if st.mode = .running then { st with mode := .draining } else st
  | .pop v => st.pop s batchSize v
  | .flushDue sqlite timedOut => st.flushDue s batchSize sqlite timedOut
  | .finish sqlite =>
    if st.mode = .draining ∧ st.queue = [] then
      { st.flushNonempty s sqlite with mode := .stopped }
    else st

end WriteLoop

open WriteLoop

/-- What SQLite answers to the flush that an event may bring. -/
def LoopEvent.flushVerdict : LoopEvent → Option Sqlite
  | .pop v => some v.flush
  | .flushDue sqlite _ | .finish sqlite => some sqlite
  | _ => none

/-- What a flush answers to the operation at a position: the error that rolled the transaction back, or
what its own execution in the committed transaction came to. -/
inductive FlushAnswer (s : Schema) (sqlite : Sqlite) (w : WriteWorker) (ops : List RowOp) (i : ℕ) :
    WriteOutcome → Prop where
  | failed {e : StorageError} {ctx : BatchCtx} (htx : w.tryTransaction s sqlite false ops = .error e ctx) :
    FlushAnswer s sqlite w ops i (some (.storage e, none))
  | executed {op : RowOp} {c c' ctx : BatchCtx} {b : Bool} (hop : ops[i]? = some op)
    (htx : w.tryTransaction s sqlite false ops = .ok () ctx)
    (hbefore : runOps s sqlite false 0 (ops.take i) w.begin = .ok () c)
    (hexec : executeEntry s sqlite op c = .ok b c') :
    FlushAnswer s sqlite w ops i (if b then none else some (.storage .permissionDenied, none))

/-- What an atomic batch is answered: the error and the entry that was refused, or that it is committed. -/
inductive BatchAnswer (s : Schema) (sqlite : Sqlite) (w : WriteWorker) (entries : List RowOp) :
    WriteOutcome → Prop where
  | failed {e : StorageError} {ctx : BatchCtx} (htx : w.tryTransaction s sqlite true entries = .error e ctx) :
    BatchAnswer s sqlite w entries (some (.storage e, ctx.guardRejected.head?))
  | committed {ctx : BatchCtx} (htx : w.tryTransaction s sqlite true entries = .ok () ctx) :
    BatchAnswer s sqlite w entries none

/-- How an event answers the operation that was dequeued at a position, in the state that the event finds:
the flush of the batch that the operation is in, its own execution behind that flush, or a refusal once the
thread has failed. -/
inductive AnsweredBy (s : Schema) (st : WriteLoop) : LoopEvent → ℕ → WriteOp → WriteOutcome → Prop where
  | flushed {ev : LoopEvent} {sqlite : Sqlite} {i : ℕ} {op : RowOp} {outcome : WriteOutcome}
    (hev : ev.flushVerdict = some sqlite) (hop : st.batch[i]? = some op)
    (h : FlushAnswer s sqlite st.worker st.batch i outcome) :
    AnsweredBy s st ev (st.dequeued.length - st.batch.length + i) (.row op) outcome
  | batch {v : Verdicts} {entries : List RowOp} {ack : Option WriteAck} {rest : List WriteOp}
    {outcome : WriteOutcome} (hqueue : st.queue = .batch entries ack :: rest)
    (hmode : st.mode = .running ∨ st.mode = .draining)
    (h : BatchAnswer s v.exec (if st.batch = [] then st.worker else st.worker.flushBatch s v.flush st.batch)
      entries outcome) : AnsweredBy s st (.pop v) st.dequeued.length (.batch entries ack) outcome
  | unhealthy {v : Verdicts} {op : WriteOp} {rest : List WriteOp} (hqueue : st.queue = op :: rest)
    (hmode : st.mode = .failed) :
    AnsweredBy s st (.pop v) st.dequeued.length op (some (.engineUnhealthy, none))
  | unacknowledged {v : Verdicts} {op : WriteOp} {rest : List WriteOp} (hqueue : st.queue = op :: rest)
    (hack : op.getWriteAckInfo = none) : AnsweredBy s st (.pop v) st.dequeued.length op none

section Flush

variable {s : Schema} {sqlite : Sqlite} {ops : List RowOp} {ctx ctx' : BatchCtx} {w : WriteWorker}
  {opIdx : ℕ} {u : Unit}

lemma rejected_one {op : RowOp} (h : runOps s sqlite false opIdx [op] ctx = .ok u ctx') :
    ∃ b c, executeEntry s sqlite op ctx = .ok b c ∧
      ctx'.guardRejected = if b then ctx.guardRejected else ctx.guardRejected ++ [opIdx] := by
  obtain ⟨b, c, hexec, hguard⟩ := runOps_one h
  obtain ⟨es, haccounts⟩ := executeEntry_accounts hexec
  have hkept := haccounts.tracked.rejected
  refine ⟨b, c, hexec, ?_⟩
  cases b with
  | true =>
    cases hguard
    exact hkept
  | false =>
    rw [guardOutcome_false hguard, ← hkept]
    rfl

lemma runOps_rejected_before {i : ℕ} (h : runOps s sqlite false opIdx ops ctx = .ok u ctx')
    (hi : i < opIdx) : i ∈ ctx'.guardRejected ↔ i ∈ ctx.guardRejected := by
  induction ops generalizing opIdx ctx with
  | nil =>
    obtain ⟨_, rfl⟩ := run_pure_eq_ok.mp h
    rfl
  | cons op ops ih =>
    obtain ⟨c, hop, hrest⟩ := runOps_cons.mp h
    obtain ⟨b, _, _, hrejected⟩ := rejected_one hop
    rw [ih hrest (Nat.lt_succ_of_lt hi), hrejected]
    split_ifs
    · rfl
    · simp [hi.ne]

lemma runOps_rejected_iff {op : RowOp} {i : ℕ} (hop : ops[i]? = some op)
    (h : runOps s sqlite false opIdx ops ctx = .ok u ctx')
    (hctx : ∀ j ∈ ctx.guardRejected, j < opIdx) :
    ∃ c c' b, runOps s sqlite false opIdx (ops.take i) ctx = .ok () c ∧
      executeEntry s sqlite op c = .ok b c' ∧ (opIdx + i ∈ ctx'.guardRejected ↔ b = false) := by
  induction ops generalizing opIdx ctx i with
  | nil => cases hop
  | cons first ops ih =>
    obtain ⟨c, hfirst, hrest⟩ := runOps_cons.mp h
    obtain ⟨b, c', hexec, hrejected⟩ := rejected_one hfirst
    cases i with
    | zero =>
      cases hop
      refine ⟨ctx, c', b, rfl, hexec, ?_⟩
      rw [Nat.add_zero, runOps_rejected_before hrest (Nat.lt_succ_self opIdx), hrejected]
      cases b with
      | true => simpa using fun hmem => Nat.lt_irrefl _ (hctx opIdx hmem)
      | false => simp
    | succ i =>
      have hc : ∀ j ∈ c.guardRejected, j < opIdx + 1 := by
        intro j hj
        rw [hrejected] at hj
        split_ifs at hj
        · exact Nat.lt_succ_of_lt (hctx j hj)
        · cases mem_append.mp hj with
          | inl hj => exact Nat.lt_succ_of_lt (hctx j hj)
          | inr hj => exact mem_singleton.mp hj ▸ Nat.lt_succ_self opIdx
      obtain ⟨c₁, c₁', b₁, hbefore, hexec₁, hiff⟩ := ih hop hrest hc
      refine ⟨c₁, c₁', b₁, ?_, hexec₁, ?_⟩
      · rw [take_succ_cons]
        exact runOps_cons.mpr ⟨c, hfirst, hbefore⟩
      · rwa [← Nat.add_assoc, Nat.add_right_comm]

lemma flushAnswer_flushed {op : RowOp} {i : ℕ} (hop : ops[i]? = some op) :
    FlushAnswer s sqlite w ops i (flushedOutcome s sqlite ops w i) := by
  unfold flushedOutcome flushOutcome
  cases htx : w.tryTransaction s sqlite false ops with
  | error e ctx => exact .failed htx
  | ok u ctx =>
    have hrun := tryTransaction_eq_ok htx
    obtain ⟨c, c', b, hbefore, hexec, hiff⟩ := runOps_rejected_iff hop hrun (by
      intro j hj
      cases hj)
    rw [Nat.zero_add] at hiff
    have hexecuted := FlushAnswer.executed hop htx hbefore hexec
    cases b with
    | true =>
      have hkept : i ∉ ctx.guardRejected := fun hm => Bool.false_ne_true (hiff.mp hm).symm
      simpa [hkept] using hexecuted
    | false =>
      have hrejected : i ∈ ctx.guardRejected := hiff.mpr rfl
      simpa [hrejected] using hexecuted

lemma batchAnswer_outcome :
    BatchAnswer s sqlite w ops ((w.batchOutcome s sqlite ops).map fun e => (.storage e.1, e.2)) := by
  unfold batchOutcome
  cases htx : w.tryTransaction s sqlite true ops with
  | error e ctx => exact .failed htx
  | ok u ctx => exact .committed htx

end Flush

namespace WriteLoop

variable {s : Schema} {batchSize : ℕ} {st : WriteLoop} {P : ℕ → WriteOp → WriteOutcome → Prop}

/-- Every dequeued operation has exactly one result, in order, unless it is still in the batch, and what was
sent are the results of those that are to be acknowledged. -/
def Accounted (P : ℕ → WriteOp → WriteOutcome → Prop) (st : WriteLoop) : Prop :=
  ∃ results : List (WriteOp × WriteOutcome), st.dequeued = results.map Prod.fst ++ st.batch.map WriteOp.row ∧
    st.sendQueue = results.filterMap (fun r => r.1.getWriteAckInfo.map fun a => (a, r.2)) ∧
    ∀ k op outcome, results[k]? = some (op, outcome) → P k op outcome

lemma Accounted.answer (h : st.Accounted P) {st' : WriteLoop} {op : WriteOp}
    {outcome : WriteOutcome} (hbatch : st.batch = []) (hbatch' : st'.batch = [])
    (hdequeued : st'.dequeued = st.dequeued ++ [op])
    (hsent : st'.sendQueue = st.sendQueue ++
      (op.getWriteAckInfo.map fun a => (a, outcome)).toList)
    (hown : P st.dequeued.length op outcome) : st'.Accounted P := by
  obtain ⟨results, hdeq, hs, ho⟩ := h
  rw [hbatch, map_nil, append_nil] at hdeq
  refine ⟨results ++ [(op, outcome)], ?_, ?_, fun k op' outcome' hk => ?_⟩
  · rw [hdequeued, hdeq, hbatch', map_nil, append_nil, map_append]
    rfl
  · rw [hsent, hs, filterMap_append, filterMap_cons, filterMap_nil]
    dsimp only
    cases op.getWriteAckInfo with
    | none => rfl
    | some ack => rfl
  · rw [getElem?_append] at hk
    split_ifs at hk with hlt
    · exact ho k op' outcome' hk
    · rw [getElem?_singleton] at hk
      split_ifs at hk with hzero
      cases hk
      rw [hdeq, length_map] at hown
      rwa [show k = results.length by omega]

lemma Accounted.flushBatch (h : st.Accounted P) {sqlite : Sqlite} {ev : LoopEvent}
    (hev : ev.flushVerdict = some sqlite) (hans : ∀ k op outcome, AnsweredBy s st ev k op outcome → P k op outcome) :
    (st.flushBatch s sqlite).Accounted P := by
  obtain ⟨results, hdequeued, hsent, hown⟩ := h
  have hlength : st.dequeued.length - st.batch.length = results.length := by
    rw [hdequeued, length_append, length_map, length_map, Nat.add_sub_cancel]
  refine ⟨results ++ st.batch.zipIdx.map fun p =>
    (.row p.1, flushedOutcome s sqlite st.batch st.worker p.2), ?_, ?_, fun k op outcome hk => ?_⟩
  · change st.dequeued = _
    have hops : (st.batch.zipIdx.map fun p : RowOp × ℕ =>
        ((.row p.1, flushedOutcome s sqlite st.batch st.worker p.2) : WriteOp × WriteOutcome)).map
          Prod.fst = st.batch.map WriteOp.row := by
      rw [map_map, ← zipIdx_map_fst 0 st.batch, map_map, zipIdx_map_fst]
      rfl
    rw [hdequeued, map_append, hops]
    exact (append_nil _).symm
  · change st.sendQueue ++ _ = _
    rw [hsent, filterMap_append, filterMap_map]
    rfl
  · rw [getElem?_append] at hk
    split_ifs at hk with hlt
    · exact hown k op outcome hk
    · rw [getElem?_map, getElem?_zipIdx, Nat.zero_add] at hk
      cases hop : st.batch[k - results.length]? with
      | none =>
        rw [hop] at hk
        cases hk
      | some row =>
        rw [hop] at hk
        cases hk
        have hanswered := AnsweredBy.flushed (s := s) hev hop (flushAnswer_flushed hop)
        rw [hlength, Nat.add_sub_cancel' (Nat.le_of_not_lt hlt)] at hanswered
        exact hans _ _ _ hanswered

lemma Accounted.flushNonempty (h : st.Accounted P) {sqlite : Sqlite} {ev : LoopEvent}
    (hev : ev.flushVerdict = some sqlite) (hans : ∀ k op outcome, AnsweredBy s st ev k op outcome → P k op outcome) :
    (st.flushNonempty s sqlite).Accounted P := by
  unfold WriteLoop.flushNonempty
  split_ifs
  · exact h
  · exact h.flushBatch hev hans

lemma batch_flushNonempty (sqlite : Sqlite) : (st.flushNonempty s sqlite).batch = [] := by
  unfold flushNonempty
  split_ifs with hempty
  · exact isEmpty_iff.mp hempty
  · rfl

lemma flushNonempty_dequeue (op : WriteOp) (rest : List WriteOp) (sqlite : Sqlite) :
    (st.dequeue op rest).flushNonempty s sqlite = (st.flushNonempty s sqlite).dequeue op rest := by
  unfold flushNonempty
  cases h : st.batch.isEmpty with
  | true =>
    have h' : (st.dequeue op rest).batch.isEmpty = true := h
    rw [h', if_pos rfl, if_pos rfl]
  | false =>
    have h' : (st.dequeue op rest).batch.isEmpty = false := h
    rw [h', if_neg Bool.false_ne_true, if_neg Bool.false_ne_true]
    rfl

lemma fields_flushNonempty (sqlite : Sqlite) : (st.flushNonempty s sqlite).queue = st.queue ∧
    (st.flushNonempty s sqlite).enqueued = st.enqueued ∧
    (st.flushNonempty s sqlite).dequeued = st.dequeued ∧ (st.flushNonempty s sqlite).mode = st.mode := by
  unfold flushNonempty
  split_ifs
  · exact ⟨rfl, rfl, rfl, rfl⟩
  · exact ⟨rfl, rfl, rfl, rfl⟩

lemma worker_flushNonempty (sqlite : Sqlite) : (st.flushNonempty s sqlite).worker =
    if st.batch = [] then st.worker else st.worker.flushBatch s sqlite st.batch := by
  unfold flushNonempty
  split_ifs with hempty hnil hnil
  · rfl
  · exact absurd (isEmpty_iff.mp hempty) hnil
  · exact absurd (isEmpty_iff.mpr hnil) hempty
  · rfl

lemma Accounted.tryEnqueueOp (h : st.Accounted P) (v : Verdicts) {op : WriteOp} {rest : List WriteOp}
    (hqueue : st.queue = op :: rest) (hmode : st.mode = .running ∨ st.mode = .draining)
    (hans : ∀ k op outcome, AnsweredBy s st (.pop v) k op outcome → P k op outcome) :
    ((st.dequeue op rest).tryEnqueueOp s v op).Accounted P := by
  have hflushed : (st.flushNonempty s v.flush).Accounted P := h.flushNonempty (by rfl) hans
  have hempty : (st.flushNonempty s v.flush).batch = [] := batch_flushNonempty v.flush
  have hlength : (st.flushNonempty s v.flush).dequeued.length = st.dequeued.length :=
    congrArg List.length (fields_flushNonempty v.flush).2.2.1
  unfold WriteLoop.tryEnqueueOp
  cases op with
  | row op =>
    obtain ⟨results, hdequeued, hsent, hown⟩ := h
    refine ⟨results, ?_, hsent, hown⟩
    change st.dequeued ++ [.row op] = _ ++ (st.batch ++ [op]).map WriteOp.row
    rw [hdequeued, append_assoc, map_append]
    rfl
  | batch entries ack =>
    dsimp only
    rw [flushNonempty_dequeue]
    refine hflushed.answer hempty hempty rfl rfl ?_
    rw [hlength]
    refine hans _ _ _ (.batch hqueue hmode ?_)
    rw [← worker_flushNonempty]
    exact batchAnswer_outcome
  | resolveSession sop =>
    dsimp only
    rw [flushNonempty_dequeue]
    exact hflushed.answer hempty hempty rfl (append_nil _).symm
      (hlength ▸ hans _ _ _ (.unacknowledged hqueue rfl))
  | checkpoint =>
    dsimp only
    rw [flushNonempty_dequeue]
    exact hflushed.answer hempty hempty rfl (append_nil _).symm
      (hlength ▸ hans _ _ _ (.unacknowledged hqueue rfl))

lemma fields_tryEnqueueOp (v : Verdicts) (op : WriteOp) : (st.tryEnqueueOp s v op).queue = st.queue ∧
    (st.tryEnqueueOp s v op).enqueued = st.enqueued ∧
    (st.tryEnqueueOp s v op).dequeued = st.dequeued ∧ (st.tryEnqueueOp s v op).mode = st.mode := by
  have hfields := @fields_flushNonempty s st v.flush
  cases op with
  | row op => exact ⟨rfl, rfl, rfl, rfl⟩
  | batch entries ack => exact hfields
  | resolveSession sop => exact hfields
  | checkpoint => exact hfields

/-- What holds between any two steps of the thread. -/
structure Sound (P : ℕ → WriteOp → WriteOutcome → Prop) (st : WriteLoop) : Prop where
  accounted : st.Accounted P
  fifo : st.enqueued = st.dequeued ++ st.queue
  idle : st.mode = .running ∨ st.mode = .draining ∨ st.batch = []

namespace Sound

lemma init (w : WriteWorker) : ({ worker := w } : WriteLoop).Sound P where
  accounted := ⟨[], rfl, rfl, by simp⟩
  fifo := rfl
  idle := .inr (.inr rfl)

lemma flushBatch (h : st.Sound P) {sqlite : Sqlite} {ev : LoopEvent} (hev : ev.flushVerdict = some sqlite)
    (hans : ∀ k op outcome, AnsweredBy s st ev k op outcome → P k op outcome) :
    (st.flushBatch s sqlite).Sound P where
  accounted := h.accounted.flushBatch hev hans
  fifo := h.fifo
  idle := .inr (.inr rfl)

lemma dequeue (h : st.Sound P) {op : WriteOp} {rest : List WriteOp} (hqueue : st.queue = op :: rest)
    (hmode : st.mode = .running ∨ st.mode = .draining) (v : Verdicts)
    (hans : ∀ k op outcome, AnsweredBy s st (.pop v) k op outcome → P k op outcome) :
    ((st.dequeue op rest).tryEnqueueOp s v op).Sound P := by
  obtain ⟨hq, henqueued, hdequeued, hm⟩ :=
    @fields_tryEnqueueOp s (st.dequeue op rest) v op
  refine ⟨h.accounted.tryEnqueueOp v hqueue hmode hans, ?_, ?_⟩
  · rw [hq, henqueued, hdequeued]
    change st.enqueued = st.dequeued ++ [op] ++ rest
    rw [h.fifo, hqueue, append_assoc]
    rfl
  · rw [hm]
    exact hmode.imp_right .inl

lemma empty (h : st.Sound P) (hrunning : st.mode ≠ .running) (hdraining : st.mode ≠ .draining) :
    st.batch = [] := (h.idle.resolve_left hrunning).resolve_left hdraining

lemma refuse (h : st.Sound P) {op : WriteOp} {rest : List WriteOp} (hmode : st.mode = .failed)
    (hqueue : st.queue = op :: rest) (hown : P st.dequeued.length op (some (.engineUnhealthy, none))) :
    ((st.dequeue op rest).pushWriteOutcome op.getWriteAckInfo (some (.engineUnhealthy, none))).Sound P := by
  have hempty : st.batch = [] := h.empty (by simp [hmode]) (by simp [hmode])
  refine ⟨h.accounted.answer hempty hempty rfl rfl hown, ?_, .inr (.inr hempty)⟩
  change st.enqueued = st.dequeued ++ [op] ++ rest
  rw [h.fifo, hqueue, append_assoc]
  rfl

lemma pop (h : st.Sound P) (v : Verdicts)
    (hans : ∀ k op outcome, AnsweredBy s st (.pop v) k op outcome → P k op outcome) :
    (st.pop s batchSize v).Sound P := by
  unfold WriteLoop.pop
  cases hqueue : st.queue with
  | nil => exact h
  | cons op rest =>
    dsimp only
    cases hmode : st.mode with
    | starting => exact h
    | stopped => exact h
    | running =>
      dsimp only
      split_ifs
      · exact h.dequeue hqueue (.inl hmode) v hans
      · exact h
    | draining => exact h.dequeue hqueue (.inr hmode) v hans
    | failed => exact h.refuse hmode hqueue (hans _ _ _ (.unhealthy hqueue hmode))

lemma enqueue (h : st.Sound P) (op : WriteOp) : (st.enqueueOp op).Sound P := by
  unfold enqueueOp
  split_ifs
  · exact h
  · refine ⟨h.accounted, ?_, h.idle⟩
    change st.enqueued ++ [op] = st.dequeued ++ (st.queue ++ [op])
    rw [h.fifo, append_assoc]

lemma withMode (h : st.Sound P) (mode : LoopMode) (hidle : mode = .running ∨ mode = .draining ∨ st.batch = []) :
    ({ st with mode } : WriteLoop).Sound P :=
  ⟨h.accounted, h.fifo, hidle⟩

lemma step (h : st.Sound P) (ev : LoopEvent)
    (hans : ∀ k op outcome, AnsweredBy s st ev k op outcome → P k op outcome) :
    (st.step s batchSize ev).Sound P := by
  cases ev with
  | enqueue op => exact h.enqueue op
  | start =>
    unfold WriteLoop.step
    dsimp only
    split_ifs
    · exact h.withMode .running (.inl rfl)
    · exact h
  | fatal =>
    unfold WriteLoop.step
    dsimp only
    split_ifs with hmode
    · exact h.withMode .failed (.inr (.inr (h.empty (by simp [hmode]) (by simp [hmode]))))
    · exact h
  | stop =>
    unfold WriteLoop.step
    dsimp only
    split_ifs
    · exact h.withMode .draining (.inr (.inl rfl))
    · exact h
  | pop v => exact h.pop v hans
  | flushDue sqlite timedOut =>
    change (st.flushDue s batchSize sqlite timedOut).Sound P
    unfold flushDue
    split_ifs
    · exact h.flushBatch rfl hans
    · exact h
  | finish sqlite =>
    unfold WriteLoop.step
    dsimp only
    split_ifs
    · refine withMode ?_ .stopped (.inr (.inr (batch_flushNonempty sqlite)))
      unfold flushNonempty
      split_ifs
      · exact h
      · exact h.flushBatch rfl hans
    · exact h

lemma ordered (h : st.Sound P) (connId : ℕ) : (st.sendQueue.map Prod.fst).filter (·.connId = connId) <+:
    (st.enqueued.filterMap WriteOp.getWriteAckInfo).filter (·.connId = connId) := by
  obtain ⟨results, hdequeued, hsent, _⟩ := h.accounted
  have hacks : st.sendQueue.map Prod.fst = (results.map Prod.fst).filterMap WriteOp.getWriteAckInfo := by
    rw [hsent, map_filterMap, filterMap_map]
    refine filterMap_congr fun r _ => ?_
    rw [Option.map_map]
    exact Option.map_id'
  rw [hacks, h.fifo, hdequeued, append_assoc, filterMap_append, filter_append]
  exact prefix_append _ _

end Sound

lemma failed_step {ev : LoopEvent} (h : (st.step s batchSize ev).mode = .failed) : st.mode = .failed ∨ ev = .fatal := by
  cases ev with
  | fatal => exact .inr rfl
  | pop v =>
    refine .inl ?_
    change (st.pop s batchSize v).mode = _ at h
    unfold pop at h
    split at h
    · exact h
    · rename_i op rest _
      have hmode := (@fields_tryEnqueueOp s (st.dequeue op rest) v op).2.2.2
      split at h
      · split_ifs at h
        · exact hmode.symm.trans h
        · exact h
      · exact hmode.symm.trans h
      · assumption
      · exact h
  | enqueue op =>
    change (st.enqueueOp op).mode = _ at h
    unfold enqueueOp at h
    split_ifs at h <;> exact .inl h
  | flushDue sqlite timedOut =>
    change (st.flushDue s batchSize sqlite timedOut).mode = _ at h
    unfold flushDue at h
    split_ifs at h <;> exact .inl h
  | start | stop | finish sqlite =>
    unfold WriteLoop.step at h
    dsimp only at h
    split_ifs at h
    exact .inl h

end WriteLoop

/-- In every run of the thread every dequeued operation that is to be acknowledged is answered exactly
once, in the order of the queue, or still waits in the batch: by the event of the run that flushes or
executes it, as the transaction of this event comes out, or with a refusal after a fatal error at the start.
The batch is answered whole by the flush that is due when it has waited, and by the end of the drain. -/
theorem outcomes_exactly_once (s : Schema) (batchSize : ℕ) (w : WriteWorker) (events : List LoopEvent) :
    let run := fun events => events.foldl (WriteLoop.step s batchSize) { worker := w }
    let st := run events
    (∃ results : List (WriteOp × WriteOutcome), st.dequeued = results.map Prod.fst ++ st.batch.map WriteOp.row ∧
      st.sendQueue = results.filterMap (fun r => r.1.getWriteAckInfo.map fun a => (a, r.2)) ∧
      ∀ k op outcome, results[k]? = some (op, outcome) → ∃ before ev after, events = before ++ ev :: after ∧
        AnsweredBy s (run before) ev k op outcome) ∧
    (st.mode = .failed → .fatal ∈ events) ∧
    st.enqueued = st.dequeued ++ st.queue ∧
    (∀ connId, (st.sendQueue.map Prod.fst).filter (·.connId = connId) <+:
      (st.enqueued.filterMap WriteOp.getWriteAckInfo).filter (·.connId = connId)) ∧
    (st.mode = .stopped ∨ st.mode = .failed → st.batch = []) ∧
    (st.mode = .running → ∀ sqlite,
      (st.step s batchSize (.flushDue sqlite true)).batch = []) ∧
    (st.mode = .draining → st.queue = [] → ∀ sqlite,
      (st.step s batchSize (.finish sqlite)).batch = []) := by
  intro run st
  have hsound : st.Sound fun k op outcome => ∃ before ev after, events = before ++ ev :: after ∧
      AnsweredBy s (run before) ev k op outcome :=
    invariant_at (.init w) fun before ev after hsplit h =>
      h.step ev fun k op outcome hans => ⟨before, ev, after, hsplit, hans⟩
  have hfailed : st.mode = .failed → .fatal ∈ events :=
    @invariant_at _ _ (WriteLoop.step s batchSize) events (fun st => st.mode = .failed → .fatal ∈ events) _
      (fun h => by cases h) fun before ev after hsplit h hmode => by
        obtain hmode | rfl := failed_step hmode
        · exact h hmode
        · exact hsplit ▸ mem_append_right _ mem_cons_self
  refine ⟨hsound.accounted, hfailed, hsound.fifo, hsound.ordered, ?_, ?_, ?_⟩
  · rintro (hmode | hmode)
    · exact hsound.empty (by simp [hmode]) (by simp [hmode])
    · exact hsound.empty (by simp [hmode]) (by simp [hmode])
  · intro hmode sqlite
    change (st.flushDue s batchSize sqlite true).batch = []
    unfold flushDue
    split_ifs with hdue
    · rfl
    · by_contra hne
      exact hdue ⟨hmode, Or.inr ⟨rfl, hne⟩⟩
  · intro hmode hqueue sqlite
    unfold WriteLoop.step
    dsimp only
    rw [if_pos ⟨hmode, hqueue⟩]
    exact batch_flushNonempty sqlite

end ZyncBase
