import ZyncBase.Actions.Responses

/-! How many calls of each connection wait, and how they are counted, when allocations of an admission may
fail: the count agrees with the calls unless the first call of a connection fails between the two. -/
namespace ZyncBase

open AssocMap ActionServer

/-- An allocation of an admission that fails: of the forward, of the worker's entry in the outbox, of its
bytes, of the caller's count, or of the call that waits. -/
inductive AdmissionFault where
  | forward | outbox | staging | count | pending
  deriving DecidableEq, Repr

namespace ActionServer

section Admissions

variable (cfg : ActionConfig)

def refuses (connId : ℕ) (a : ActionServer) : Bool :=
  maxPendingPerConnection ≤ (find eqKey connId a.pendingCounts).getD 0

/-- The entry of the worker stays when its bytes cannot be appended. -/
def stageForwardOr (fault : Option AdmissionFault) (workerConnId : ℕ) (f : Forward) (a : ActionServer) :
    ActionServer :=
  let entry := find eqKey workerConnId a.outbox
  let staged := entry.getD {}
  if fault = some .outbox ∧ entry.isNone then a
  else if fault = some .staging ∧ staged.capacity < ((staged.bytes ++ [f]).map cfg.size).sum then
    { a with outbox := put eqKey workerConnId staged a.outbox }
  else a.stageForward cfg workerConnId f

/-- The count is looked up, or begun with zero, before the call is put, and raised after it. -/
def addPendingOr (fault : Option AdmissionFault) (execId : ℕ) (call : PendingCall) (opening : ℕ)
    (a : ActionServer) : ActionServer × Bool :=
  let count := find eqKey call.callerConnId a.pendingCounts
  if fault = some .count ∧ count.isNone then (a, false)
  else if a.refuses call.callerConnId then (a, false)
  else if fault = some .pending then
    ({ a with pendingCounts := put eqKey call.callerConnId (count.getD 0) a.pendingCounts }, false)
  else (a.addPending execId call opening, true)

def forwardCallOr (fault : Option AdmissionFault) (connId : ℕ) (c : Connection SessionClaims)
    (reqId : ℕ) (actionId : ℕ) (action : Action) (info : ScopeInfo) (params : Payload) (deadlineNs : ℤ)
    (a : ActionServer) : ActionServer :=
  let key : RegistryKey := ⟨action.scope, info.namespaceId, actionId⟩
  match a.registry.pickWorker key with
  | none => a
  | some (worker, registry) =>
    let ctx := c.baseCtx connId
    let f : Forward :=
      ⟨a.nextExecId, ctx.userDocId, actionId, params, forwardClaims action.claims ctx.sessionClaims, key⟩
    if fault = some .forward then a.picked registry
    else if !action.isSync then (a.picked registry).stageForwardOr cfg fault worker f
    else
      match (a.picked registry).addPendingOr fault a.nextExecId
        ⟨connId, worker, reqId, actionId, action.scope, deadlineNs⟩ c.opening with
      | (a, false) => a
      | (a, true) => sendTo cfg worker (.forward f) (a.flushWorker cfg worker)

def callOr (fault : Option AdmissionFault) (connId reqId actionId : ℕ) (params : Payload)
    (clientTimeoutMs : Option ℕ) (nowNs : ℤ) (a : ActionServer) : ActionServer :=
  match a.server.map connId with
  | none => a
  | some c =>
    if c.session.isNone then a
    else
      match admitCall cfg.authConfig cfg.actions (c.baseCtx connId) actionId params with
      | .error _ => a
      | .ok (action, info) =>
        let timeoutMs := (clientTimeoutMs.map (min · defaultTimeoutMs)).getD defaultTimeoutMs
        a.forwardCallOr cfg fault connId c reqId actionId action info params (nowNs + timeoutMs * 1000000)

lemma callOr_none (connId reqId actionId : ℕ) (params : Payload) (clientTimeoutMs : Option ℕ) (nowNs : ℤ)
    (a : ActionServer) : a.callOr cfg none connId reqId actionId params clientTimeoutMs nowNs =
      a.call cfg connId reqId actionId params clientTimeoutMs nowNs := by
  have hforward : forwardCallOr cfg none = forwardCall cfg := by
    funext connId c reqId actionId action info params deadlineNs a
    unfold forwardCallOr forwardCall
    dsimp only
    cases a.registry.pickWorker ⟨action.scope, info.namespaceId, actionId⟩ with
    | none => rfl
    | some r =>
      obtain ⟨worker, registry⟩ := r
      dsimp only
      rw [if_neg (by simp)]
      cases action.isSync with
      | false => simp [stageForwardOr, picked]
      | true =>
        rw [if_neg (by simp), if_neg (by simp)]
        by_cases hlimit : maxPendingPerConnection ≤ (find eqKey connId a.pendingCounts).getD 0
        · simp [addPendingOr, refuses, picked, hlimit]
        · simp [addPendingOr, refuses, picked, hlimit]
  unfold callOr
  rw [hforward]
  rfl

end Admissions

/-- How many calls of a connection wait. -/
def callsOf (connId : ℕ) (a : ActionServer) : ℕ := a.pending.countP fun e => e.2.callerConnId = connId

/-- The counts are those of the calls that wait, within the limit, and a connection is refused another call
exactly when it has as many as that. -/
structure CountsAgree (a : ActionServer) : Prop where
  counted : ∀ connId, find eqKey connId a.pendingCounts =
    if a.callsOf connId = 0 then none else some (a.callsOf connId)
  bounded : ∀ connId, a.callsOf connId ≤ maxPendingPerConnection
  refused : ∀ connId, a.refuses connId ↔ a.callsOf connId = maxPendingPerConnection

/-- What holds between any two changes. -/
structure Tallied (a : ActionServer) : Prop extends CountsAgree a where
  distinct : Distinct eqKey a.pending
  issued : ∀ e ∈ a.pending, e.1 < a.nextExecId

variable {cfg : ActionConfig} {tells : Tells} {a b : ActionServer}

section Changes

lemma refuses_iff {n : ℕ} {connId : ℕ} (hcount : find eqKey connId a.pendingCounts = if n = 0 then none else some n)
    (hn : n ≤ maxPendingPerConnection) : a.refuses connId ↔ n = maxPendingPerConnection := by
  unfold refuses
  rw [hcount, decide_eq_true_eq]
  split_ifs with hzero
  · rw [hzero]
    simp [maxPendingPerConnection]
  · rw [Option.getD_some]
    omega

lemma Tallied.of_counts (hcounted : ∀ connId, find eqKey connId a.pendingCounts =
    if a.callsOf connId = 0 then none else some (a.callsOf connId))
    (hbounded : ∀ connId, a.callsOf connId ≤ maxPendingPerConnection) (hd : Distinct eqKey a.pending)
    (hissued : ∀ e ∈ a.pending, e.1 < a.nextExecId) : a.Tallied :=
  ⟨⟨hcounted, hbounded, fun connId => refuses_iff (hcounted connId) (hbounded connId)⟩, hd, hissued⟩

/-- The calls and their counts are the same. -/
structure SameCalls (a b : ActionServer) : Prop where
  pending : b.pending = a.pending
  counts : b.pendingCounts = a.pendingCounts
  issued : a.nextExecId ≤ b.nextExecId

lemma SameCalls.callsOf (h : SameCalls a b) (connId : ℕ) : b.callsOf connId = a.callsOf connId := by
  rw [ActionServer.callsOf, h.pending, ActionServer.callsOf]

lemma Tallied.same (h : a.Tallied) (hs : SameCalls a b) : b.Tallied := by
  refine .of_counts (fun connId => ?_) (fun connId => ?_) ?_ fun e he => ?_
  · rw [hs.counts, hs.callsOf]
    exact h.counted connId
  · rw [hs.callsOf]
    exact h.bounded connId
  · rw [hs.pending]
    exact h.distinct
  · rw [hs.pending] at he
    exact (h.issued e he).trans_le hs.issued

lemma sameCalls_clearStaged (connId : ℕ) (staged : StagedForwards) (a : ActionServer) :
    SameCalls a (a.clearStaged connId staged) := by
  unfold clearStaged
  cases find eqKey connId a.outbox <;> exact ⟨rfl, rfl, le_rfl⟩

lemma sameCalls_severed (connId n : ℕ) (a : ActionServer) :
    SameCalls a (({ a with sends := n } : ActionServer).severed connId) := by
  unfold severed dropStaged
  dsimp only
  cases find eqKey connId a.outbox <;> exact ⟨rfl, rfl, le_rfl⟩

lemma Tallied.removePending (h : a.Tallied) {execId : ℕ} {p : PendingCall}
    (hr : a.removePending execId = some (p, b)) : b.Tallied := by
  have hsub := sublist_removePending hr
  unfold ActionServer.removePending at hr
  cases hp : find eqKey execId a.pending with
  | none =>
    rw [hp] at hr
    cases hr
  | some q =>
    rw [hp] at hr
    cases hr
    have hperm := perm_remove h.distinct hp
    have hcalls (connId : ℕ) : a.callsOf connId =
        (remove eqKey execId a.pending).countP (fun e => e.2.callerConnId = connId) +
          if p.callerConnId = connId then 1 else 0 := by
      rw [callsOf, hperm.countP_eq, List.countP_cons]
      simp
    have hone := hcalls p.callerConnId
    rw [if_pos rfl] at hone
    have hcount := h.counted p.callerConnId
    rw [if_neg (by omega)] at hcount
    refine .of_counts (fun connId => ?_) (fun connId => ?_) (h.distinct.sublist hsub)
      fun e he => h.issued e (hsub.subset he)
    · have hold := h.counted connId
      have hnew := hcalls connId
      dsimp only
      rw [hcount]
      dsimp only
      change _ = if (remove eqKey execId a.pending).countP _ = 0 then _ else some (List.countP _ _)
      by_cases hid : p.callerConnId = connId
      · subst hid
        rw [show a.callsOf p.callerConnId - 1 = (remove eqKey execId a.pending).countP
          (fun e => e.2.callerConnId = p.callerConnId) by omega]
        split_ifs with hlast
        · rw [find_remove_of, if_pos rfl]
        · rw [find_put_self]
      · rw [if_neg hid, Nat.add_zero] at hnew
        rw [← hnew, ← hold]
        split_ifs
        · rw [find_remove_of, if_neg hid]
        · rw [find_put_of, if_neg hid]
    · have hold := h.bounded connId
      rw [hcalls] at hold
      exact (Nat.le_add_right _ _).trans hold

lemma Tallied.dropPending (h : a.Tallied) (execId : ℕ) : (a.dropPending execId).Tallied := by
  unfold ActionServer.dropPending
  cases hr : a.removePending execId with
  | none => exact h
  | some r => exact h.removePending hr

lemma Tallied.detach (h : a.Tallied) (connId n : ℕ) :
    (({ a with sends := n } : ActionServer).detach connId).Tallied :=
  List.foldlRecOn _ _ (h.same (sameCalls_severed connId n a)) fun _ hb execId _ => hb.dropPending execId

lemma Tallied.micro (h : a.Tallied) (hstep : Micro cfg tells a b) : b.Tallied := by
  cases hstep with
  | cut connId n _ => exact h.detach connId n
  | answered body hr _ _ => exact (h.removePending hr).same ⟨rfl, rfl, le_rfl⟩
  | unanswered hr _ => exact h.removePending hr
  | refused hr _ => exact (h.removePending hr).detach _ _
  | flushed _ _ =>
    refine Tallied.same ?_ (sameCalls_clearStaged ..)
    exact h.same ⟨rfl, rfl, le_rfl⟩
  | forgotten _ _ => exact h.same (sameCalls_clearStaged ..)
  | overwritten _ _ => exact h.same (sameCalls_clearStaged ..)

lemma Tallied.steps (h : a.Tallied) (hsteps : Steps cfg tells a b) : b.Tallied :=
  hsteps.invariant (fun _ _ h hstep => h.micro hstep) h

lemma Tallied.stage (h : a.Tallied) (hstage : Stage cfg tells a b) : b.Tallied := by
  obtain hsteps | ⟨registry, server, -, rfl⟩ | ⟨execId, -, -, -, rfl⟩ := hstage.split h.distinct
  · exact h.steps hsteps
  · exact h.same ⟨rfl, rfl, le_rfl⟩
  · exact h.dropPending execId

lemma Tallied.addPending (h : a.Tallied) (registry : ActionRegistry) (call : PendingCall) (opening : ℕ)
    (hroom : a.refuses call.callerConnId = false) :
    ((a.picked registry).addPending a.nextExecId call opening).Tallied := by
  have hnew : find eqKey a.nextExecId a.pending = none := by
    cases hfind : find eqKey a.nextExecId a.pending with
    | none => rfl
    | some p =>
      obtain ⟨id, hid, hmem⟩ := mem_of_find eqKey hfind
      have hlt := h.issued _ hmem
      rw [(eqKey_iff _ _).mp hid] at hlt
      exact absurd hlt (lt_irrefl _)
  have hperm := perm_put (v := call) (k := a.nextExecId) h.distinct
  rw [remove_of_find_none hnew] at hperm
  have hcalls (connId : ℕ) : (put eqKey a.nextExecId call a.pending).countP
      (fun e => e.2.callerConnId = connId) = a.callsOf connId +
        if call.callerConnId = connId then 1 else 0 := by
    rw [hperm.countP_eq, List.countP_cons, callsOf]
    simp
  have hle : a.callsOf call.callerConnId + 1 ≤ maxPendingPerConnection := by
    have hle := h.bounded call.callerConnId
    have hne : a.callsOf call.callerConnId ≠ maxPendingPerConnection := by
      intro hfull
      rw [← h.refused, hroom] at hfull
      cases hfull
    omega
  refine .of_counts (fun connId => ?_) (fun connId => ?_) (distinct_put eqKey h.distinct) fun e he => ?_
  · change find eqKey connId (put eqKey call.callerConnId
      ((find eqKey call.callerConnId a.pendingCounts).getD 0 + 1) a.pendingCounts) =
        if List.countP _ (put eqKey a.nextExecId call a.pending) = 0 then _ else
          some (List.countP _ (put eqKey a.nextExecId call a.pending))
    rw [hcalls, find_put_of]
    by_cases hid : call.callerConnId = connId
    · subst hid
      rw [if_pos rfl, if_pos rfl, if_neg (by omega), h.counted]
      split_ifs with hzero
      · rw [hzero]
        rfl
      · rfl
    · rw [if_neg hid, if_neg hid, h.counted, Nat.add_zero]
  · change List.countP _ (put eqKey a.nextExecId call a.pending) ≤ _
    rw [hcalls]
    split_ifs with hid
    · exact hid ▸ hle
    · exact h.bounded connId
  · rcases List.mem_cons.mp (hperm.mem_iff.mp he) with rfl | he
    · exact Nat.lt_succ_self _
    · exact (h.issued e he).trans (Nat.lt_succ_self _)

end Changes

section Runs

lemma Tallied.onOpen (h : a.Tallied) (connId : ℕ) (sess : Session SessionClaims) (slot : ℕ) :
    ({ a with server := a.server.onOpen connId sess slot } : ActionServer).Tallied :=
  h.same ⟨rfl, rfl, le_rfl⟩

lemma Tallied.sendTo (h : a.Tallied) (connId : ℕ) (frame : Frame) :
    (sendTo cfg connId frame a).Tallied := by
  obtain hsteps | ⟨c, -, hsent⟩ := steps_sendTo_cases cfg anything connId frame h.distinct
  · exact h.steps hsteps
  · rw [hsent]
    exact h.same ⟨rfl, rfl, le_rfl⟩

lemma sameCalls_stageForwardOr (fault : Option AdmissionFault) (workerConnId : ℕ) (f : Forward)
    (a : ActionServer) : SameCalls a (a.stageForwardOr cfg fault workerConnId f) := by
  unfold stageForwardOr
  dsimp only
  split_ifs <;> exact ⟨rfl, rfl, le_rfl⟩

lemma addPendingOr_cases (fault : Option AdmissionFault) (execId : ℕ) (call : PendingCall) (opening : ℕ)
    (a : ActionServer) :
    (fault = some .pending → a.refuses call.callerConnId = true) ∧
        a.addPendingOr fault execId call opening = (a, false) ∨
      fault = some .pending ∧ a.refuses call.callerConnId = false ∧ a.addPendingOr fault execId call opening =
        ({ a with
          pendingCounts := put eqKey call.callerConnId
            ((find eqKey call.callerConnId a.pendingCounts).getD 0) a.pendingCounts }, false) ∨
      fault ≠ some .pending ∧ a.refuses call.callerConnId = false ∧
        a.addPendingOr fault execId call opening = (a.addPending execId call opening, true) := by
  unfold addPendingOr
  dsimp only
  split_ifs with hcount hrefuses hpending
  · exact .inl ⟨fun hf => absurd (hcount.1.symm.trans hf) nofun, rfl⟩
  · exact .inl ⟨fun _ => hrefuses, rfl⟩
  · exact .inr (.inl ⟨hpending, by simpa using hrefuses, rfl⟩)
  · exact .inr (.inr ⟨hpending, by simpa using hrefuses, rfl⟩)

/-- The call gets as far as to be put among those that wait. -/
def reachesPut (cfg : ActionConfig) (connId actionId : ℕ) (params : Payload) (a : ActionServer) : Bool :=
  match a.server.map connId with
  | none => false
  | some c => c.session.isSome &&
    match admitCall cfg.authConfig cfg.actions (c.baseCtx connId) actionId params with
    | .error _ => false
    | .ok (action, info) =>
      action.isSync && (a.registry.pickWorker ⟨action.scope, info.namespaceId, actionId⟩).isSome

/-- What becomes of a call, with a fault or without: it is put among those that wait, or is not when its
allocation fails, or none of this is reached. -/
lemma Tallied.callOr_cases (h : a.Tallied) (fault : Option AdmissionFault) (connId reqId actionId : ℕ)
    (params : Payload) (clientTimeoutMs : Option ℕ) (nowNs : ℤ) :
    (a.callOr cfg fault connId reqId actionId params clientTimeoutMs nowNs).Tallied ∧
        (fault = some .pending → a.refuses connId = false →
          a.reachesPut cfg connId actionId params = false) ∨
      fault = some .pending ∧ a.refuses connId = false ∧ a.reachesPut cfg connId actionId params ∧
        ∃ registry, a.callOr cfg fault connId reqId actionId params clientTimeoutMs nowNs =
          { a.picked registry with
            pendingCounts := put eqKey connId ((find eqKey connId a.pendingCounts).getD 0) a.pendingCounts } := by
  unfold callOr reachesPut
  cases a.server.map connId with
  | none => exact .inl ⟨h, fun _ _ => rfl⟩
  | some c =>
    dsimp only
    cases c.session with
    | none => exact .inl ⟨h, fun _ _ => rfl⟩
    | some sess =>
      rw [Option.isNone_some, if_neg Bool.false_ne_true, Option.isSome_some, Bool.true_and]
      cases admitCall cfg.authConfig cfg.actions (c.baseCtx connId) actionId params with
      | error e => exact .inl ⟨h, fun _ _ => rfl⟩
      | ok r =>
        obtain ⟨action, info⟩ := r
        dsimp only
        unfold forwardCallOr
        dsimp only
        cases a.registry.pickWorker ⟨action.scope, info.namespaceId, actionId⟩ with
        | none => exact .inl ⟨h, fun _ _ => by simp⟩
        | some picked =>
          obtain ⟨worker, registry⟩ := picked
          dsimp only
          have hpicked : (a.picked registry).Tallied := h.same ⟨rfl, rfl, Nat.le_succ _⟩
          by_cases hforward : fault = some .forward
          · rw [if_pos hforward]
            exact .inl ⟨hpicked, fun hf => absurd (hforward.symm.trans hf) nofun⟩
          rw [if_neg hforward]
          cases action.isSync with
          | false =>
            rw [if_pos (by simp)]
            exact .inl ⟨hpicked.same (sameCalls_stageForwardOr ..), fun _ _ => rfl⟩
          | true =>
            rw [if_neg (by simp)]
            rcases addPendingOr_cases fault a.nextExecId
              ⟨connId, worker, reqId, actionId, action.scope, _⟩ c.opening (a.picked registry) with
              ⟨hrefused, heq⟩ | ⟨hpending, hroom, heq⟩ | ⟨hpending, hroom, heq⟩
            · rw [heq]
              exact .inl ⟨hpicked, fun hf hroom => absurd ((hrefused hf).symm.trans hroom) nofun⟩
            · rw [heq]
              exact .inr ⟨hpending, hroom, rfl, registry, rfl⟩
            · rw [heq]
              refine .inl ⟨Tallied.sendTo ?_ worker _, fun hf => absurd hf hpending⟩
              have hadded := h.addPending registry ⟨connId, worker, reqId, actionId, action.scope, _⟩
                c.opening hroom
              exact hadded.steps (steps_flushWorker cfg anything worker hadded.distinct)

lemma Tallied.step (h : a.Tallied) (ev : ActionEvent) : (a.step cfg ev).Tallied := by
  cases hev : ev.goesOn with
  | true => exact (stages_step hev).invariant (fun _ _ _ h hstage => h.stage hstage) h.distinct h
  | false =>
    cases ev with
    | «open» connId sess slot => exact h.onOpen connId sess slot
    | call connId reqId actionId params clientTimeoutMs nowNs =>
      change (a.call cfg connId reqId actionId params clientTimeoutMs nowNs).Tallied
      rw [← callOr_none]
      obtain ⟨h, -⟩ | ⟨hf, -⟩ := h.callOr_cases none connId reqId actionId params clientTimeoutMs nowNs
      · exact h
      · cases hf
    | _ => cases hev

end Runs
end ActionServer

/-- What happens on the event loop, where the allocations of an admission may fail. -/
inductive AdmissionEvent where
  | event (ev : ActionEvent)
  | failingCall (fault : AdmissionFault) (connId reqId actionId : ℕ) (params : Payload)
    (clientTimeoutMs : Option ℕ) (nowNs : ℤ)

namespace ActionServer

def stepOr (cfg : ActionConfig) (a : ActionServer) : AdmissionEvent → ActionServer
  | .event ev => a.step cfg ev
  | .failingCall fault connId reqId actionId params clientTimeoutMs nowNs =>
    a.callOr cfg (some fault) connId reqId actionId params clientTimeoutMs nowNs

/-- No call of a connection that has none waiting fails as it is put among those that wait. -/
def PutsFirst (cfg : ActionConfig) (a : ActionServer) : AdmissionEvent → Prop
  | .failingCall .pending connId _ actionId params _ _ =>
    a.reachesPut cfg connId actionId params → a.callsOf connId ≠ 0
  | _ => True

variable {cfg : ActionConfig} {a : ActionServer}

lemma Tallied.stepOr (h : a.Tallied) (e : AdmissionEvent) :
    ((a.PutsFirst cfg e → (a.stepOr cfg e).Tallied)) ∧ ((a.stepOr cfg e).CountsAgree → a.PutsFirst cfg e) := by
  cases e with
  | event ev => exact ⟨fun _ => h.step ev, fun _ => trivial⟩
  | failingCall fault connId reqId actionId params clientTimeoutMs nowNs =>
    obtain ⟨hnext, hreaches⟩ | ⟨hfault, hroom, hreaches, registry, heq⟩ := h.callOr_cases
      (some fault) connId reqId actionId params clientTimeoutMs nowNs
    · refine ⟨fun _ => hnext, fun _ => ?_⟩
      cases fault with
      | pending =>
        intro hput hnone
        have hroom : a.refuses connId = false := by
          rw [← Bool.not_eq_true, h.refused, hnone]
          decide
        rw [hreaches rfl hroom] at hput
        cases hput
      | _ => trivial
    · cases hfault
      change (_ → Tallied (a.callOr cfg _ connId reqId actionId params clientTimeoutMs nowNs)) ∧
        (CountsAgree (a.callOr cfg _ connId reqId actionId params clientTimeoutMs nowNs) → _)
      rw [heq]
      constructor
      · intro hcond
        have hcount := h.counted connId
        rw [if_neg (hcond hreaches)] at hcount
        have hsame : put eqKey connId ((find eqKey connId a.pendingCounts).getD 0) a.pendingCounts =
            a.pendingCounts := by
          rw [hcount, Option.getD_some]
          exact put_eq_self hcount
        exact h.same ⟨rfl, hsame, Nat.le_succ _⟩
      · intro hagree _ hnone
        have hcount := hagree.counted connId
        change find eqKey connId (put eqKey connId _ a.pendingCounts) =
          if a.callsOf connId = 0 then none else some (a.callsOf connId) at hcount
        rw [find_put_self, if_pos hnone] at hcount
        cases hcount

lemma tallied_init : ({} : ActionServer).Tallied :=
  .of_counts (fun _ => rfl) (fun _ => Nat.zero_le _) List.Pairwise.nil fun _ he => absurd he List.not_mem_nil

/-- Whatever happens on the event loop, the counts agree with the calls that wait after each step exactly
as long as no call of a connection that has none waiting fails as it is put among those that wait. -/
theorem pending_counts_iff (cfg : ActionConfig) (events : List AdmissionEvent) :
    Machine.Along (stepOr cfg) (fun a e => (a.stepOr cfg e).CountsAgree) {} events ↔
      Machine.Along (stepOr cfg) (PutsFirst cfg) {} events := by
  refine Machine.along_iff (I := Tallied) (fun a e _ h hcond => (h.stepOr e).1 hcond)
    (fun a e _ h => ⟨(h.stepOr e).2, fun hcond => ?_⟩) tallied_init
  exact ((h.stepOr e).1 hcond).toCountsAgree

end ActionServer

namespace PendingCountExample

open SupersedingExample

/-- Connection 2 calls the action for the first time, and the call cannot be put among those that wait. -/
def failingFirst : List AdmissionEvent :=
  (switchNamespace.take 5).map .event ++ [.failingCall .pending 2 9 0 (.arr []) none 0]

/-- A count of zero is left behind. -/
theorem failingFirst_counts : ¬ ∀ events : List AdmissionEvent,
    (events.foldl (stepOr config) {}).CountsAgree := by
  intro h
  have hcounted := (h failingFirst).counted 2
  have hcount : find eqKey 2 (failingFirst.foldl (stepOr config) {}).pendingCounts = some 0 := rfl
  have hcalls : (failingFirst.foldl (stepOr config) {}).callsOf 2 = 0 := rfl
  rw [hcount, hcalls, if_pos rfl] at hcounted
  cases hcounted

end PendingCountExample
end ZyncBase
