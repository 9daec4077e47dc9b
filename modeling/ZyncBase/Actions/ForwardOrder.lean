import ZyncBase.Actions.Responses

/-! The order in which a worker gets its forwards: what its connection has been sent and what is staged for
it are together the calls that have been routed to it, in the order of their admission. -/
namespace ZyncBase

open AssocMap Function List

/-- A forward that has been admitted, the worker that it is routed to, and when that connection was
opened. -/
structure RoutedForward where
  worker : ℕ
  opening : Option ℕ
  forward : Forward

/-- The forwards for one opening of a connection, in the order of their admission. -/
def routedTo (connId opening : ℕ) (log : List RoutedForward) : List Forward :=
  (log.filter fun r => r.worker = connId ∧ r.opening = some opening).map RoutedForward.forward

namespace ActionServer

variable (cfg : ActionConfig)

/-- The forward that an event admits: that of a call which is authorized and valid, has a worker, and is not
one too many. -/
def admits (a : ActionServer) : ActionEvent → Option RoutedForward
  | .call connId _ actionId params _ _ =>
    match a.server.map connId with
    | none => none
    | some c =>
      if c.session.isNone then none
      else
        match admitCall cfg.authConfig cfg.actions (c.baseCtx connId) actionId params with
        | .error _ => none
        | .ok (action, info) =>
          let key : RegistryKey := ⟨action.scope, info.namespaceId, actionId⟩
          match a.registry.pickWorker key with
          | none => none
          | some (worker, _) =>
            if action.isSync ∧ maxPendingPerConnection ≤ (find eqKey connId a.pendingCounts).getD 0 then none
            else
              let ctx := c.baseCtx connId
              some ⟨worker, a.server.openings worker, ⟨a.nextExecId, ctx.userDocId, actionId, params,
                forwardClaims action.claims ctx.sessionClaims, key⟩⟩
  | _ => none

def admissions : ActionServer → List ActionEvent → List RoutedForward
  | _, [] => []
  | a, ev :: events => (a.admits cfg ev).toList ++ admissions (a.step cfg ev) events

/-- The forwards that a connection has been sent since it was opened. -/
def received (connId opening : ℕ) (a : ActionServer) : List Forward :=
  (a.sent.filter fun s => s.connId = connId ∧ s.conn.opening = opening).flatMap fun s => s.frame.forwards

def stagedFor (connId : ℕ) (a : ActionServer) : List Forward :=
  ((find eqKey connId a.outbox).map StagedForwards.bytes).getD []

/-- What an open connection has been sent, and what is staged for it, are the forwards routed to it; one
that has been closed was sent the first of them. -/
structure InOrder (log : List RoutedForward) (a : ActionServer) : Prop where
  delivered : ∀ connId opening, a.server.openings connId = some opening →
    a.received connId opening ++ a.stagedFor connId = routedTo connId opening log
  sentFirst : ∀ connId opening, a.received connId opening <+: routedTo connId opening log
  unstaged : ∀ connId, a.server.openings connId = none → a.stagedFor connId = []
  opened : ∀ r ∈ log, ∃ opening, r.opening = some opening ∧ opening < a.server.opened
  issued : ∀ r ∈ log, r.forward.execId < a.nextExecId
  sorted : log.Pairwise fun r r' => r.forward.execId < r'.forward.execId

variable {cfg} {tells : Tells} {a b : ActionServer} {log : List RoutedForward}

section Changes

lemma received_concat (s : Sent) (n connId opening : ℕ) (a : ActionServer) :
    ({ a with sends := n, sent := a.sent ++ [s] } : ActionServer).received connId opening =
      a.received connId opening ++
        if s.connId = connId ∧ s.conn.opening = opening then s.frame.forwards else [] := by
  unfold received
  dsimp only
  rw [filter_append, flatMap_append, filter_singleton]
  split_ifs with h
  · simp [h]
  · simp [h]

lemma stagedFor_detach (connId id : ℕ) (a : ActionServer) :
    (a.detach connId).stagedFor id = if connId = id then [] else a.stagedFor id := by
  unfold stagedFor
  rw [find_outbox_detach]
  split_ifs <;> rfl

lemma stagedFor_clearStaged (connId id : ℕ) (staged : StagedForwards) (a : ActionServer) :
    (a.clearStaged connId staged).stagedFor id = if connId = id then [] else a.stagedFor id := by
  by_cases hid : connId = id
  · subst hid
    rw [if_pos rfl]
    unfold stagedFor clearStaged
    cases hfind : find eqKey connId a.outbox with
    | none =>
      dsimp only
      rw [hfind]
      rfl
    | some before =>
      dsimp only
      rw [find_put_self]
      split_ifs <;> rfl
  · rw [if_neg hid, stagedFor, find_outbox_clearStaged _ _ _ _ (Ne.symm hid), stagedFor]

lemma routedTo_concat (connId opening : ℕ) (log : List RoutedForward) (r : RoutedForward) :
    routedTo connId opening (log ++ [r]) = routedTo connId opening log ++
      if r.worker = connId ∧ r.opening = some opening then [r.forward] else [] := by
  unfold routedTo
  rw [filter_append, map_append, filter_singleton]
  split_ifs with h
  · simp [h]
  · simp [h]

/-- Changes that send no forward and stage none. -/
structure Still (a b : ActionServer) : Prop where
  openings : b.server.openings = a.server.openings
  opened : b.server.opened = a.server.opened
  received : ∀ connId opening, b.received connId opening = a.received connId opening
  staged : ∀ connId, b.stagedFor connId = a.stagedFor connId
  issued : a.nextExecId ≤ b.nextExecId

lemma InOrder.still (h : a.InOrder log) (hs : Still a b) : b.InOrder log where
  delivered connId opening hopen := by
    rw [hs.openings] at hopen
    rw [hs.received, hs.staged]
    exact h.delivered connId opening hopen
  sentFirst connId opening := by
    rw [hs.received]
    exact h.sentFirst connId opening
  unstaged connId hclosed := by
    rw [hs.openings] at hclosed
    rw [hs.staged]
    exact h.unstaged connId hclosed
  opened := by
    rw [hs.opened]
    exact h.opened
  issued r hr := (h.issued r hr).trans_le hs.issued
  sorted := h.sorted

lemma SameBut.still (hs : SameBut a b) : Still a b where
  openings := by rw [hs.server]
  opened := by rw [hs.server]
  received connId opening := by rw [received, hs.sent, received]
  staged connId := by rw [stagedFor, hs.outbox, stagedFor]
  issued := hs.nextExecId.ge

lemma Still.trans {c : ActionServer} (h : Still a b) (h' : Still b c) : Still a c where
  openings := h'.openings.trans h.openings
  opened := h'.opened.trans h.opened
  received connId opening := (h'.received connId opening).trans (h.received connId opening)
  staged connId := (h'.staged connId).trans (h.staged connId)
  issued := h.issued.trans h'.issued

lemma still_frame {s : Sent} (hs : s.frame.forwards = []) (n : ℕ) (a : ActionServer) :
    Still a { a with sends := n, sent := a.sent ++ [s] } where
  openings := rfl
  opened := rfl
  received connId opening := by rw [received_concat, hs, ite_self, append_nil]
  staged _ := rfl
  issued := le_rfl

lemma InOrder.detach (h : a.InOrder log) (connId n : ℕ) :
    (({ a with sends := n } : ActionServer).detach connId).InOrder log := by
  have hreceived (id opening : ℕ) :
      (({ a with sends := n } : ActionServer).detach connId).received id opening = a.received id opening := by
    rw [received, sent_detach, received]
  obtain ⟨-, hnext, hopened⟩ := detach_frame connId { a with sends := n }
  constructor
  · intro id opening hopen
    rw [openings_detach] at hopen
    have hid : connId ≠ id := by
      rintro rfl
      rw [update_self] at hopen
      cases hopen
    rw [update_of_ne (Ne.symm hid)] at hopen
    rw [hreceived, stagedFor_detach, if_neg hid]
    exact h.delivered id opening hopen
  · intro id opening
    rw [hreceived]
    exact h.sentFirst id opening
  · intro id hclosed
    rw [stagedFor_detach]
    split_ifs with hid
    · rfl
    · rw [openings_detach, update_of_ne (Ne.symm hid)] at hclosed
      exact h.unstaged id hclosed
  · rw [hopened]
    exact h.opened
  · rw [hnext]
    exact h.issued
  · exact h.sorted

lemma still_clearStaged (connId : ℕ) (staged : StagedForwards) (hnone : a.stagedFor connId = []) :
    Still a (a.clearStaged connId staged) := by
  have hsent : (a.clearStaged connId staged).sent = a.sent ∧
      (a.clearStaged connId staged).nextExecId = a.nextExecId := by
    unfold clearStaged
    cases find eqKey connId a.outbox <;> exact ⟨rfl, rfl⟩
  refine ⟨by rw [server_clearStaged], by rw [server_clearStaged], fun id opening => ?_, fun id => ?_,
    hsent.2.ge⟩
  · rw [received, hsent.1, received]
  · rw [stagedFor_clearStaged]
    split_ifs with hid
    · rw [← hid, hnone]
    · rfl

lemma InOrder.flushed (h : a.InOrder log) {connId : ℕ} {staged : StagedForwards}
    {c : Connection SessionClaims} (hfind : find eqKey connId a.outbox = some staged)
    (hc : a.server.map connId = some c) :
    (({ a with
      sends := a.sends + 1
      sent := a.sent ++ [⟨connId, .staged staged.bytes, c⟩] } : ActionServer).clearStaged connId
        staged).InOrder log := by
  generalize hb : ({ a with
      sends := a.sends + 1
      sent := a.sent ++ [⟨connId, .staged staged.bytes, c⟩] } : ActionServer) = b
  have hframe : (b.clearStaged connId staged).sent = b.sent ∧
      (b.clearStaged connId staged).nextExecId = b.nextExecId := by
    unfold clearStaged
    cases find eqKey connId b.outbox <;> exact ⟨rfl, rfl⟩
  have hopening : a.server.openings connId = some c.opening := by
    rw [Server.openings, hc]
    rfl
  have hstaged : a.stagedFor connId = staged.bytes := by
    rw [stagedFor, hfind]
    rfl
  have hreceived (id opening : ℕ) : (b.clearStaged connId staged).received id opening =
      a.received id opening ++ if connId = id ∧ c.opening = opening then staged.bytes else [] := by
    rw [received, hframe.1, ← received, ← hb, received_concat]
    rfl
  have hopenings : (b.clearStaged connId staged).server.openings = a.server.openings := by
    rw [server_clearStaged, ← hb]
  constructor
  · intro id opening hopen
    rw [hopenings] at hopen
    rw [hreceived, stagedFor_clearStaged, ← h.delivered id opening hopen]
    by_cases hid : connId = id
    · subst hid
      rw [hopening, Option.some.injEq] at hopen
      rw [if_pos ⟨rfl, hopen⟩, if_pos rfl, append_nil, hstaged]
    · rw [if_neg fun hboth => hid hboth.1, if_neg hid, append_nil, ← hb]
      rfl
  · intro id opening
    rw [hreceived]
    split_ifs with hboth
    · obtain ⟨rfl, rfl⟩ := hboth
      rw [← hstaged, h.delivered connId c.opening hopening]
    · rw [append_nil]
      exact h.sentFirst id opening
  · intro id hclosed
    rw [hopenings] at hclosed
    rw [stagedFor_clearStaged, ← hb]
    split_ifs
    · rfl
    · exact h.unstaged id hclosed
  · rw [server_clearStaged, ← hb]
    exact h.opened
  · rw [hframe.2, ← hb]
    exact h.issued
  · exact h.sorted

lemma InOrder.micro (h : a.InOrder log) (hstep : Micro cfg tells a b) : b.InOrder log := by
  cases hstep with
  | cut connId n _ => exact h.detach connId n
  | answered body hr _ _ =>
    exact h.still ((sameBut_removePending hr).still.trans (still_frame rfl _ _))
  | unanswered hr _ => exact h.still (sameBut_removePending hr).still
  | refused hr _ => exact (h.still (sameBut_removePending hr).still).detach _ _
  | flushed hfind hc => exact h.flushed hfind hc
  | forgotten hfind hc =>
    refine h.still (still_clearStaged _ _ (h.unstaged _ ?_))
    rw [Server.openings, hc]
    rfl
  | overwritten _ hfind =>
    refine h.still (still_clearStaged _ _ ?_)
    rw [stagedFor, hfind]
    rfl

lemma InOrder.steps (h : a.InOrder log) (hsteps : Steps cfg tells a b) : b.InOrder log :=
  hsteps.invariant (fun _ _ h hstep => h.micro hstep) h

/-- Changes open no connection and give out no exec id, and what is not staged they do not stage. -/
lemma Micro.kept (hstep : Micro cfg tells a b) : b.server.opened = a.server.opened ∧
    b.nextExecId = a.nextExecId ∧ ∀ connId, a.stagedFor connId = [] → b.stagedFor connId = [] := by
  have hdetach (connId n : ℕ) (a : ActionServer) :
      (({ a with sends := n } : ActionServer).detach connId).server.opened = a.server.opened ∧
        (({ a with sends := n } : ActionServer).detach connId).nextExecId = a.nextExecId ∧
          ∀ id, a.stagedFor id = [] →
            (({ a with sends := n } : ActionServer).detach connId).stagedFor id = [] := by
    obtain ⟨-, hnext, hopened⟩ := detach_frame connId { a with sends := n }
    refine ⟨hopened, hnext, fun id hid => ?_⟩
    rw [stagedFor_detach]
    split_ifs
    · rfl
    · exact hid
  have hclear (connId : ℕ) (staged : StagedForwards) (a : ActionServer) :
      (a.clearStaged connId staged).server.opened = a.server.opened ∧
        (a.clearStaged connId staged).nextExecId = a.nextExecId ∧
          ∀ id, a.stagedFor id = [] → (a.clearStaged connId staged).stagedFor id = [] := by
    refine ⟨by rw [server_clearStaged], ?_, fun id hid => ?_⟩
    · unfold clearStaged
      cases find eqKey connId a.outbox <;> rfl
    · rw [stagedFor_clearStaged, hid, ite_self]
  have hremoved {execId : ℕ} {p : PendingCall} {a a' : ActionServer}
      (hr : a.removePending execId = some (p, a')) : a'.server.opened = a.server.opened ∧
        a'.nextExecId = a.nextExecId ∧ ∀ id, a.stagedFor id = [] → a'.stagedFor id = [] := by
    have hs := sameBut_removePending hr
    exact ⟨by rw [hs.server], hs.nextExecId, fun id hid => by rw [stagedFor, hs.outbox]; exact hid⟩
  cases hstep with
  | cut connId n _ => exact hdetach connId n a
  | answered body hr _ _ =>
    have hkept := hremoved hr
    exact hkept
  | unanswered hr _ => exact hremoved hr
  | refused hr _ =>
    obtain ⟨hopened, hnext, hstaged⟩ := hremoved hr
    obtain ⟨hopened', hnext', hstaged'⟩ := hdetach _ _ _
    exact ⟨hopened'.trans hopened, hnext'.trans hnext, fun id hid => hstaged' id (hstaged id hid)⟩
  | flushed _ _ => exact hclear _ _ _
  | forgotten _ _ => exact hclear _ _ _
  | overwritten _ _ => exact hclear _ _ _

lemma Steps.kept (hsteps : Steps cfg tells a b) : b.server.opened = a.server.opened ∧
    b.nextExecId = a.nextExecId ∧ ∀ connId, a.stagedFor connId = [] → b.stagedFor connId = [] := by
  induction hsteps with
  | refl => exact ⟨rfl, rfl, fun _ hid => hid⟩
  | tail _ hstep ih =>
    obtain ⟨hopened, hnext, hstaged⟩ := ih
    obtain ⟨hopened', hnext', hstaged'⟩ := hstep.kept
    exact ⟨hopened'.trans hopened, hnext'.trans hnext, fun id hid => hstaged' id (hstaged id hid)⟩

lemma InOrder.stage (h : a.InOrder log) (hd : Distinct eqKey a.pending) (hstage : Stage cfg tells a b) :
    b.InOrder log := by
  obtain hsteps | ⟨registry, server, hsame, rfl⟩ | ⟨execId, -, -, -, rfl⟩ := hstage.split hd
  · exact h.steps hsteps
  · exact h.still ⟨hsame.1, hsame.2, fun _ _ => rfl, fun _ => rfl, le_rfl⟩
  · exact h.still (sameBut_dropPending execId a).still

end Changes

section Events

lemma InOrder.onOpen (h : a.InOrder log) (scopes : ScopeConfig SessionClaims) (connId : ℕ)
    (sess : Session SessionClaims) (slot : ℕ) :
    ({ a with server := a.server.onOpen connId sess slot } : ActionServer).InOrder log := by
  have hstep := Server.openings_step scopes a.server (.open connId sess slot)
  cases hopens : a.server.opens (.open connId sess slot) with
  | none =>
    rw [hopens] at hstep
    exact h.still ⟨hstep.1, hstep.2, fun _ _ => rfl, fun _ => rfl, le_rfl⟩
  | some id =>
    rw [hopens] at hstep
    obtain ⟨hnone, hopened, hopenings⟩ := hstep
    change (a.server.onOpen connId sess slot).opened = a.server.opened + 1 at hopened
    change (a.server.onOpen connId sess slot).openings = _ at hopenings
    have hclosed : a.server.openings id = none := by
      rw [Server.openings, hnone]
      rfl
    have hunrouted : routedTo id a.server.opened log = [] := by
      unfold routedTo
      rw [map_eq_nil_iff, filter_eq_nil_iff]
      intro r hr hboth
      obtain ⟨opening, hopening, hlt⟩ := h.opened r hr
      rw [decide_eq_true_eq, hopening, Option.some.injEq] at hboth
      omega
    constructor
    · intro connId' opening hopen
      dsimp only at hopen
      rw [hopenings] at hopen
      change a.received connId' opening ++ a.stagedFor connId' = _
      by_cases hid : connId' = id
      · subst hid
        rw [update_self, Option.some.injEq] at hopen
        subst hopen
        have hfirst := h.sentFirst connId' a.server.opened
        rw [hunrouted, prefix_nil] at hfirst
        rw [hfirst, h.unstaged connId' hclosed, hunrouted]
        rfl
      · rw [update_of_ne hid] at hopen
        exact h.delivered connId' opening hopen
    · exact h.sentFirst
    · intro connId' hclosed'
      dsimp only at hclosed'
      rw [hopenings] at hclosed'
      by_cases hid : connId' = id
      · rw [hid, update_self] at hclosed'
        cases hclosed'
      · rw [update_of_ne hid] at hclosed'
        exact h.unstaged connId' hclosed'
    · intro r hr
      obtain ⟨opening, hopening, hlt⟩ := h.opened r hr
      exact ⟨opening, hopening, hlt.trans (by rw [hopened]; exact Nat.lt_succ_self _)⟩
    · exact h.issued
    · exact h.sorted

/-- A call admits no forward, or one with the next exec id, which is staged for its worker, or sent to it
behind all that is staged. -/
lemma call_admits (connId reqId actionId : ℕ) (params : Payload) (clientTimeoutMs : Option ℕ)
    (nowNs : ℤ) (a : ActionServer) :
    (a.admits cfg (.call connId reqId actionId params clientTimeoutMs nowNs) = none ∧
      Still a (a.call cfg connId reqId actionId params clientTimeoutMs nowNs)) ∨
    ∃ key worker registry f, a.registry.pickWorker key = some (worker, registry) ∧ f.execId = a.nextExecId ∧
      a.admits cfg (.call connId reqId actionId params clientTimeoutMs nowNs) =
        some ⟨worker, a.server.openings worker, f⟩ ∧
      (a.call cfg connId reqId actionId params clientTimeoutMs nowNs =
          (a.picked registry).stageForward cfg worker f ∨
        ∃ call opening, a.call cfg connId reqId actionId params clientTimeoutMs nowNs =
          sendTo cfg worker (.forward f)
            (((a.picked registry).addPending a.nextExecId call opening).flushWorker cfg worker)) := by
  have hrefl : Still a a := SameBut.still (.refl a)
  have hpicked (registry : ActionRegistry) : Still a (a.picked registry) :=
    ⟨rfl, rfl, fun _ _ => rfl, fun _ => rfl, Nat.le_succ _⟩
  unfold admits call
  dsimp only
  cases a.server.map connId with
  | none => exact .inl ⟨rfl, hrefl⟩
  | some c =>
    dsimp only
    by_cases hsession : c.session.isNone
    · rw [if_pos hsession, if_pos hsession]
      exact .inl ⟨rfl, hrefl⟩
    rw [if_neg hsession, if_neg hsession]
    cases admitCall cfg.authConfig cfg.actions (c.baseCtx connId) actionId params with
    | error e => exact .inl ⟨rfl, hrefl⟩
    | ok r =>
      obtain ⟨action, info⟩ := r
      dsimp only
      unfold forwardCall
      dsimp only
      cases hpick : a.registry.pickWorker ⟨action.scope, info.namespaceId, actionId⟩ with
      | none => exact .inl ⟨rfl, hrefl⟩
      | some found =>
        obtain ⟨worker, registry⟩ := found
        dsimp only
        cases action.isSync with
        | false => exact .inr ⟨_, worker, registry, _, hpick, rfl, if_neg (by simp), .inl (if_pos rfl)⟩
        | true =>
          have hsync : ¬ (!true) = true := by simp
          by_cases hlimit : maxPendingPerConnection ≤ (find eqKey connId a.pendingCounts).getD 0
          · rw [if_pos ⟨rfl, hlimit⟩, if_neg hsync, if_pos hlimit]
            exact .inl ⟨rfl, hpicked registry⟩
          · rw [if_neg fun hboth => hlimit hboth.2, if_neg hsync, if_neg hlimit]
            exact .inr ⟨_, worker, registry, _, hpick, rfl, rfl, .inr ⟨_, _, rfl⟩⟩

variable {opening worker : ℕ}

lemma InOrder.staged (h : a.InOrder log) (cfg : ActionConfig) (registry : ActionRegistry)
    {f : Forward} (hopen : a.server.openings worker = some opening) (hid : f.execId = a.nextExecId)
    (hnew : opening < a.server.opened) :
    ((a.picked registry).stageForward cfg worker f).InOrder (log ++ [⟨worker, some opening, f⟩]) := by
  have hstaged (id : ℕ) : ((a.picked registry).stageForward cfg worker f).stagedFor id =
      a.stagedFor id ++ if worker = id then [f] else [] := by
    unfold stagedFor stageForward picked
    dsimp only
    by_cases hid : worker = id
    · subst hid
      rw [find_put_self, if_pos rfl]
      cases find eqKey worker a.outbox <;> rfl
    · rw [find_put_of, if_neg hid, if_neg hid, append_nil]
  constructor
  · intro id o ho
    change a.server.openings id = some o at ho
    change a.received id o ++ _ = _
    rw [hstaged, routedTo_concat, ← h.delivered id o ho, append_assoc]
    by_cases hid : worker = id
    · subst hid
      rw [if_pos rfl, if_pos ⟨rfl, hopen.symm.trans ho⟩]
    · rw [if_neg hid, if_neg fun hboth => hid hboth.1]
  · intro id o
    rw [routedTo_concat]
    exact (h.sentFirst id o).trans (prefix_append _ _)
  · intro id hclosed
    change a.server.openings id = none at hclosed
    rw [hstaged, h.unstaged id hclosed, if_neg]
    · rfl
    · rintro rfl
      rw [hopen] at hclosed
      cases hclosed
  · exact forall_mem_append.mpr ⟨h.opened, forall_mem_singleton.mpr ⟨opening, rfl, hnew⟩⟩
  · refine forall_mem_append.mpr ⟨fun r hr => (h.issued r hr).trans (Nat.lt_succ_self _), ?_⟩
    rw [forall_mem_singleton, hid]
    exact Nat.lt_succ_self _
  · refine pairwise_append.mpr ⟨h.sorted, pairwise_singleton _ _, fun r hr r' hr' => ?_⟩
    rw [mem_singleton.mp hr', hid]
    exact h.issued r hr

lemma InOrder.forwarded (h : a.InOrder log) {c : Connection SessionClaims} {f : Forward} (n : ℕ)
    (hc : a.server.map worker = some c) (hstaged : a.stagedFor worker = []) (hnew : c.opening < a.server.opened)
    (hid : f.execId < a.nextExecId) (hlater : ∀ r ∈ log, r.forward.execId < f.execId) :
    ({ a with sends := n, sent := a.sent ++ [⟨worker, .forward f, c⟩] } : ActionServer).InOrder
      (log ++ [⟨worker, some c.opening, f⟩]) := by
  have hopening : a.server.openings worker = some c.opening := by
    rw [Server.openings, hc]
    rfl
  constructor
  · intro id opening hopen
    change a.server.openings id = some opening at hopen
    rw [received_concat, routedTo_concat, ← h.delivered id opening hopen]
    change _ ++ a.stagedFor id = _
    by_cases hid : worker = id ∧ c.opening = opening
    · obtain ⟨rfl, rfl⟩ := hid
      rw [if_pos ⟨rfl, rfl⟩, if_pos ⟨rfl, rfl⟩, hstaged, append_nil, append_nil]
      rfl
    · rw [if_neg hid, if_neg fun hboth => hid ⟨hboth.1, Option.some.inj hboth.2⟩, append_nil,
        append_nil]
  · intro id opening
    rw [received_concat, routedTo_concat]
    by_cases hid : worker = id ∧ c.opening = opening
    · obtain ⟨rfl, rfl⟩ := hid
      rw [if_pos ⟨rfl, rfl⟩, if_pos ⟨rfl, rfl⟩, ← h.delivered worker c.opening hopening, hstaged, append_nil]
      exact prefix_rfl
    · rw [if_neg hid, append_nil]
      exact (h.sentFirst id opening).trans (prefix_append _ _)
  · exact h.unstaged
  · exact forall_mem_append.mpr ⟨h.opened, forall_mem_singleton.mpr ⟨_, rfl, hnew⟩⟩
  · exact forall_mem_append.mpr ⟨h.issued, forall_mem_singleton.mpr hid⟩
  · refine pairwise_append.mpr ⟨h.sorted, pairwise_singleton _ _, fun r hr r' hr' => ?_⟩
    rw [mem_singleton.mp hr']
    exact hlater r hr

lemma InOrder.lost (h : a.InOrder log) {f : Forward}
    (hclosed : a.server.openings worker = none) (hnew : opening < a.server.opened)
    (hid : f.execId < a.nextExecId) (hlater : ∀ r ∈ log, r.forward.execId < f.execId) :
    a.InOrder (log ++ [⟨worker, some opening, f⟩]) := by
  constructor
  · intro id o ho
    have hne : worker ≠ id := by
      rintro rfl
      rw [hclosed] at ho
      cases ho
    rw [routedTo_concat, if_neg fun hboth => hne hboth.1, append_nil]
    exact h.delivered id o ho
  · intro id o
    rw [routedTo_concat]
    exact (h.sentFirst id o).trans (prefix_append _ _)
  · exact h.unstaged
  · exact forall_mem_append.mpr ⟨h.opened, forall_mem_singleton.mpr ⟨_, rfl, hnew⟩⟩
  · exact forall_mem_append.mpr ⟨h.issued, forall_mem_singleton.mpr hid⟩
  · refine pairwise_append.mpr ⟨h.sorted, pairwise_singleton _ _, fun r hr r' hr' => ?_⟩
    rw [mem_singleton.mp hr']
    exact hlater r hr

lemma stagedFor_flushWorker (cfg : ActionConfig) (connId : ℕ) (a : ActionServer) :
    (a.flushWorker cfg connId).stagedFor connId = [] := by
  unfold stagedFor
  cases hfind : find eqKey connId (a.flushWorker cfg connId).outbox with
  | none => rfl
  | some staged => exact bytes_flushWorker cfg hfind

lemma InOrder.sync (h : a.InOrder log) (hd : Distinct eqKey a.pending) (cfg : ActionConfig)
    (registry : ActionRegistry) (call : PendingCall) (n : ℕ) {f : Forward}
    (hopen : a.server.openings worker = some opening) (hid : f.execId = a.nextExecId)
    (hnew : opening < a.server.opened) :
    (sendTo cfg worker (.forward f)
      (((a.picked registry).addPending a.nextExecId call n).flushWorker cfg worker)).InOrder
        (log ++ [⟨worker, some opening, f⟩]) := by
  have hadded : ((a.picked registry).addPending a.nextExecId call n).InOrder log :=
    h.still ⟨rfl, rfl, fun _ _ => rfl, fun _ => rfl, Nat.le_succ _⟩
  have hd' : Distinct eqKey ((a.picked registry).addPending a.nextExecId call n).pending :=
    distinct_put eqKey hd
  have hsteps := steps_flushWorker cfg anything worker hd'
  have hstaged := stagedFor_flushWorker cfg worker ((a.picked registry).addPending a.nextExecId call n)
  generalize flushWorker cfg worker _ = b at hsteps hstaged
  have hb := hadded.steps hsteps
  obtain ⟨hopened, hnext, -⟩ := hsteps.kept
  change b.server.opened = a.server.opened at hopened
  change b.nextExecId = a.nextExecId + 1 at hnext
  have hlt : f.execId < b.nextExecId := by omega
  have hlater : ∀ r ∈ log, r.forward.execId < f.execId := fun r hr => hid ▸ h.issued r hr
  rw [← hopened] at hnew
  rcases deliver_cases cfg worker (.forward f) b with ⟨hnone, heq⟩ | ⟨c, hc, heq | ⟨-, heq⟩⟩
  · rw [heq]
    refine hb.lost ?_ hnew hlt hlater
    rw [Server.openings, hnone]
    rfl
  · have hsame : c.opening = opening := by
      have hbefore : a.server.map worker = some c := hsteps.map hc
      rw [Server.openings, hbefore] at hopen
      exact Option.some.inj hopen
    subst hsame
    rw [heq]
    exact hb.forwarded _ hc hstaged hnew hlt hlater
  · rw [heq]
    have hsome : (b.server.map worker).isSome := by
      rw [hc]
      rfl
    have hdb := hsteps.distinct hd'
    have hclosing : Steps cfg anything b _ := steps_refused anything hdb hsome
    obtain ⟨hopened', hnext', -⟩ := hclosing.kept
    refine (hb.steps hclosing).lost ?_ (by rw [hopened']; exact hnew) (by rw [hnext']; exact hlt) hlater
    rw [Server.openings, Option.map_eq_none_iff]
    cases hmap : (onClose cfg worker { b with sends := b.sends + 1 }).server.map worker with
    | none => rfl
    | some d =>
      have htail : Steps cfg anything _ _ :=
        steps_onClose_tail (a := { b with sends := b.sends + 1 }) anything _ hdb le_rfl hsome
      have hbefore := htail.map hmap
      rw [map_detach, update_self] at hbefore
      cases hbefore

lemma InOrder.step (h : a.InOrder log) (haccounted : a.Accounted cfg) (hsettled : a.Settled)
    (ev : ActionEvent) : (a.step cfg ev).InOrder (log ++ (a.admits cfg ev).toList) := by
  have hgoesOn (hev : ev.goesOn) (hnone : a.admits cfg ev = none) :
      (a.step cfg ev).InOrder (log ++ (a.admits cfg ev).toList) := by
    rw [hnone, Option.toList_none, append_nil]
    exact (stages_step hev).invariant (fun _ _ hd h hstage => h.stage hd hstage) hsettled.distinct h
  cases ev with
  | «open» connId sess slot =>
    change InOrder (log ++ []) _
    rw [append_nil]
    exact h.onOpen cfg.scopes connId sess slot
  | call connId reqId actionId params clientTimeoutMs nowNs =>
    change (a.call cfg connId reqId actionId params clientTimeoutMs nowNs).InOrder _
    obtain ⟨hnone, hstill⟩ | ⟨key, worker, registry, f, hpick, hid, hadmits, hcase⟩ :=
      call_admits connId reqId actionId params clientTimeoutMs nowNs a
    · rw [hnone, Option.toList_none, append_nil]
      exact h.still hstill
    obtain ⟨⟨c, hc, -⟩, -⟩ := hsettled.routed.routes.pickWorker hpick
    have hopen : a.server.openings worker = some c.opening := by
      rw [Server.openings, hc]
      rfl
    have hnew := haccounted.openings worker _ hopen
    rw [hadmits, hopen, Option.toList_some]
    obtain heq | ⟨call, n, heq⟩ := hcase
    · rw [heq]
      exact h.staged cfg registry hopen hid hnew
    · rw [heq]
      exact h.sync hsettled.distinct cfg registry call n hopen hid hnew
  | _ => exact hgoesOn rfl rfl

lemma InOrder.run (h : a.InOrder log) (haccounted : a.Accounted cfg) (hsettled : a.Settled)
    (events : List ActionEvent) : (events.foldl (ActionServer.step cfg) a).InOrder (log ++ admissions cfg a events) ∧
      (events.foldl (ActionServer.step cfg) a).Settled := by
  induction events generalizing a log with
  | nil => exact ⟨by rwa [admissions, append_nil], hsettled⟩
  | cons ev events ih =>
    rw [foldl_cons, admissions, ← append_assoc]
    exact ih (h.step haccounted hsettled ev) (haccounted.step hsettled ev).accounted (hsettled.step ev)

lemma stagedFor_flushOutbox (cfg : ActionConfig) (connId : ℕ) (hd : Distinct eqKey a.pending) :
    (a.flushOutbox cfg).stagedFor connId = [] := by
  have hflushed (ids : List ℕ) (b : ActionServer) (hd : Distinct eqKey b.pending)
      (h : connId ∈ ids ∨ b.stagedFor connId = []) :
      (ids.foldl (fun a id => a.flushWorker cfg id) b).stagedFor connId = [] := by
    induction ids generalizing b with
    | nil =>
      rcases h with hmem | hnil
      · cases hmem
      · exact hnil
    | cons id ids ih =>
      have hsteps := steps_flushWorker cfg anything id hd
      refine ih _ (hsteps.distinct hd) ?_
      rcases h with hmem | hnil
      · rcases mem_cons.mp hmem with rfl | hmem
        · exact .inr (stagedFor_flushWorker cfg connId b)
        · exact .inl hmem
      · exact .inr (hsteps.kept.2.2 connId hnil)
  refine hflushed _ a hd ?_
  cases hfind : find eqKey connId a.outbox with
  | none =>
    refine .inr ?_
    rw [stagedFor, hfind]
    rfl
  | some staged =>
    obtain ⟨id, hid, hmem⟩ := mem_of_find eqKey hfind
    rw [(eqKey_iff _ _).mp hid] at hmem
    exact .inl (mem_map_of_mem (f := Prod.fst) hmem)

lemma inOrder_init : ({} : ActionServer).InOrder [] where
  delivered := fun _ _ hopen => nomatch hopen
  sentFirst := fun _ _ => prefix_rfl
  unstaged := fun _ _ => rfl
  opened := fun _ hr => absurd hr not_mem_nil
  issued := fun _ hr => absurd hr not_mem_nil
  sorted := List.Pairwise.nil

/-- Whatever happens on the event loop, a connection has been sent the first of the forwards that were routed
to it since it was opened, in the order of their admission and each once; while it is open, the others are
staged for it, and after a flush there are none. -/
theorem forwards_in_order (cfg : ActionConfig) (events : List ActionEvent) :
    let a := events.foldl (ActionServer.step cfg) {}
    let log := admissions cfg {} events
    (log.Pairwise fun r r' => r.forward.execId < r'.forward.execId) ∧
    (∀ r ∈ log, r.opening.isSome) ∧
    (∀ connId opening, a.received connId opening <+: routedTo connId opening log) ∧
    (∀ connId c, a.server.map connId = some c →
      a.received connId c.opening ++ a.stagedFor connId = routedTo connId c.opening log) ∧
    ∀ connId c, (a.flushOutbox cfg).server.map connId = some c →
      (a.flushOutbox cfg).received connId c.opening = routedTo connId c.opening log := by
  obtain ⟨h, hsettled⟩ := inOrder_init.run accounted_init settled_init events
  rw [List.nil_append] at h
  have hdelivered {b : ActionServer} (h : b.InOrder (admissions cfg {} events)) {connId : ℕ}
      {c : Connection SessionClaims} (hc : b.server.map connId = some c) :
      b.received connId c.opening ++ b.stagedFor connId =
        routedTo connId c.opening (admissions cfg {} events) := by
    refine h.delivered connId c.opening ?_
    rw [Server.openings, hc]
    rfl
  refine ⟨h.sorted, fun r hr => ?_, h.sentFirst, fun connId c hc => hdelivered h hc, fun connId c hc => ?_⟩
  · obtain ⟨opening, hopening, -⟩ := h.opened r hr
    rw [hopening]
    rfl
  · have hflushed := hdelivered (h.steps (steps_flushOutbox cfg anything hsettled.distinct)) hc
    rwa [stagedFor_flushOutbox cfg connId hsettled.distinct, List.append_nil] at hflushed

end Events
end ActionServer
end ZyncBase
