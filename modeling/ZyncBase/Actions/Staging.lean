import ZyncBase.Actions.Changes

/-! The staged forwards of asynchronous calls, and the buffers that hold them: as long as no socket
refuses a frame of staged forwards, each is sent or dropped once, and each buffer is released once. -/
namespace ZyncBase

open AssocMap Function List Option ActionServer

def Frame.stagedIds : Frame → List ℕ
  | .staged fs => fs.map Forward.execId
  | _ => []

variable {connId : ℕ} {st : Server SessionClaims}

namespace ActionServer

/-- The forwards that are still staged. -/
def inOutbox (a : ActionServer) : List ℕ :=
  a.outbox.flatMap fun e => e.2.bytes.map Forward.execId

def inUse (a : ActionServer) : List ℕ := a.outbox.flatMap fun e => e.2.buffer.toList

def sentStaged (a : ActionServer) : List ℕ := a.sent.flatMap fun s => s.frame.stagedIds

/-- Every entry of the outbox is that of one connected worker; every forward ever staged is still staged,
or has been sent, or dropped, and only one of these, once; every buffer is in use or has been released,
once; and no flush has written to an entry that was gone. -/
structure Owned (a : ActionServer) : Prop where
  distinct : Distinct eqKey a.outbox
  connected : ∀ e ∈ a.outbox, (a.server.map e.1).isSome
  nodup : a.stagedIds.Nodup
  once : a.stagedIds.Perm (a.inOutbox ++ a.sentStaged ++ a.droppedIds)
  buffers : (List.range a.buffers).Perm (a.inUse ++ a.released)
  untouched : a.touched = []

/-- What holds between any two changes. -/
structure Staged (a : ActionServer) : Prop extends Owned a where
  issued : ∀ execId ∈ a.stagedIds, execId < a.nextExecId

variable {cfg : ActionConfig} {tells : Tells} {a b : ActionServer}

section Changes

/-- Changes that leave the outbox and its history alone, and close no connection. -/
structure Idle (a b : ActionServer) : Prop where
  outbox : b.outbox = a.outbox
  nextExecId : a.nextExecId ≤ b.nextExecId
  sent : b.sentStaged = a.sentStaged
  stagedIds : b.stagedIds = a.stagedIds
  droppedIds : b.droppedIds = a.droppedIds
  buffers : b.buffers = a.buffers
  released : b.released = a.released
  touched : b.touched = a.touched
  connected : ∀ connId, (a.server.map connId).isSome → (b.server.map connId).isSome

lemma Staged.idle (h : a.Staged) (hi : Idle a b) : b.Staged where
  distinct := by
    rw [hi.outbox]
    exact h.distinct
  connected := by
    rw [hi.outbox]
    exact fun e he => hi.connected _ (h.connected e he)
  nodup := by
    rw [hi.stagedIds]
    exact h.nodup
  once := by
    rw [hi.stagedIds, hi.sent, hi.droppedIds, inOutbox, hi.outbox]
    exact h.once
  buffers := by
    rw [hi.buffers, hi.released, inUse, hi.outbox]
    exact h.buffers
  untouched := hi.touched.trans h.untouched
  issued := by
    rw [hi.stagedIds]
    exact fun execId he => (h.issued execId he).trans_le hi.nextExecId

lemma SameBut.idle (hs : SameBut a b) : Idle a b where
  outbox := hs.outbox
  nextExecId := hs.nextExecId.ge
  sent := by rw [sentStaged, hs.sent, sentStaged]
  stagedIds := hs.stagedIds
  droppedIds := hs.droppedIds
  buffers := hs.buffers
  released := hs.released
  touched := hs.touched
  connected := fun _ hc => hs.server ▸ hc

lemma sentStaged_concat (s : Sent) (n : ℕ) (a : ActionServer) :
    ({ a with sends := n, sent := a.sent ++ [s] } : ActionServer).sentStaged =
      a.sentStaged ++ s.frame.stagedIds := by
  simp [sentStaged]

lemma Idle.frame {s : Sent} (hs : s.frame.stagedIds = []) (n : ℕ) (hi : Idle a b) :
    Idle a { b with sends := n, sent := b.sent ++ [s] } :=
  { hi with sent := by rw [sentStaged_concat, hs, append_nil, hi.sent] }

lemma flatMap_outbox (hd : Distinct eqKey a.outbox) (connId : ℕ) {g : StagedForwards → List ℕ}
    (hg : g {} = []) : (a.outbox.flatMap fun e => g e.2).Perm
      (g ((find eqKey connId a.outbox).getD {}) ++
        (remove eqKey connId a.outbox).flatMap fun e => g e.2) := by
  cases hfind : find eqKey connId a.outbox with
  | none =>
    rw [getD_none, hg, nil_append, remove_eq_self]
    intro e he hid
    rw [find_of_mem eqKey hd he ((eqKey_iff _ _).mpr hid)] at hfind
    cases hfind
  | some staged => exact (perm_remove hd hfind).flatMap_right _

lemma Staged.put (h : a.Staged) (hopen : (a.server.map connId).isSome)
    {staged : StagedForwards} {registry : ActionRegistry} {nextExecId buffers sends : ℕ}
    {sent : List Sent} {stagedIds released : List ℕ}
    (hids : stagedIds.Nodup) (hissued : ∀ execId ∈ stagedIds, execId < nextExecId)
    (honce : ∀ rest, a.stagedIds.Perm
        (((find eqKey connId a.outbox).getD {}).bytes.map Forward.execId ++ rest ++ a.sentStaged ++
          a.droppedIds) → stagedIds.Perm (staged.bytes.map Forward.execId ++ rest ++
        (sent.flatMap fun s => s.frame.stagedIds) ++ a.droppedIds))
    (hbuffers : ∀ rest, (List.range a.buffers).Perm
        (((find eqKey connId a.outbox).getD {}).buffer.toList ++ rest ++ a.released) →
      (List.range buffers).Perm (staged.buffer.toList ++ rest ++ released)) :
    ({ a with
      outbox := AssocMap.put eqKey connId staged a.outbox
      registry, nextExecId, buffers, sends, sent, stagedIds, released } : ActionServer).Staged where
  distinct := distinct_put eqKey h.distinct
  connected := by
    intro e he
    rcases fst_of_mem_put eqKey he with ⟨-, hid⟩ | he
    · rw [(eqKey_iff _ _).mp hid]
      exact hopen
    · exact h.connected e he
  nodup := hids
  once := by
    have hbefore := flatMap_outbox h.distinct connId (g := fun staged => staged.bytes.map Forward.execId) rfl
    have hafter := (perm_put (v := staged) (k := connId) h.distinct).flatMap_right
      fun e => e.2.bytes.map Forward.execId
    refine (honce _ (h.once.trans ((hbefore.append_right _).append_right _))).trans ?_
    exact (hafter.symm.append_right _).append_right _
  buffers := by
    have hbefore := flatMap_outbox h.distinct connId (g := fun staged => staged.buffer.toList) rfl
    have hafter := (perm_put (v := staged) (k := connId) h.distinct).flatMap_right fun e => e.2.buffer.toList
    refine (hbuffers _ (h.buffers.trans (hbefore.append_right _))).trans ?_
    exact hafter.symm.append_right _
  untouched := h.untouched
  issued := hissued

lemma Staged.severed (h : a.Staged) (connId : ℕ) : (a.severed connId).Staged := by
  have hopen (e : ℕ × StagedForwards) (he : e ∈ a.outbox) (hne : e.1 ≠ connId) :
      ((a.severed connId).server.map e.1).isSome := by
    rw [map_severed, update_of_ne hne]
    exact h.connected e he
  cases hfind : find eqKey connId a.outbox with
  | none =>
    have hsevered : a.severed connId = ({ a with
        server := a.server.teardownSession connId } : ActionServer).unregister connId none := by
      unfold ActionServer.severed dropStaged
      rw [hfind]
    have hconnected (e : ℕ × StagedForwards) (he : e ∈ a.outbox) :
        ((a.severed connId).server.map e.1).isSome := by
      refine hopen e he fun hid => ?_
      rw [find_of_mem eqKey h.distinct he ((eqKey_iff _ _).mpr hid)] at hfind
      cases hfind
    rw [hsevered] at hconnected ⊢
    exact ⟨⟨h.distinct, hconnected, h.nodup, h.once, h.buffers, h.untouched⟩, h.issued⟩
  | some staged =>
    have hsevered : a.severed connId = ({ a with
        server := a.server.teardownSession connId
        outbox := remove eqKey connId a.outbox
        droppedIds := a.droppedIds ++ staged.bytes.map Forward.execId
        released := a.released ++ staged.buffer.toList } : ActionServer).unregister connId none := by
      unfold ActionServer.severed dropStaged
      rw [hfind]
    have hconnected (e : ℕ × StagedForwards) (he : e ∈ remove eqKey connId a.outbox) :
        ((a.severed connId).server.map e.1).isSome := by
      obtain ⟨he, hne⟩ := mem_filter.mp he
      exact hopen e he (by simpa using hne)
    have hids := (perm_remove h.distinct hfind).flatMap_right fun e => e.2.bytes.map Forward.execId
    have hinUse := (perm_remove h.distinct hfind).flatMap_right fun e => e.2.buffer.toList
    rw [flatMap_cons] at hids hinUse
    rw [hsevered] at hconnected ⊢
    refine ⟨⟨distinct_remove eqKey h.distinct, hconnected, h.nodup, ?_, ?_, h.untouched⟩, h.issued⟩
    · refine (h.once.trans ((hids.append_right _).append_right _)).trans ?_
      refine perm_iff_count.mpr fun x => ?_
      simp only [inOutbox, sentStaged, unregister, count_append]
      omega
    · refine (h.buffers.trans (hinUse.append_right _)).trans ?_
      refine perm_iff_count.mpr fun x => ?_
      simp only [inUse, unregister, count_append]
      omega

lemma Staged.detach (h : a.Staged) (connId n : ℕ) :
    (({ a with sends := n } : ActionServer).detach connId).Staged := by
  have hsends : ({ a with sends := n } : ActionServer).Staged :=
    ⟨⟨h.distinct, h.connected, h.nodup, h.once, h.buffers, h.untouched⟩, h.issued⟩
  exact (hsends.severed connId).idle (sameBut_detach connId _).idle

lemma Staged.flushed (h : a.Staged) {staged : StagedForwards}
    {c : Connection SessionClaims} (hfind : find eqKey connId a.outbox = some staged)
    (hopen : (a.server.map connId).isSome) :
    (({ a with
      sends := a.sends + 1
      sent := a.sent ++ [⟨connId, .staged staged.bytes, c⟩] } : ActionServer).clearStaged connId
        staged).Staged := by
  unfold clearStaged
  dsimp only
  rw [hfind]
  dsimp only
  refine h.put hopen h.nodup h.issued (fun rest honce => honce.trans ?_)
    (fun rest hbuffers => hbuffers.trans ?_)
  · rw [hfind, getD_some]
    have hbytes : (if maxRetainedStagingCapacity < staged.capacity then ({} : StagedForwards)
        else { staged with bytes := [] }).bytes = [] := by
      split_ifs <;> rfl
    rw [hbytes]
    refine perm_iff_count.mpr fun x => ?_
    simp only [sentStaged, flatMap_append, flatMap_singleton, Frame.stagedIds,
      count_append, map_nil, count_nil]
    omega
  · rw [hfind, getD_some]
    split_ifs with hlarge
    · refine perm_iff_count.mpr fun x => ?_
      simp only [toList_none, count_append, count_nil]
      omega
    · exact .refl _

lemma Staged.micro (htaken : ∀ n fs, cfg.drops n (.staged fs) = false) (h : a.Staged)
    (hstep : Micro cfg tells a b) : b.Staged := by
  cases hstep with
  | cut connId n _ => exact h.detach connId n
  | answered body hr _ _ => exact h.idle ((sameBut_removePending hr).idle.frame rfl _)
  | unanswered hr _ => exact h.idle (sameBut_removePending hr).idle
  | refused hr _ => exact (h.idle (sameBut_removePending hr).idle).detach _ _
  | flushed hfind hc => exact h.flushed hfind (by rw [hc]; rfl)
  | forgotten hfind hc =>
    obtain ⟨id, hid, hmem⟩ := mem_of_find eqKey hfind
    have hopen := h.connected _ hmem
    rw [(eqKey_iff _ _).mp hid, hc] at hopen
    cases hopen
  | overwritten hdrops _ =>
    rw [htaken] at hdrops
    cases hdrops

lemma Staged.steps (htaken : ∀ n fs, cfg.drops n (.staged fs) = false) (h : a.Staged)
    (hsteps : Steps cfg tells a b) : b.Staged :=
  hsteps.invariant (fun _ _ h hstep => h.micro htaken hstep) h

lemma Staged.stageForward (h : a.Staged) (cfg : ActionConfig) {registry : ActionRegistry}
    {worker : ℕ} {f : Forward} (hopen : (a.server.map worker).isSome) (hid : f.execId = a.nextExecId) :
    ((a.picked registry).stageForward cfg worker f).Staged := by
  unfold ActionServer.stageForward picked
  dsimp only
  refine h.put hopen ?_ ?_ (fun rest honce => ?_) (fun rest hbuffers => ?_)
  · rw [hid, nodup_append]
    refine ⟨h.nodup, nodup_singleton _, fun e he e' he' hee' => ?_⟩
    have := h.issued e he
    rw [mem_singleton] at he'
    omega
  · intro e he
    rcases mem_append.mp he with he | he
    · exact (h.issued e he).trans (Nat.lt_succ_self _)
    · rw [mem_singleton.mp he, hid]
      exact Nat.lt_succ_self _
  · refine (honce.append_right [f.execId]).trans ?_
    refine perm_iff_count.mpr fun x => ?_
    simp only [sentStaged, map_append, map_singleton, count_append]
    omega
  · cases hbuffer : ((find eqKey worker a.outbox).getD {}).buffer with
    | some k =>
      rw [hbuffer] at hbuffers
      exact hbuffers
    | none =>
      rw [hbuffer] at hbuffers
      rw [isSome_none, if_neg Bool.false_ne_true, range_succ]
      refine (hbuffers.append_right [a.buffers]).trans ?_
      refine perm_iff_count.mpr fun x => ?_
      simp only [toList_none, getD_none, toList_some, count_append, count_nil]
      omega

end Changes

section Events

lemma idle_server {server : Server SessionClaims}
    (h : ∀ connId, (a.server.map connId).isSome → (server.map connId).isSome) : Idle a { a with server } :=
  ⟨rfl, le_rfl, rfl, rfl, rfl, rfl, rfl, rfl, h⟩

lemma Staged.call (htaken : ∀ n fs, cfg.drops n (.staged fs) = false) (h : a.Staged)
    (hs : a.Settled) (connId reqId actionId : ℕ) (params : Payload) (clientTimeoutMs : Option ℕ)
    (nowNs : ℤ) : (a.call cfg connId reqId actionId params clientTimeoutMs nowNs).Staged := by
  obtain heq | ⟨c, action, info, deadlineNs, hc, haction, heq⟩ :=
    call_cases cfg connId reqId actionId params clientTimeoutMs nowNs a
  · rw [heq]
    exact h
  rw [heq]
  obtain heq | ⟨key, worker, registry, f, hpick, -, hid, hcase⟩ := forwardCall_cases cfg connId c
    reqId actionId action info params deadlineNs a
  · rw [heq]
    exact h
  have hpicked : (a.picked registry).Staged :=
    h.idle ⟨rfl, Nat.le_succ _, rfl, rfl, rfl, rfl, rfl, rfl, fun _ hid => hid⟩
  obtain heq | ⟨-, heq⟩ | ⟨-, heq⟩ := hcase
  · rw [heq]
    exact hpicked
  · rw [heq]
    obtain ⟨d, hd, -⟩ := (hs.routed.routes.pickWorker hpick).1
    exact h.stageForward cfg (by rw [hd]; rfl) hid
  · rw [heq]
    have hadded := hpicked.idle (b := (a.picked registry).addPending a.nextExecId
      ⟨connId, worker, reqId, actionId, action.scope, deadlineNs⟩ c.opening)
      ⟨rfl, le_rfl, rfl, rfl, rfl, rfl, rfl, rfl, fun _ hid => hid⟩
    have hd : Distinct eqKey ((a.picked registry).addPending a.nextExecId
        ⟨connId, worker, reqId, actionId, action.scope, deadlineNs⟩ c.opening).pending :=
      distinct_put eqKey hs.distinct
    have hflush := steps_flushWorker cfg anything worker hd
    have hflushed := hadded.steps htaken hflush
    obtain hsteps | ⟨d, -, hsent⟩ :=
      steps_sendTo_cases cfg anything worker (.forward f) (hflush.distinct hd)
    · exact hflushed.steps htaken hsteps
    · rw [hsent]
      refine hflushed.idle (Idle.frame rfl _ ?_)
      exact ⟨rfl, le_rfl, rfl, rfl, rfl, rfl, rfl, rfl, fun _ hid => hid⟩

lemma Staged.stage (htaken : ∀ n fs, cfg.drops n (.staged fs) = false) (h : a.Staged)
    (hd : Distinct eqKey a.pending) (hstage : Stage cfg tells a b) : b.Staged := by
  obtain hsteps | ⟨registry, server, hsame, rfl⟩ | ⟨execId, -, -, -, rfl⟩ := hstage.split hd
  · exact h.steps htaken hsteps
  · exact h.idle ⟨rfl, le_rfl, rfl, rfl, rfl, rfl, rfl, rfl, fun id hid => isSome_of_sameOpenings hsame id ▸ hid⟩
  · exact h.idle (sameBut_dropPending execId a).idle

lemma Staged.step (htaken : ∀ n fs, cfg.drops n (.staged fs) = false) (h : a.Staged)
    (hs : a.Settled) (ev : ActionEvent) : (a.step cfg ev).Staged := by
  cases hev : ev.goesOn with
  | true => exact (stages_step hev).invariant (fun _ _ hd h hstage => h.stage htaken hd hstage) hs.distinct h
  | false =>
    cases ev with
    | «open» connId sess slot =>
      exact h.idle (idle_server (Server.isSome_of_moves (Server.moves_onOpen connId sess slot)))
    | call connId reqId actionId params clientTimeoutMs nowNs =>
      exact h.call htaken hs connId reqId actionId params clientTimeoutMs nowNs
    | _ => cases hev

lemma staged_init : ({} : ActionServer).Staged where
  distinct := List.Pairwise.nil
  connected := fun _ he => absurd he not_mem_nil
  nodup := nodup_nil
  once := .refl _
  buffers := .refl _
  untouched := rfl
  issued := fun _ he => absurd he not_mem_nil

end Events

/-- As long as no socket refuses a frame of staged forwards, in every state that is reached each entry of
the outbox is that of one connected worker, each staged forward is sent or dropped once, each buffer is
released once, and no flush writes to an entry that is gone. -/
theorem outbox_owned (cfg : ActionConfig) (htaken : ∀ n fs, cfg.drops n (.staged fs) = false)
    (events : List ActionEvent) : (events.foldl (step cfg) {}).Owned := by
  have h : (events.foldl (step cfg) {}).Settled ∧ (events.foldl (step cfg) {}).Staged :=
    Machine.invariant (I := fun a : ActionServer => a.Settled ∧ a.Staged)
      (fun _ ev h => ⟨h.1.step ev, h.2.step htaken h.1 ev⟩) ⟨settled_init, staged_init⟩ events
  exact h.2.toOwned

end ActionServer

namespace RefusalExample

/-- Anybody in the namespace `a` may run and call the one action, which is asynchronous. Its forwards are
large. -/
def config (drops : ℕ → Frame → Bool) : ActionConfig where
  scopes := {
    usersNamespaced := false
    userId := fun _ _ => 7
    authorizeNamespace := fun _ _ _ _ => true }
  actions := [{ name := "run", params := [] }]
  authConfig := {
    namespaceRules := [⟨[.literal [97]], .boolean true, .boolean true, .boolean true, .boolean true⟩]
    storeRules := []
    actionRules := [{
      action := "run", isWildcard := false, register := .boolean true, invoke := .boolean true }] }
  size := fun _ => 100000
  growCapacity := fun _ needed => needed
  drops

/-- Connection 2 calls the action, for which connection 1 works, and the outbox is flushed. -/
def flushCall : List ActionEvent :=
  [.open 1 ⟨[1], []⟩ 0, .setNamespace 1 false [97] (.hit ⟨1, 7⟩), .register 1 [0],
    .open 2 ⟨[2], []⟩ 0, .setNamespace 2 false [97] (.hit ⟨1, 7⟩),
    .call 2 9 0 (.arr []) none 0, .flushOutbox]

def refusesAll : ℕ → Frame → Bool := fun _ _ => true

def refusesResponses : ℕ → Frame → Bool
  | _, .response .. => true
  | _, _ => false

theorem outbox_owned_flushCall : (flushCall.foldl (step (config refusesResponses)) {}).Owned :=
  outbox_owned (config refusesResponses) (fun _ _ => rfl) flushCall

/-- With its socket full, the worker is closed by the flush, which then writes to the entry that is gone
and releases its buffer again. -/
theorem refused_flush_touches : (flushCall.foldl (step (config refusesAll)) {}).touched = [1] ∧
    (flushCall.foldl (step (config refusesAll)) {}).released = [0, 0] ∧
    ¬ (flushCall.foldl (step (config refusesAll)) {}).Owned := by
  have htouched : (flushCall.foldl (step (config refusesAll)) {}).touched = [1] := rfl
  refine ⟨htouched, rfl, fun h => ?_⟩
  have huntouched := h.untouched
  rw [htouched] at huntouched
  cases huntouched

end RefusalExample
end ZyncBase
