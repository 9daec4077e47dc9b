import Mathlib.Logic.Relation
import ZyncBase.Actions.Service

/-! What the operations of the actions service consist of: single changes, of which each invariant has
to be shown to survive only one at a time. -/
namespace ZyncBase

open Function Outcome List

variable {connId execId : ℕ}

namespace ActionServer

open AssocMap

abbrev Tells := ℕ → PendingCall → ResponseBody → Prop

def anything : Tells := fun _ _ _ => True

/-- One change of the service: a connection is cut off, a call is answered or dropped with its caller,
or a worker's staged forwards are sent or forgotten. Beside what the operation tells callers, they may
be told that the worker is lost, when it is. -/
inductive Micro (cfg : ActionConfig) (tells : Tells) : ActionServer → ActionServer → Prop
  | cut {a} (connId n : ℕ) : (a.server.map connId).isSome →
    Micro cfg tells a (({ a with sends := n } : ActionServer).detach connId)
  | answered {a a'} {execId : ℕ} {p c} (body : ResponseBody) :
    a.removePending execId = some (p, a') → a.server.map p.callerConnId = some c →
    (tells execId p body ∨
      body = .error .workerDisconnected ∧ a.server.map p.workerConnId = none) →
    Micro cfg tells a { a' with
      sends := a'.sends + 1
      sent := a'.sent ++ [⟨p.callerConnId, .response p.reqId body execId, c⟩] }
  | unanswered {a a'} {execId : ℕ} {p} : a.removePending execId = some (p, a') →
    a.server.map p.callerConnId = none → Micro cfg tells a a'
  | refused {a a'} {execId : ℕ} {p} : a.removePending execId = some (p, a') →
    (a.server.map p.callerConnId).isSome →
    Micro cfg tells a (({ a' with sends := a'.sends + 1 } : ActionServer).detach p.callerConnId)
  | flushed {a} {connId : ℕ} {staged c} : find eqKey connId a.outbox = some staged →
    a.server.map connId = some c →
    Micro cfg tells a (({ a with
      sends := a.sends + 1
      sent := a.sent ++ [⟨connId, .staged staged.bytes, c⟩] } : ActionServer).clearStaged connId
        staged)
  | forgotten {a} {connId : ℕ} {staged} : find eqKey connId a.outbox = some staged →
    a.server.map connId = none → Micro cfg tells a (a.clearStaged connId staged)
  | overwritten {a} {connId n : ℕ} {staged : StagedForwards} :
    cfg.drops n (.staged staged.bytes) = true → find eqKey connId a.outbox = none →
    Micro cfg tells a (a.clearStaged connId staged)

def Steps (cfg : ActionConfig) (tells : Tells) : ActionServer → ActionServer → Prop :=
  Relation.ReflTransGen (Micro cfg tells)

variable {cfg : ActionConfig} {tells : Tells} {a a' b : ActionServer}

lemma Steps.invariant {I : ActionServer → Prop} (hmicro : ∀ a b, I a → Micro cfg tells a b → I b)
    (h : Steps cfg tells a b) (ha : I a) : I b := by
  induction h with
  | refl => exact ha
  | tail _ hstep ih => exact hmicro _ _ ih hstep

section Frames

@[simp] lemma server_dropStaged (connId : ℕ) (a : ActionServer) : (a.dropStaged connId).server = a.server := by
  unfold dropStaged
  cases find eqKey connId a.outbox <;> rfl

/-- The parts of a state that its calls are no part of. -/
structure SameBut (a b : ActionServer) : Prop where
  server : b.server = a.server
  registry : b.registry = a.registry
  outbox : b.outbox = a.outbox
  nextExecId : b.nextExecId = a.nextExecId
  sent : b.sent = a.sent
  admitted : b.admitted = a.admitted
  stagedIds : b.stagedIds = a.stagedIds
  droppedIds : b.droppedIds = a.droppedIds
  buffers : b.buffers = a.buffers
  released : b.released = a.released
  touched : b.touched = a.touched

lemma SameBut.refl (a : ActionServer) : SameBut a a :=
  ⟨rfl, rfl, rfl, rfl, rfl, rfl, rfl, rfl, rfl, rfl, rfl⟩

lemma SameBut.trans {c : ActionServer} (h : SameBut a b) (h' : SameBut b c) : SameBut a c :=
  ⟨h'.server.trans h.server, h'.registry.trans h.registry, h'.outbox.trans h.outbox,
    h'.nextExecId.trans h.nextExecId, h'.sent.trans h.sent, h'.admitted.trans h.admitted,
    h'.stagedIds.trans h.stagedIds, h'.droppedIds.trans h.droppedIds, h'.buffers.trans h.buffers,
    h'.released.trans h.released, h'.touched.trans h.touched⟩

variable {p : PendingCall}

lemma sameBut_removePending (h : a.removePending execId = some (p, a')) : SameBut a a' := by
  obtain ⟨-, counts, rfl⟩ := removePending_eq_some h
  exact ⟨rfl, rfl, rfl, rfl, rfl, rfl, rfl, rfl, rfl, rfl, rfl⟩

lemma sameBut_dropPending (execId : ℕ) (a : ActionServer) : SameBut a (a.dropPending execId) := by
  unfold dropPending
  cases h : a.removePending execId with
  | none => exact .refl a
  | some r => exact sameBut_removePending h

/-- The connection cut off, before its calls are dropped. -/
def severed (connId : ℕ) (a : ActionServer) : ActionServer :=
  (({ a with server := a.server.teardownSession connId } : ActionServer).dropStaged
    connId).unregister connId none

lemma sameBut_detach (connId : ℕ) (a : ActionServer) : SameBut (a.severed connId) (a.detach connId) :=
  List.foldlRecOn _ _ (SameBut.refl _) fun _ hb e _ => hb.trans (sameBut_dropPending e _)

lemma find_foldl_dropPending (es : List ℕ) (a : ActionServer) (execId : ℕ) :
    find eqKey execId (es.foldl (fun a e => a.dropPending e) a).pending =
      if execId ∈ es then none else find eqKey execId a.pending := by
  induction es generalizing a with
  | nil => rfl
  | cons e es ih =>
    rw [foldl_cons, ih]
    have hstep : find eqKey execId (a.dropPending e).pending =
        if e = execId then none else find eqKey execId a.pending := by
      unfold dropPending
      cases h : a.removePending e with
      | none =>
        have hnone : find eqKey e a.pending = none := by
          unfold removePending at h
          cases hp : find eqKey e a.pending with
          | none => rfl
          | some p =>
            rw [hp] at h
            cases h
        by_cases he : e = execId
        · subst he
          rw [if_pos rfl]
          exact hnone
        · rw [if_neg he]
      | some r =>
        obtain ⟨_, counts, hr⟩ := removePending_eq_some h
        dsimp only
        rw [hr]
        dsimp only
        rw [find_remove]
        simp only [eqKey_iff]
    rw [hstep]
    by_cases hmem : execId ∈ es
    · simp [hmem]
    · by_cases he : e = execId
      · simp [he]
      · simp [hmem, he, Ne.symm he]

lemma sublist_removePending (h : a.removePending execId = some (p, a')) : a'.pending.Sublist a.pending := by
  obtain ⟨-, counts, rfl⟩ := removePending_eq_some h
  exact filter_sublist

lemma sublist_dropPending (execId : ℕ) (a : ActionServer) :
    (a.dropPending execId).pending.Sublist a.pending := by
  unfold dropPending
  cases h : a.removePending execId with
  | none => exact .refl _
  | some r => exact sublist_removePending h

lemma sublist_detach (connId : ℕ) (a : ActionServer) : (a.detach connId).pending.Sublist a.pending := by
  have hsevered : (a.severed connId).pending = a.pending := pending_dropStaged connId _
  rw [← hsevered]
  refine List.foldlRecOn (motive := fun b : ActionServer => b.pending.Sublist (a.severed connId).pending) _ _
    (List.Sublist.refl _) fun b hb e _ => ?_
  exact (sublist_dropPending e b).trans hb

lemma pending_clearStaged (connId : ℕ) (staged : StagedForwards) (a : ActionServer) :
    (a.clearStaged connId staged).pending = a.pending := by
  unfold clearStaged
  cases find eqKey connId a.outbox <;> rfl

lemma find_of_sublist (hd : Distinct eqKey a.pending)
    (hsub : b.pending.Sublist a.pending) (hp : find eqKey execId b.pending = some p) :
    find eqKey execId a.pending = some p := by
  obtain ⟨e, he, hmem⟩ := mem_of_find eqKey hp
  exact find_of_mem eqKey hd (hsub.subset hmem) he

lemma selected {q : PendingCall → Bool} (hd : Distinct eqKey a.pending) (hsub : b.pending.Sublist a.pending)
    (he : execId ∈ a.execIds q) (hp : find eqKey execId b.pending = some p) : q p = true := by
  obtain ⟨⟨e, p'⟩, hmem, rfl⟩ := mem_map.mp he
  obtain ⟨hmem, hq⟩ := mem_filter.mp hmem
  have hp' := find_of_mem eqKey hd hmem (KeyTest.self eqKey e)
  rw [find_of_sublist hd hsub hp, Option.some.injEq] at hp'
  rw [hp']
  exact hq

end Frames

section Changes

lemma find_outbox_detach (connId id : ℕ) (a : ActionServer) : find eqKey id (a.detach connId).outbox =
    if connId = id then none else find eqKey id a.outbox := by
  rw [(sameBut_detach connId a).outbox]
  change find eqKey id (dropStaged connId _).outbox = _
  unfold dropStaged
  dsimp only
  cases h : find eqKey connId a.outbox with
  | none =>
    by_cases hid : connId = id
    · rw [if_pos hid, ← hid]
      exact h
    · rw [if_neg hid]
  | some staged =>
    dsimp only
    rw [find_remove]
    simp only [eqKey_iff]

lemma map_severed (connId : ℕ) (a : ActionServer) :
    (a.severed connId).server.map = update a.server.map connId none := by
  change (dropStaged connId _).server.map = _
  rw [server_dropStaged]
  unfold Server.teardownSession
  cases hc : a.server.map connId with
  | none =>
    dsimp only
    rw [← hc, update_eq_self]
  | some c => rfl

lemma map_detach (connId : ℕ) (a : ActionServer) :
    (a.detach connId).server.map = update a.server.map connId none := by
  rw [(sameBut_detach connId a).server]
  exact map_severed connId a

lemma registry_detach (connId : ℕ) (a : ActionServer) :
    (a.detach connId).registry = a.registry.unregister connId none := by
  rw [(sameBut_detach connId a).registry]
  change (dropStaged connId _).registry.unregister connId none = _
  unfold dropStaged
  dsimp only
  cases find eqKey connId a.outbox <;> rfl

lemma sent_detach (connId : ℕ) (a : ActionServer) : (a.detach connId).sent = a.sent := by
  rw [(sameBut_detach connId a).sent]
  change (dropStaged connId _).sent = _
  unfold dropStaged
  dsimp only
  cases find eqKey connId a.outbox <;> rfl

lemma find_outbox_clearStaged (connId id : ℕ) (staged : StagedForwards) (a : ActionServer) (h : id ≠ connId) :
    find eqKey id (a.clearStaged connId staged).outbox = find eqKey id a.outbox := by
  unfold clearStaged
  cases find eqKey connId a.outbox with
  | none => rfl
  | some _ =>
    dsimp only
    rw [find_put, if_neg (by simpa using h.symm)]

@[simp] lemma server_clearStaged (connId : ℕ) (staged : StagedForwards) (a : ActionServer) :
    (a.clearStaged connId staged).server = a.server := by
  unfold clearStaged
  cases find eqKey connId a.outbox <;> rfl

lemma Micro.map (h : Micro cfg tells a b) {id : ℕ} {c : Connection SessionClaims}
    (hc : b.server.map id = some c) : a.server.map id = some c := by
  have hcut (connId n : ℕ) (a : ActionServer)
      (hc : (({ a with sends := n } : ActionServer).detach connId).server.map id = some c) :
      a.server.map id = some c := by
    rw [map_detach] at hc
    by_cases hid : id = connId
    · rw [hid, update_self] at hc
      cases hc
    · rwa [update_of_ne hid] at hc
  cases h with
  | cut connId n _ => exact hcut connId n a hc
  | answered body hr _ _ => exact (sameBut_removePending hr).server ▸ hc
  | unanswered hr _ => exact (sameBut_removePending hr).server ▸ hc
  | refused hr _ =>
    rw [← (sameBut_removePending hr).server]
    exact hcut _ _ _ hc
  | flushed _ _ => rwa [server_clearStaged] at hc
  | forgotten _ _ => rwa [server_clearStaged] at hc
  | overwritten _ _ => rwa [server_clearStaged] at hc

lemma Steps.map (h : Steps cfg tells a b) {id : ℕ} {c : Connection SessionClaims}
    (hc : b.server.map id = some c) : a.server.map id = some c := by
  induction h with
  | refl => exact hc
  | tail _ hstep ih => exact ih (hstep.map hc)

lemma Micro.absent (h : Micro cfg tells a b) {id : ℕ} (hid : find eqKey id a.outbox = none) :
    find eqKey id b.outbox = none := by
  have hcut (connId : ℕ) (a : ActionServer) (h : find eqKey id a.outbox = none) :
      find eqKey id (a.detach connId).outbox = none := by
    rw [find_outbox_detach, h, ite_self]
  have hne {connId : ℕ} {staged : StagedForwards} (h : find eqKey connId a.outbox = some staged) :
      id ≠ connId := by
    rintro rfl
    rw [hid] at h
    cases h
  cases h with
  | cut connId n _ => exact hcut connId { a with sends := n } hid
  | answered body hr _ _ => exact (sameBut_removePending hr).outbox ▸ hid
  | unanswered hr _ => exact (sameBut_removePending hr).outbox ▸ hid
  | refused hr _ => exact hcut _ _ ((sameBut_removePending hr).outbox ▸ hid)
  | flushed hfind _ =>
    rw [find_outbox_clearStaged _ _ _ _ (hne hfind)]
    exact hid
  | forgotten hfind _ =>
    rw [find_outbox_clearStaged _ _ _ _ (hne hfind)]
    exact hid
  | overwritten _ hfind =>
    unfold clearStaged
    rw [hfind]
    exact hid

lemma Steps.absent (h : Steps cfg tells a b) {id : ℕ} (hid : find eqKey id a.outbox = none) :
    find eqKey id b.outbox = none :=
  h.invariant (fun _ _ hid hstep => hstep.absent hid) hid

lemma Micro.sublist (h : Micro cfg tells a b) : b.pending.Sublist a.pending := by
  cases h with
  | cut connId n _ => exact sublist_detach connId { a with sends := n }
  | answered body hr _ _ =>
    have hsub := sublist_removePending hr
    exact hsub
  | unanswered hr _ => exact sublist_removePending hr
  | refused hr _ =>
    have hsub := sublist_removePending hr
    exact (sublist_detach _ _).trans hsub
  | flushed _ _ =>
    rw [pending_clearStaged]
  | forgotten _ _ =>
    rw [pending_clearStaged]
  | overwritten _ _ =>
    rw [pending_clearStaged]

lemma Steps.sublist (h : Steps cfg tells a b) : b.pending.Sublist a.pending := by
  induction h with
  | refl => exact .refl _
  | tail _ hstep ih => exact hstep.sublist.trans ih

lemma Steps.distinct (h : Steps cfg tells a b) (hd : Distinct eqKey a.pending) :
    Distinct eqKey b.pending := hd.sublist h.sublist

end Changes

section Operations

lemma deliver_cases (cfg : ActionConfig) (connId : ℕ) (frame : Frame) (a : ActionServer) :
    (a.server.map connId = none ∧ sendTo cfg connId frame a = a) ∨
    ∃ c, a.server.map connId = some c ∧
      (sendTo cfg connId frame a = { a with sends := a.sends + 1, sent := a.sent ++ [⟨connId, frame, c⟩] } ∨
        cfg.drops a.sends frame = true ∧
          sendTo cfg connId frame a = onClose cfg connId { a with sends := a.sends + 1 }) := by
  unfold sendTo deliver
  cases hc : a.server.map connId with
  | none => exact .inl ⟨rfl, rfl⟩
  | some c =>
    right
    refine ⟨c, rfl, ?_⟩
    dsimp only
    by_cases hdrops : cfg.drops a.sends frame
    · rw [if_pos hdrops]
      exact .inr ⟨hdrops, rfl⟩
    · rw [if_neg hdrops]
      exact .inl rfl

lemma steps_foldl_answer {body : ResponseBody} {es : List ℕ}
    (h : ∀ e ∈ es, ∀ b, Steps cfg tells a b → Steps cfg tells b (b.answer (sendTo cfg) body e)) :
    Steps cfg tells a (es.foldl (fun a e => a.answer (sendTo cfg) body e) a) := by
  induction es generalizing a with
  | nil => exact .refl
  | cons e es ih =>
    obtain ⟨he, hes⟩ := forall_mem_cons.mp h
    have hfirst := he a .refl
    exact hfirst.trans (ih fun e he b hb => hes e he b (hfirst.trans hb))

/-- Closing a connection cuts it off first; the rest are answers to calls that it had as a worker. -/
lemma steps_onClose_tail (tells : Tells) (n : ℕ) (hd : Distinct eqKey a.pending)
    (hn : a.pending.length ≤ n) (hopen : (a.server.map connId).isSome) :
    Steps cfg tells (a.detach connId) (a.onClose cfg connId) := by
  induction n generalizing a connId with
  | zero =>
    rw [onClose_eq]
    unfold closeWith
    obtain ⟨c, hc⟩ := Option.isSome_iff_exists.mp hopen
    rw [hc]
    have hnil : a.pending = [] := length_eq_zero_iff.mp (Nat.le_zero.mp hn)
    dsimp only
    rw [execIds, hnil]
    exact .refl
  | succ n ih =>
    rw [onClose_eq]
    unfold closeWith
    obtain ⟨c, hc⟩ := Option.isSome_iff_exists.mp hopen
    rw [hc]
    refine steps_foldl_answer fun e he b hb => ?_
    have hsub : b.pending.Sublist a.pending := hb.sublist.trans (sublist_detach connId a)
    unfold answer
    cases hr : b.removePending e with
    | none => exact .refl
    | some r =>
      obtain ⟨p, b'⟩ := r
      dsimp only
      have hworker : p.workerConnId = connId := by
        have hp := selected hd hsub he (removePending_eq_some hr).1
        exact (of_decide_eq_true hp).2
      have hlost : b.server.map p.workerConnId = none := by
        rw [hworker]
        cases hmap : b.server.map connId with
        | none => rfl
        | some d =>
          have hbefore := hb.map hmap
          rw [map_detach, update_self] at hbefore
          cases hbefore
      have hlt := length_removePending hr
      have hserver := (sameBut_removePending hr).server
      rcases deliver_cases cfg p.callerConnId
        (.response p.reqId (.error .workerDisconnected) e) b' with ⟨hnone, heq⟩ | ⟨c', hc', hcase⟩
      · rw [heq]
        exact .single (.unanswered hr (hserver ▸ hnone))
      · rcases hcase with heq | ⟨-, heq⟩
        · rw [heq]
          exact .single (.answered _ hr (hserver ▸ hc') (.inr ⟨rfl, hlost⟩))
        · rw [heq]
          have hopen' : (b'.server.map p.callerConnId).isSome := by
            rw [hc']
            rfl
          refine Relation.ReflTransGen.head (.refused hr (hserver ▸ hopen')) ?_
          refine ih ?_ ?_ hopen'
          · have hsub' := sublist_removePending hr
            exact (hd.sublist hsub).sublist hsub'
          · have hlen := hsub.length_le
            change b'.pending.length ≤ n
            omega

lemma steps_onClose (tells : Tells) (connId : ℕ) (hd : Distinct eqKey a.pending) :
    Steps cfg tells a (a.onClose cfg connId) := by
  cases hc : a.server.map connId with
  | none =>
    rw [onClose_eq, closeWith, hc]
    exact .refl
  | some c =>
    have hopen : (a.server.map connId).isSome := by
      rw [hc]
      rfl
    exact .head (.cut connId a.sends hopen) (steps_onClose_tail tells _ hd le_rfl hopen)

lemma steps_refused (tells : Tells) (hd : Distinct eqKey a.pending) (hopen : (a.server.map connId).isSome) :
    Steps cfg tells a (onClose cfg connId { a with sends := a.sends + 1 }) :=
  .head (.cut connId (a.sends + 1) hopen) (steps_onClose_tail
    (a := { a with sends := a.sends + 1 }) tells _ hd le_rfl hopen)

lemma steps_answer {body : ResponseBody} (hd : Distinct eqKey a.pending)
    (htells : ∀ p, find eqKey execId a.pending = some p → tells execId p body) :
    Steps cfg tells a (a.answer (sendTo cfg) body execId) := by
  unfold answer
  cases hr : a.removePending execId with
  | none => exact .refl
  | some r =>
    obtain ⟨p, a'⟩ := r
    dsimp only
    have hserver := (sameBut_removePending hr).server
    rcases deliver_cases cfg p.callerConnId (.response p.reqId body execId) a' with
      ⟨hnone, heq⟩ | ⟨c, hc, heq | ⟨-, heq⟩⟩
    · rw [heq]
      exact .single (.unanswered hr (hserver ▸ hnone))
    · rw [heq]
      exact .single (.answered _ hr (hserver ▸ hc) (.inl (htells p (removePending_eq_some hr).1)))
    · rw [heq]
      have hopen : (a'.server.map p.callerConnId).isSome := by
        rw [hc]
        rfl
      have hd' : Distinct eqKey a'.pending := hd.sublist (sublist_removePending hr)
      exact .head (.refused hr (hserver ▸ hopen))
        (steps_onClose_tail (a := { a' with sends := a'.sends + 1 }) tells _ hd' le_rfl hopen)

lemma steps_answerAll (cfg : ActionConfig) {e : CallError} {q : PendingCall → Bool}
    (hd : Distinct eqKey a.pending)
    (htells : ∀ execId p, find eqKey execId a.pending = some p → q p = true →
      tells execId p (.error e)) : Steps cfg tells a (a.answerAll cfg e q) := by
  refine steps_foldl_answer fun execId he b hb => ?_
  refine steps_answer (hd.sublist hb.sublist) fun p hp => ?_
  exact htells execId p (find_of_sublist hd hb.sublist hp) (selected hd hb.sublist he hp)

end Operations

section Flushes

lemma absent_onClose (cfg : ActionConfig) (hd : Distinct eqKey a.pending)
    (hopen : (a.server.map connId).isSome) : find eqKey connId (a.onClose cfg connId).outbox = none := by
  refine (steps_onClose_tail anything _ hd le_rfl hopen).absent ?_
  rw [find_outbox_detach, if_pos rfl]

lemma steps_flushWorker (cfg : ActionConfig) (tells : Tells) (connId : ℕ)
    (hd : Distinct eqKey a.pending) : Steps cfg tells a (a.flushWorker cfg connId) := by
  unfold flushWorker
  cases hfind : find eqKey connId a.outbox with
  | none => exact .refl
  | some staged =>
    dsimp only
    unfold flushStaged
    by_cases hlen : staged.bytes.length = 0
    · rw [if_pos hlen]
      exact .refl
    rw [if_neg hlen]
    rcases deliver_cases cfg connId (.staged staged.bytes) a with
      ⟨hnone, heq⟩ | ⟨c, hc, heq | ⟨hdrops, heq⟩⟩
    · rw [heq]
      exact .single (.forgotten hfind hnone)
    · rw [heq]
      exact .single (.flushed hfind hc)
    · rw [heq]
      have hopen : (a.server.map connId).isSome := by
        rw [hc]
        rfl
      have habsent := absent_onClose (a := { a with sends := a.sends + 1 }) cfg hd hopen
      exact (steps_refused tells hd hopen).tail (.overwritten hdrops habsent)

lemma bytes_flushWorker (cfg : ActionConfig) {staged : StagedForwards}
    (h : find eqKey connId (a.flushWorker cfg connId).outbox = some staged) : staged.bytes = [] := by
  unfold flushWorker at h
  cases hfind : find eqKey connId a.outbox with
  | none =>
    rw [hfind] at h
    dsimp only at h
    rw [hfind] at h
    cases h
  | some before =>
    rw [hfind] at h
    dsimp only at h
    unfold flushStaged at h
    by_cases hlen : before.bytes.length = 0
    · rw [if_pos hlen, hfind] at h
      cases h
      exact length_eq_zero_iff.mp hlen
    rw [if_neg hlen] at h
    unfold clearStaged at h
    cases hafter : find eqKey connId (sendTo cfg connId (.staged before.bytes) a).outbox with
    | none =>
      rw [hafter] at h
      dsimp only at h
      rw [hafter] at h
      cases h
    | some _ =>
      rw [hafter] at h
      dsimp only at h
      rw [find_put, if_pos (by simp)] at h
      cases h
      split_ifs <;> rfl

lemma steps_flushOutbox (cfg : ActionConfig) (tells : Tells) (hd : Distinct eqKey a.pending) :
    Steps cfg tells a (a.flushOutbox cfg) :=
  List.foldlRecOn _ _ .refl fun _ hb connId _ =>
    hb.trans (steps_flushWorker cfg tells connId (hb.distinct hd))

lemma steps_sendTo_cases (cfg : ActionConfig) (tells : Tells) (connId : ℕ) (frame : Frame)
    (hd : Distinct eqKey a.pending) : Steps cfg tells a (sendTo cfg connId frame a) ∨
      ∃ c, a.server.map connId = some c ∧ sendTo cfg connId frame a =
        { a with sends := a.sends + 1, sent := a.sent ++ [⟨connId, frame, c⟩] } := by
  rcases deliver_cases cfg connId frame a with ⟨-, heq⟩ | ⟨c, hc, heq | ⟨-, heq⟩⟩
  · rw [heq]
    exact .inl .refl
  · exact .inr ⟨c, hc, heq⟩
  · rw [heq]
    refine .inl (steps_refused tells hd ?_)
    rw [hc]
    rfl

end Flushes

section Calls

lemma mem_stageForward {worker id : ℕ} {f g : Forward} {staged : StagedForwards}
    (hfind : find eqKey id (a.stageForward cfg worker f).outbox = some staged)
    (hg : g ∈ staged.bytes) : id = worker ∧ g = f ∨
      ∃ before, find eqKey id a.outbox = some before ∧ g ∈ before.bytes := by
  unfold stageForward at hfind
  dsimp only at hfind
  rw [find_put] at hfind
  by_cases hid : worker = id
  · rw [if_pos (by simpa using hid)] at hfind
    cases hfind
    subst hid
    rcases mem_append.mp hg with hg | hg
    · cases hold : find eqKey worker a.outbox with
      | none =>
        rw [hold] at hg
        cases hg
      | some before =>
        rw [hold] at hg
        exact .inr ⟨before, rfl, hg⟩
    · exact .inl ⟨rfl, mem_singleton.mp hg⟩
  · rw [if_neg (by simpa using hid)] at hfind
    exact .inr ⟨staged, hfind, hg⟩

def picked (registry : ActionRegistry) (a : ActionServer) : ActionServer :=
  { a with registry, nextExecId := a.nextExecId + 1 }

/-- How a call goes on once it is authorized and valid: no worker, too many calls, or a forward that is
staged, or sent at once. -/
lemma forwardCall_cases (cfg : ActionConfig) (connId : ℕ) (c : Connection SessionClaims)
    (reqId actionId : ℕ) (action : Action) (info : ScopeInfo) (params : Payload) (deadlineNs : ℤ)
    (a : ActionServer) :
    a.forwardCall cfg connId c reqId actionId action info params deadlineNs = a ∨
    ∃ key worker registry f, a.registry.pickWorker key = some (worker, registry) ∧ f.key = key ∧
      f.execId = a.nextExecId ∧
      (a.forwardCall cfg connId c reqId actionId action info params deadlineNs = a.picked registry ∨
      action.isSync = false ∧ a.forwardCall cfg connId c reqId actionId action info params deadlineNs =
          (a.picked registry).stageForward cfg worker f ∨
      action.isSync = true ∧ a.forwardCall cfg connId c reqId actionId action info params deadlineNs =
          sendTo cfg worker (.forward f) (((a.picked registry).addPending a.nextExecId
            ⟨connId, worker, reqId, actionId, action.scope, deadlineNs⟩ c.opening).flushWorker cfg
              worker)) := by
  unfold forwardCall
  dsimp only
  cases hpick : a.registry.pickWorker ⟨action.scope, info.namespaceId, actionId⟩ with
  | none => exact .inl rfl
  | some r =>
    obtain ⟨worker, registry⟩ := r
    refine .inr ⟨_, worker, registry, ⟨a.nextExecId, (c.baseCtx connId).userDocId, actionId, params,
      forwardClaims action.claims (c.baseCtx connId).sessionClaims, _⟩, hpick, rfl, rfl, ?_⟩
    dsimp only
    cases hsync : action.isSync with
    | false => exact .inr (.inl ⟨rfl, rfl⟩)
    | true =>
      by_cases hlimit : maxPendingPerConnection ≤ (find eqKey connId a.pendingCounts).getD 0
      · rw [if_neg (by simp), if_pos hlimit]
        exact .inl rfl
      · rw [if_neg (by simp), if_neg hlimit]
        exact .inr (.inr ⟨rfl, rfl⟩)

lemma actions_of_admitCall {config : AuthConfig} {actions : List Action} {ctx : RequestFacts}
    {actionId : ℕ} {params : Payload} {action : Action} {info : ScopeInfo}
    (h : admitCall config actions ctx actionId params = .ok (action, info)) :
    actions[actionId]? = some action := by
  unfold admitCall at h
  split_ifs at h
  · cases h
  obtain ⟨id, hid, h⟩ := bind_eq_ok.mp h
  unfold castU32 at hid
  split_ifs at hid
  cases hid
  cases hfound : actions[actionId]? with
  | none =>
    rw [hfound] at h
    cases h
  | some found =>
    rw [hfound] at h
    dsimp only at h
    cases hinfo : scopeInfo ctx found.scope with
    | none =>
      rw [hinfo] at h
      cases h
    | some _ =>
      rw [hinfo] at h
      obtain ⟨_, -, h⟩ := bind_eq_ok.mp h
      obtain ⟨_, -, h⟩ := bind_eq_ok.mp h
      cases h
      rfl

lemma call_cases (cfg : ActionConfig) (connId reqId actionId : ℕ) (params : Payload)
    (clientTimeoutMs : Option ℕ) (nowNs : ℤ) (a : ActionServer) :
    a.call cfg connId reqId actionId params clientTimeoutMs nowNs = a ∨
    ∃ c action info deadlineNs, a.server.map connId = some c ∧ cfg.actions[actionId]? = some action ∧
      a.call cfg connId reqId actionId params clientTimeoutMs nowNs =
        a.forwardCall cfg connId c reqId actionId action info params deadlineNs := by
  unfold call
  cases hc : a.server.map connId with
  | none => exact .inl rfl
  | some c =>
    dsimp only
    split_ifs
    · exact .inl rfl
    cases hadmit : admitCall cfg.authConfig cfg.actions (c.baseCtx connId) actionId params with
    | error e => exact .inl rfl
    | ok r =>
      obtain ⟨action, info⟩ := r
      exact .inr ⟨c, action, info, _, rfl, actions_of_admitCall hadmit, rfl⟩

/-- A re-authentication leaves a worker a session that may not hold this registration of its. -/
def Revokes (cfg : ActionConfig) (a : ActionServer) (connId : ℕ) (subject : Bytes) (claims : SessionClaims)
    (key : RegistryKey) : Prop :=
  ∃ c bucket, a.server.map connId = some c ∧ c.session.map Session.externalId = some subject ∧
    (key, bucket) ∈ a.registry ∧ connId ∈ bucket.workers ∧
    mayHold cfg ((c.updateSessionClaims claims).baseCtx connId) key = false

/-- The response that an event causes to a call that waits: what its worker replies in time, or an error
if that does not fit, if it is late, if the caller leaves the scope or if the worker may not go on. -/
inductive Causes (cfg : ActionConfig) (a : ActionServer) (execId : ℕ) (p : PendingCall) :
    ActionEvent → ResponseBody → Prop
  | returned {payload nowNs returns} : nowNs < p.deadlineNs →
    cfg.actions[p.actionId]?.bind Action.returns = some returns → validatePayload returns payload = .ok () →
    Causes cfg a execId p (.reply p.workerConnId execId true payload nowNs) (.ok payload)
  | unfit {payload nowNs returns e} : nowNs < p.deadlineNs →
    cfg.actions[p.actionId]?.bind Action.returns = some returns → validatePayload returns payload = .error e →
    Causes cfg a execId p (.reply p.workerConnId execId true payload nowNs) (.error .schemaValidationFailed)
  | failed {payload nowNs code message} : nowNs < p.deadlineNs →
    errorPair payload = some (code, message) →
    Causes cfg a execId p (.reply p.workerConnId execId false payload nowNs) (.workerError code message)
  | unreadable {payload nowNs} : nowNs < p.deadlineNs → errorPair payload = none →
    Causes cfg a execId p (.reply p.workerConnId execId false payload nowNs) (.error .internalError)
  | late {ok payload nowNs} : p.deadlineNs ≤ nowNs →
    Causes cfg a execId p (.reply p.workerConnId execId ok payload nowNs) (.error .actionTimeout)
  | swept {nowNs} : p.deadlineNs ≤ nowNs →
    Causes cfg a execId p (.sweep nowNs) (.error .actionTimeout)
  | superseded {isPresence nspace cache c} :
    a.server.begins cfg.scopes p.callerConnId nspace = some c → p.scope = .ofPresence isPresence →
    Causes cfg a execId p (.setNamespace p.callerConnId isPresence nspace cache) (.error .requestSuperseded)
  | revoked {subject claims key} : a.Revokes cfg p.workerConnId subject claims key →
    key.actionId = p.actionId →
    Causes cfg a execId p (.authRefresh p.workerConnId subject claims) (.error .permissionDenied)

lemma Causes.unique {ev : ActionEvent} {p : PendingCall} {body body' : ResponseBody}
    (h : Causes cfg a execId p ev body) (h' : Causes cfg a execId p ev body') : body = body' := by
  -- The time tells a late reply from the others, and its payload those from each other.
  cases h <;> cases h' <;> first | rfl | omega | simp_all

lemma resolveReply_cases (cfg : ActionConfig) (workerConnId execId : ℕ) (ok : Bool)
    (payload : Payload) (nowNs : ℤ) (a : ActionServer) :
    a.resolveReply cfg workerConnId execId ok payload nowNs = a ∨
    ∃ p, find eqKey execId a.pending = some p ∧ p.workerConnId = workerConnId ∧
      ((∃ body, Causes cfg a execId p (.reply workerConnId execId ok payload nowNs) body ∧
          a.resolveReply cfg workerConnId execId ok payload nowNs =
            a.answer (sendTo cfg) body execId) ∨
        (cfg.actions[p.actionId]?.bind Action.returns = none ∧
          a.resolveReply cfg workerConnId execId ok payload nowNs = a.dropPending execId)) := by
  unfold resolveReply
  cases hp : find eqKey execId a.pending with
  | none => exact .inl rfl
  | some p =>
    dsimp only
    by_cases hworker : p.workerConnId = workerConnId
    · rw [if_neg (not_not.mpr hworker)]
      refine .inr ⟨p, rfl, hworker, ?_⟩
      subst hworker
      by_cases hlate : p.deadlineNs ≤ nowNs
      · rw [if_pos hlate]
        exact .inl ⟨.error .actionTimeout, .late hlate, rfl⟩
      rw [if_neg hlate]
      rw [not_le] at hlate
      cases haction : cfg.actions[p.actionId]? with
      | none => exact .inr ⟨rfl, rfl⟩
      | some action =>
        dsimp only
        cases ok with
        | true =>
          rw [if_pos rfl]
          cases hreturns : action.returns with
          | none => exact .inr ⟨hreturns, rfl⟩
          | some returns =>
            dsimp only
            have hfound : cfg.actions[p.actionId]?.bind Action.returns = some returns := by
              rw [haction]
              exact hreturns
            cases hvalid : validatePayload returns payload with
            | error e => exact .inl ⟨.error .schemaValidationFailed, .unfit hlate hfound hvalid, rfl⟩
            | ok _ => exact .inl ⟨.ok payload, .returned hlate hfound hvalid, rfl⟩
        | false =>
          rw [if_neg Bool.false_ne_true]
          cases hpair : errorPair payload with
          | none => exact .inl ⟨.error .internalError, .unreadable hlate hpair, rfl⟩
          | some pair => exact .inl ⟨.workerError pair.1 pair.2, .failed hlate hpair, rfl⟩
    · rw [if_pos hworker]
      exact .inl rfl

end Calls
end ActionServer
end ZyncBase
