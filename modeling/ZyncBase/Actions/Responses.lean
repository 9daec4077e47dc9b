import ZyncBase.Actions.Changes

/-! The responses to synchronous calls: each call that the service takes on is answered once, unless its
caller goes away, whatever ends it. -/
namespace ZyncBase

open AssocMap Function List ActionServer Server

def Frame.responds (execId : ℕ) : Frame → Bool
  | .response _ _ e => e = execId
  | _ => false

variable {execId : ℕ} {p : PendingCall}

namespace ActionServer

/-- The responses that a call has got. -/
def responses (execId : ℕ) (a : ActionServer) : List Sent :=
  a.sent.filter fun s => s.frame.responds execId

/-- A call waits while its caller is connected. -/
structure Waiting (a : ActionServer) (m : AdmittedCall) : Prop where
  pending : find eqKey m.execId a.pending = some m.call
  connected : a.server.openings m.call.callerConnId = some m.opening
  unanswered : a.responses m.execId = []

/-- A call has got its response, on the connection that made it. -/
structure Responded (a : ActionServer) (m : AdmittedCall) : Prop where
  ended : find eqKey m.execId a.pending = none
  once : ∃ s body, a.responses m.execId = [s] ∧
    s.frame = .response m.call.reqId body m.execId ∧ s.connId = m.call.callerConnId ∧
    s.conn.opening = m.opening

/-- The caller has gone before the response. -/
structure Abandoned (a : ActionServer) (m : AdmittedCall) : Prop where
  ended : find eqKey m.execId a.pending = none
  gone : a.server.openings m.call.callerConnId ≠ some m.opening
  unanswered : a.responses m.execId = []

/-- What holds between any two changes. -/
structure Accounted (cfg : ActionConfig) (a : ActionServer) : Prop where
  distinct : Distinct eqKey a.pending
  admitted : ∀ execId p, find eqKey execId a.pending = some p → ∃ m ∈ a.admitted, m.execId = execId ∧ m.call = p
  nodup : (a.admitted.map AdmittedCall.execId).Nodup
  issued : ∀ m ∈ a.admitted, m.execId < a.nextExecId
  sync : ∀ m ∈ a.admitted, (cfg.actions[m.call.actionId]?.bind Action.returns).isSome
  opened : ∀ m ∈ a.admitted, m.opening < a.server.opened
  openings : ∀ connId n, a.server.openings connId = some n → n < a.server.opened
  calls : ∀ m ∈ a.admitted, a.Waiting m ∨ a.Responded m ∨ a.Abandoned m
  responses : ∀ s ∈ a.sent, ∀ reqId body execId, s.frame = .response reqId body execId →
    ∃ m ∈ a.admitted, m.execId = execId

variable {cfg : ActionConfig} {tells : Tells} {a a' b : ActionServer} {m : AdmittedCall}

section Changes

lemma responses_concat (s : Sent) (n execId : ℕ) (a : ActionServer) :
    ({ a with sends := n, sent := a.sent ++ [s] } : ActionServer).responses execId =
      a.responses execId ++ if s.frame.responds execId then [s] else [] := by
  unfold responses
  rw [filter_append, filter_singleton, cond_eq_ite]

lemma responses_of_sent (h : b.sent = a.sent) (execId : ℕ) : b.responses execId = a.responses execId := by
  unfold responses
  rw [h]

lemma openings_detach (connId : ℕ) (a : ActionServer) :
    (a.detach connId).server.openings = update a.server.openings connId none := by
  funext id
  unfold openings
  rw [map_detach]
  by_cases hid : id = connId
  · rw [hid, update_self, update_self]
    rfl
  · rw [update_of_ne hid, update_of_ne hid]

lemma find_pending_detach (connId execId : ℕ) (a : ActionServer) : find eqKey execId (a.detach connId).pending =
    if execId ∈ a.execIds (fun p => p.callerConnId = connId) then none
    else find eqKey execId a.pending := by
  have hsevered : (a.severed connId).pending = a.pending := pending_dropStaged connId _
  rw [← hsevered]
  exact find_foldl_dropPending _ (a.severed connId) execId

lemma Waiting.detach (h : a.Waiting m) (hd : Distinct eqKey a.pending) (connId : ℕ) :
    (a.detach connId).Waiting m ∨ (a.detach connId).Abandoned m := by
  have hresponses := responses_of_sent (sent_detach connId a) m.execId
  by_cases hcaller : m.call.callerConnId = connId
  · right
    refine ⟨?_, ?_, hresponses.trans h.unanswered⟩
    · rw [find_pending_detach, if_pos]
      obtain ⟨e, he, hmem⟩ := mem_of_find eqKey h.pending
      rw [eqKey_iff] at he
      subst he
      exact mem_map.mpr ⟨_, mem_filter.mpr ⟨hmem, decide_eq_true hcaller⟩, rfl⟩
    · rw [openings_detach, hcaller, update_self]
      exact nofun
  · left
    refine ⟨?_, ?_, hresponses.trans h.unanswered⟩
    · rw [find_pending_detach, if_neg, h.pending]
      intro hmem
      exact hcaller (of_decide_eq_true (selected hd (List.Sublist.refl _) hmem h.pending))
    · rw [openings_detach, update_of_ne hcaller]
      exact h.connected

lemma find_none_of_sublist (hd : Distinct eqKey a.pending)
    (hsub : b.pending.Sublist a.pending) (h : find eqKey execId a.pending = none) :
    find eqKey execId b.pending = none := by
  cases hp : find eqKey execId b.pending with
  | none => rfl
  | some p =>
    rw [find_of_sublist hd hsub hp] at h
    cases h

lemma Accounted.next (h : a.Accounted cfg) (hsub : b.pending.Sublist a.pending)
    (hadmitted : b.admitted = a.admitted) (hnext : a.nextExecId ≤ b.nextExecId)
    (hopened : b.server.opened = a.server.opened)
    (hopenings : ∀ connId n, b.server.openings connId = some n → a.server.openings connId = some n)
    (hwaiting : ∀ m ∈ a.admitted, a.Waiting m → b.Waiting m ∨ b.Responded m ∨ b.Abandoned m)
    (hended : ∀ execId, find eqKey execId a.pending = none →
      b.responses execId = a.responses execId)
    (hresponses : ∀ s ∈ b.sent, ∀ reqId body execId, s.frame = .response reqId body execId →
      ∃ m ∈ a.admitted, m.execId = execId) : b.Accounted cfg where
  distinct := h.distinct.sublist hsub
  admitted := by
    intro execId p hp
    rw [hadmitted]
    exact h.admitted execId p (find_of_sublist h.distinct hsub hp)
  nodup := by
    rw [hadmitted]
    exact h.nodup
  issued := by
    rw [hadmitted]
    exact fun m hm => (h.issued m hm).trans_le hnext
  sync := by
    rw [hadmitted]
    exact h.sync
  opened := by
    rw [hadmitted, hopened]
    exact h.opened
  openings := by
    rw [hopened]
    exact fun connId n hn => h.openings connId n (hopenings connId n hn)
  calls := by
    rw [hadmitted]
    intro m hm
    rcases h.calls m hm with hw | hr | ha
    · exact hwaiting m hm hw
    · refine .inr (.inl ⟨find_none_of_sublist h.distinct hsub hr.ended, ?_⟩)
      rw [hended m.execId hr.ended]
      exact hr.once
    · refine .inr (.inr ⟨find_none_of_sublist h.distinct hsub ha.ended, ?_, ?_⟩)
      · exact fun hn => ha.gone (hopenings _ _ hn)
      · rw [hended m.execId ha.ended]
        exact ha.unanswered
  responses := by
    rw [hadmitted]
    exact hresponses

/-- Changes that concern neither calls nor the connections that are open. -/
structure Silent (a b : ActionServer) : Prop where
  pending : b.pending = a.pending
  admitted : b.admitted = a.admitted
  nextExecId : a.nextExecId ≤ b.nextExecId
  sent : b.sent = a.sent
  openings : SameOpenings a.server b.server

lemma Waiting.silent (h : a.Waiting m) (hs : Silent a b) : b.Waiting m where
  pending := by
    rw [hs.pending]
    exact h.pending
  connected := by
    rw [hs.openings.1]
    exact h.connected
  unanswered := (responses_of_sent hs.sent m.execId).trans h.unanswered

lemma Accounted.silent (h : a.Accounted cfg) (hs : Silent a b) : b.Accounted cfg := by
  refine h.next (by rw [hs.pending]) hs.admitted hs.nextExecId hs.openings.2 (fun id n hn => ?_)
    (fun m _ hw => .inl (hw.silent hs)) (fun e _ => responses_of_sent hs.sent e) ?_
  · rwa [hs.openings.1] at hn
  · rw [hs.sent]
    exact h.responses

lemma detach_frame (connId : ℕ) (a : ActionServer) :
    (a.detach connId).admitted = a.admitted ∧ (a.detach connId).nextExecId = a.nextExecId ∧
      (a.detach connId).server.opened = a.server.opened := by
  have hs := sameBut_detach connId a
  rw [hs.admitted, hs.nextExecId, hs.server]
  change (dropStaged connId _).admitted = _ ∧ (dropStaged connId _).nextExecId = _ ∧
    (dropStaged connId _).server.opened = _
  have hopened : (a.server.teardownSession connId).opened = a.server.opened := by
    unfold teardownSession
    cases a.server.map connId with
    | none => rfl
    | some c => exact (removeAllForConnection_frame a.server connId c).2.1
  unfold dropStaged
  dsimp only
  cases find eqKey connId a.outbox <;> exact ⟨rfl, rfl, hopened⟩

lemma Accounted.detach (h : a.Accounted cfg) (connId : ℕ) : (a.detach connId).Accounted cfg := by
  obtain ⟨hadmitted, hnext, hopened⟩ := detach_frame connId a
  refine h.next (sublist_detach connId a) hadmitted hnext.ge hopened (fun id n hn => ?_)
    (fun m _ hw => ?_) (fun execId _ => responses_of_sent (sent_detach connId a) execId) ?_
  · rw [openings_detach] at hn
    by_cases hid : id = connId
    · rw [hid, update_self] at hn
      cases hn
    · rwa [update_of_ne hid] at hn
  · rcases hw.detach h.distinct connId with hw | ha
    · exact .inl hw
    · exact .inr (.inr ha)
  · rw [sent_detach]
    exact h.responses

lemma Accounted.frame (h : a.Accounted cfg) {s : Sent} (hs : ∀ e, s.frame.responds e = false)
    (n : ℕ) : ({ a with sends := n, sent := a.sent ++ [s] } : ActionServer).Accounted cfg := by
  have hresponses (execId : ℕ) : ({ a with sends := n, sent := a.sent ++ [s] } :
      ActionServer).responses execId = a.responses execId := by
    rw [responses_concat, hs, if_neg Bool.false_ne_true, append_nil]
  refine h.next (List.Sublist.refl _) rfl le_rfl rfl (fun _ _ hn => hn) (fun m _ hw => ?_)
    (fun execId _ => hresponses execId) ?_
  · exact .inl ⟨hw.pending, hw.connected, (hresponses m.execId).trans hw.unanswered⟩
  · intro t ht reqId body execId hframe
    rcases mem_append.mp ht with ht | ht
    · exact h.responses t ht reqId body execId hframe
    · rw [mem_singleton.mp ht] at hframe
      have hno := hs execId
      rw [hframe] at hno
      simp [Frame.responds] at hno

lemma Accounted.clearStaged (h : a.Accounted cfg) (connId : ℕ) (staged : StagedForwards) :
    (a.clearStaged connId staged).Accounted cfg := by
  unfold ActionServer.clearStaged
  cases find eqKey connId a.outbox with
  | none => exact h.silent ⟨rfl, rfl, le_rfl, rfl, rfl, rfl⟩
  | some _ => exact h.silent ⟨rfl, rfl, le_rfl, rfl, rfl, rfl⟩

lemma Accounted.find_admitted (h : a.Accounted cfg) (hp : find eqKey execId a.pending = some p) :
    ∃ m ∈ a.admitted, m.execId = execId ∧ m.call = p ∧ a.Waiting m := by
  obtain ⟨m, hm, hid, hcall⟩ := h.admitted execId p hp
  refine ⟨m, hm, hid, hcall, ?_⟩
  rcases h.calls m hm with hw | hr | ha
  · exact hw
  · have hended := hr.ended
    rw [hid, hp] at hended
    cases hended
  · have hended := ha.ended
    rw [hid, hp] at hended
    cases hended

lemma find_removePending (h : a.removePending execId = some (p, a')) (id : ℕ) :
    find eqKey id a'.pending = if execId = id then none else find eqKey id a.pending := by
  obtain ⟨-, counts, rfl⟩ := removePending_eq_some h
  dsimp only
  rw [find_remove]
  simp only [eqKey_iff]

lemma Waiting.removePending (h : a.Waiting m)
    (hr : a.removePending execId = some (p, a')) (hne : execId ≠ m.execId) : a'.Waiting m where
  pending := by
    rw [find_removePending hr, if_neg hne]
    exact h.pending
  connected := by
    rw [(sameBut_removePending hr).server]
    exact h.connected
  unanswered := (responses_of_sent (sameBut_removePending hr).sent m.execId).trans h.unanswered

lemma Waiting.call_eq (h : a.Waiting m) (hr : a.removePending m.execId = some (p, a')) : m.call = p := by
  have hp := (removePending_eq_some hr).1
  rw [h.pending, Option.some.injEq] at hp
  exact hp

lemma Accounted.micro (h : a.Accounted cfg) (hstep : Micro cfg tells a b) : b.Accounted cfg := by
  cases hstep with
  | cut connId n _ =>
    have hsends : ({ a with sends := n } : ActionServer).Accounted cfg :=
      h.silent ⟨rfl, rfl, le_rfl, rfl, rfl, rfl⟩
    exact hsends.detach connId
  | @answered a' execId p c body hr hc _ =>
    have hs := sameBut_removePending hr
    have hsub := sublist_removePending hr
    have hfind := find_removePending hr
    have hresponses (e : ℕ) (hne : execId ≠ e) : ({ a' with
        sends := a'.sends + 1
        sent := a'.sent ++ [⟨p.callerConnId, .response p.reqId body execId, c⟩] } :
        ActionServer).responses e = a.responses e := by
      rw [responses_concat, if_neg (by simp [Frame.responds, hne]), append_nil]
      exact responses_of_sent hs.sent e
    refine h.next hsub hs.admitted hs.nextExecId.ge (congrArg Server.opened hs.server)
      (fun id n hn => ?_) (fun m hm hw => ?_) (fun e he => hresponses e ?_) ?_
    · change a'.server.openings id = some n at hn
      rwa [hs.server] at hn
    · by_cases hid : execId = m.execId
      · subst hid
        have hcall := hw.call_eq hr
        refine .inr (.inl ⟨(hfind _).trans (if_pos rfl),
          ⟨p.callerConnId, .response p.reqId body m.execId, c⟩, body, ?_, by rw [hcall],
          by rw [hcall], ?_⟩)
        · rw [responses_concat, if_pos (by simp [Frame.responds]), responses_of_sent hs.sent,
            hw.unanswered, nil_append]
        · have hopen := hw.connected
          rw [hcall, Server.openings, hc] at hopen
          exact Option.some.inj hopen
      · have hw' := hw.removePending hr hid
        exact .inl ⟨hw'.pending, hw'.connected, (hresponses _ hid).trans hw.unanswered⟩
    · rintro rfl
      rw [(removePending_eq_some hr).1] at he
      cases he
    · intro s hmem reqId body' e hframe
      rcases mem_append.mp hmem with hmem | hmem
      · exact h.responses s (hs.sent ▸ hmem) reqId body' e hframe
      · rw [mem_singleton.mp hmem] at hframe
        cases hframe
        obtain ⟨m, hm, hid, -⟩ := h.find_admitted (removePending_eq_some hr).1
        exact ⟨m, hm, hid⟩
  | @unanswered _ execId p hr hc =>
    have hs := sameBut_removePending hr
    refine h.next (sublist_removePending hr) hs.admitted hs.nextExecId.ge
      (congrArg Server.opened hs.server) (fun id n hn => ?_) (fun m hm hw => ?_)
      (fun e _ => responses_of_sent hs.sent e) ?_
    · rwa [hs.server] at hn
    · by_cases hid : execId = m.execId
      · subst hid
        have hopen := hw.connected
        rw [hw.call_eq hr, Server.openings, hc] at hopen
        cases hopen
      · exact .inl (hw.removePending hr hid)
    · rw [hs.sent]
      exact h.responses
  | @refused a' execId p hr hopen =>
    have hs := sameBut_removePending hr
    have hsub := sublist_removePending hr
    have hd : Distinct eqKey a'.pending := h.distinct.sublist hsub
    have hfind := find_removePending hr
    obtain ⟨hadmitted, hnext, hopened⟩ :=
      detach_frame p.callerConnId { a' with sends := a'.sends + 1 }
    have hdetach := sublist_detach p.callerConnId { a' with sends := a'.sends + 1 }
    have hsent := sent_detach p.callerConnId { a' with sends := a'.sends + 1 }
    have hopenings := openings_detach p.callerConnId { a' with sends := a'.sends + 1 }
    refine h.next (hdetach.trans hsub) (hadmitted.trans hs.admitted) (hnext.trans hs.nextExecId).ge
      (hopened.trans (congrArg Server.opened hs.server)) (fun id n hn => ?_) (fun m hm hw => ?_)
      (fun e _ => responses_of_sent (hsent.trans hs.sent) e) ?_
    · rw [hopenings] at hn
      by_cases hid : id = p.callerConnId
      · rw [hid, update_self] at hn
        cases hn
      · rw [update_of_ne hid] at hn
        exact hs.server ▸ hn
    · by_cases hid : execId = m.execId
      · subst hid
        refine .inr (.inr ⟨?_, ?_, (responses_of_sent (hsent.trans hs.sent) _).trans
          hw.unanswered⟩)
        · exact find_none_of_sublist (a := { a' with sends := a'.sends + 1 }) hd hdetach
            ((hfind _).trans (if_pos rfl))
        · rw [hopenings, hw.call_eq hr, update_self]
          intro hopening
          cases hopening
      · have hw' : ({ a' with sends := a'.sends + 1 } : ActionServer).Waiting m :=
          (hw.removePending hr hid).silent ⟨rfl, rfl, le_rfl, rfl, rfl, rfl⟩
        rcases hw'.detach hd p.callerConnId with hw | ha
        · exact .inl hw
        · exact .inr (.inr ha)
    · rw [hsent.trans hs.sent]
      exact h.responses
  | flushed _ _ => exact (h.frame (fun _ => rfl) _).clearStaged _ _
  | forgotten _ _ => exact h.clearStaged _ _
  | overwritten _ _ => exact h.clearStaged _ _

lemma Micro.admitted (h : Micro cfg tells a b) : b.admitted = a.admitted := by
  have hclear (connId : ℕ) (staged : StagedForwards) (a : ActionServer) :
      (a.clearStaged connId staged).admitted = a.admitted := by
    unfold clearStaged
    cases find eqKey connId a.outbox <;> rfl
  cases h with
  | cut connId n _ => exact (detach_frame connId { a with sends := n }).1
  | answered body hr _ _ => exact (sameBut_removePending hr).admitted
  | unanswered hr _ => exact (sameBut_removePending hr).admitted
  | refused hr _ => exact (detach_frame _ _).1.trans (sameBut_removePending hr).admitted
  | flushed _ _ => exact hclear _ _ _
  | forgotten _ _ => exact hclear _ _ _
  | overwritten _ _ => exact hclear _ _ _

end Changes

/-- What callers have been told from one state to another, each of a call of its own. Who is told that
a worker is lost has lost it. -/
def Told (tells : Tells) (a b : ActionServer) : Prop :=
  ∃ new, b.sent = a.sent ++ new ∧ ∀ s ∈ new, ∀ reqId body execId, s.frame = .response reqId body execId →
      ∃ m ∈ b.admitted, m.execId = execId ∧ (tells execId m.call body ∨
        body = .error .workerDisconnected ∧ b.server.map m.call.workerConnId = none)

/-- The workers of the calls that wait are connected, or are being lost. -/
def Staffed (lost : ℕ → Prop) (a : ActionServer) : Prop :=
  ∀ execId p, find eqKey execId a.pending = some p → (a.server.map p.workerConnId).isSome ∨ lost p.workerConnId

/-- What leads from one state to another: callers are told certain things, and certain calls are taken
on, by workers that are connected. -/
structure Follows (cfg : ActionConfig) (tells : Tells) (made : AdmittedCall → Prop)
    (a b : ActionServer) : Prop where
  accounted : b.Accounted cfg
  told : Told tells a b
  admits : ∀ m ∈ b.admitted, m ∈ a.admitted ∨ made m
  staffed : ∀ lost, a.Staffed lost → b.Staffed lost

section Events

variable {made : AdmittedCall → Prop} {c : ActionServer}

lemma told_of_sent (h : b.sent = a.sent) : Told tells a b :=
  ⟨[], by rw [h, append_nil], fun _ hs => absurd hs not_mem_nil⟩

lemma Told.trans (h : Told tells a b) (h' : Told tells b c) (hadmitted : c.admitted = b.admitted)
    (hclosed : ∀ id, b.server.map id = none → c.server.map id = none) : Told tells a c := by
  obtain ⟨new, hsent, hnew⟩ := h
  obtain ⟨new', hsent', hnew'⟩ := h'
  refine ⟨new ++ new', by rw [hsent', hsent, append_assoc], fun s hs reqId body execId hf => ?_⟩
  rcases mem_append.mp hs with hs | hs
  · obtain ⟨m, hm, hid, hcase⟩ := hnew s hs reqId body execId hf
    refine ⟨m, hadmitted ▸ hm, hid, ?_⟩
    rcases hcase with htells | ⟨hbody, hlost⟩
    · exact .inl htells
    · exact .inr ⟨hbody, hclosed _ hlost⟩
  · exact hnew' s hs reqId body execId hf

lemma Micro.told (ha : a.Accounted cfg) (h : Micro cfg tells a b) : Told tells a b := by
  have hclear (connId : ℕ) (staged : StagedForwards) (a : ActionServer) :
      (a.clearStaged connId staged).sent = a.sent := by
    unfold clearStaged
    cases find eqKey connId a.outbox <;> rfl
  cases h with
  | cut connId n _ => exact told_of_sent (sent_detach connId { a with sends := n })
  | @answered a' execId p c body hr hc htells =>
    have hs := sameBut_removePending hr
    refine ⟨_, congrArg (· ++ _) hs.sent, fun s hmem reqId body' e hf => ?_⟩
    rw [mem_singleton.mp hmem] at hf
    cases hf
    obtain ⟨m, hm, hid, hcall, -⟩ := ha.find_admitted (removePending_eq_some hr).1
    refine ⟨m, hs.admitted ▸ hm, hid, ?_⟩
    rw [hcall]
    rcases htells with htells | ⟨hbody, hlost⟩
    · exact .inl htells
    · exact .inr ⟨hbody, hs.server ▸ hlost⟩
  | unanswered hr _ => exact told_of_sent (sameBut_removePending hr).sent
  | refused hr _ => exact told_of_sent ((sent_detach _ _).trans (sameBut_removePending hr).sent)
  | flushed _ _ =>
    refine ⟨_, hclear _ _ _, fun s hmem reqId body e hf => ?_⟩
    rw [mem_singleton.mp hmem] at hf
    cases hf
  | forgotten _ _ => exact told_of_sent (hclear _ _ _)
  | overwritten _ _ => exact told_of_sent (hclear _ _ _)

lemma find_pending_answer (cfg : ActionConfig) (body : ResponseBody) (execId : ℕ)
    (hd : Distinct eqKey a.pending) :
    find eqKey execId (a.answer (sendTo cfg) body execId).pending = none := by
  unfold answer
  cases hr : a.removePending execId with
  | none =>
    unfold removePending at hr
    cases hp : find eqKey execId a.pending with
    | none => rfl
    | some p =>
      rw [hp] at hr
      cases hr
  | some r =>
    obtain ⟨p, a'⟩ := r
    dsimp only
    have hd' : Distinct eqKey a'.pending := hd.sublist (sublist_removePending hr)
    have hended : find eqKey execId a'.pending = none := (find_removePending hr _).trans (if_pos rfl)
    obtain hsteps | ⟨c, -, hsent⟩ := steps_sendTo_cases cfg anything p.callerConnId
      (.response p.reqId body execId) hd'
    · exact find_none_of_sublist hd' hsteps.sublist hended
    · rw [hsent]
      exact hended

lemma steps_answer_anything (cfg : ActionConfig) (body : ResponseBody) (e : ℕ)
    (hd : Distinct eqKey a.pending) : Steps cfg anything a (a.answer (sendTo cfg) body e) :=
  steps_answer hd fun _ _ => trivial

/-- The turn of a call ends it, and the turns after it begin none. -/
lemma find_pending_foldl_answer {body : ResponseBody} {es : List ℕ} (hd : Distinct eqKey a.pending)
    (hmem : execId ∈ es) :
    find eqKey execId (es.foldl (fun a e => a.answer (sendTo cfg) body e) a).pending = none := by
  obtain ⟨before, after, rfl⟩ := append_of_mem hmem
  rw [foldl_append, foldl_cons]
  have hsteps (es : List ℕ) (b : ActionServer) (hb : Distinct eqKey b.pending) : Steps cfg anything b
      (es.foldl (fun a e => a.answer (sendTo cfg) body e) b) :=
    steps_foldl_answer fun e _ c hc => steps_answer_anything cfg body e (hb.sublist hc.sublist)
  have hd' := hd.sublist (hsteps before a hd).sublist
  have hd'' := (hsteps [execId] _ hd').distinct hd'
  exact find_none_of_sublist hd'' (hsteps after _ hd'').sublist (find_pending_answer cfg body execId hd')

lemma mem_execIds {q : PendingCall → Bool} (hp : find eqKey execId a.pending = some p) (hq : q p = true) :
    execId ∈ a.execIds q := by
  obtain ⟨k, hk, hmem⟩ := mem_of_find eqKey hp
  rw [eqKey_iff] at hk
  subst hk
  exact mem_map.mpr ⟨_, mem_filter.mpr ⟨hmem, hq⟩, rfl⟩

lemma find_pending_answerAll {e : CallError} {q : PendingCall → Bool} (hd : Distinct eqKey a.pending)
    (hp : find eqKey execId (a.answerAll cfg e q).pending = some p) : q p = false := by
  have hsteps : Steps cfg anything a (a.answerAll cfg e q) :=
    steps_answerAll cfg hd fun _ _ _ _ => trivial
  have hbefore := find_of_sublist hd hsteps.sublist hp
  by_contra hq
  rw [Bool.not_eq_false] at hq
  cases (find_pending_foldl_answer hd (mem_execIds hbefore hq)).symm.trans hp

section Staff

variable {lost : ℕ → Prop} {body : ResponseBody} {connId : ℕ}

lemma Staffed.answer_of {e : ℕ} (hclose : ∀ connId (b : ActionServer), b.pending.length < a.pending.length →
    Distinct eqKey b.pending → b.Staffed lost → (b.onClose cfg connId).Staffed lost)
    (hd : Distinct eqKey a.pending) (h : a.Staffed lost) : (a.answer (sendTo cfg) body e).Staffed lost := by
  unfold answer
  cases hr : a.removePending e with
  | none => exact h
  | some r =>
    obtain ⟨p, a'⟩ := r
    have hd' : Distinct eqKey a'.pending := hd.sublist (sublist_removePending hr)
    have h' : a'.Staffed lost := by
      intro execId p hp
      rw [(sameBut_removePending hr).server]
      exact h execId p (find_of_sublist hd (sublist_removePending hr) hp)
    dsimp only
    rcases deliver_cases cfg p.callerConnId (.response p.reqId body e) a' with
      ⟨-, heq⟩ | ⟨c, -, heq | ⟨-, heq⟩⟩
    · rwa [heq]
    · rw [heq]
      exact h'
    · rw [heq]
      have hlt : a'.pending.length < a.pending.length := length_removePending hr
      exact hclose _ { a' with sends := a'.sends + 1 } hlt hd' h'

/-- A connection that closes ends all calls of its: those of its own and those that it works for. -/
lemma Staffed.onClose_of (n : ℕ) (hd : Distinct eqKey a.pending) (hn : a.pending.length ≤ n)
    (h : a.Staffed lost) : (a.onClose cfg connId).Staffed lost := by
  induction n generalizing a connId lost with
  | zero =>
    intro execId p hp
    have hsteps : Steps cfg anything a (a.onClose cfg connId) := steps_onClose anything connId hd
    have hbefore := find_of_sublist hd hsteps.sublist hp
    rw [length_eq_zero_iff.mp (Nat.le_zero.mp hn)] at hbefore
    cases hbefore
  | succ n ih =>
    rw [onClose_eq]
    unfold closeWith
    cases hc : a.server.map connId with
    | none => exact h
    | some c =>
      dsimp only
      have hsub := sublist_detach connId a
      have hdetach : (a.detach connId).Staffed fun id => lost id ∨ id = connId := by
        intro execId p hp
        rw [map_detach]
        by_cases hworker : p.workerConnId = connId
        · exact .inr (.inr hworker)
        · rw [update_of_ne hworker]
          exact (h execId p (find_of_sublist hd hsub hp)).imp_right .inl
      have hfold := List.foldlRecOn (motive := fun b : ActionServer =>
          (b.Staffed fun id => lost id ∨ id = connId) ∧ b.pending.Sublist (a.detach connId).pending)
        (a.execIds fun p => p.callerConnId ≠ connId ∧ p.workerConnId = connId)
        (fun b e => b.answer (sendTo cfg) (.error .workerDisconnected) e) ⟨hdetach, .refl _⟩
        fun b hb e _ => by
          have hdb := (hd.sublist hsub).sublist hb.2
          refine ⟨hb.1.answer_of (fun id b' hlt hd' h' => ih hd' ?_ h') hdb, ?_⟩
          · have hlen := (hb.2.trans hsub).length_le
            omega
          · exact (steps_answer_anything cfg _ e hdb).sublist.trans hb.2
      intro execId p hp
      rcases hfold.1 execId p hp with hopen | hlost | hworker
      · exact .inl hopen
      · exact .inr hlost
      · have hdetached := find_of_sublist (hd.sublist hsub) hfold.2 hp
        have hbefore := find_of_sublist hd hsub hdetached
        rw [find_pending_detach] at hdetached
        split_ifs at hdetached with hown
        have hcaller : p.callerConnId ≠ connId := fun hcaller =>
          hown (mem_execIds hbefore (decide_eq_true hcaller))
        have hmem := mem_execIds (q := fun p => p.callerConnId ≠ connId ∧ p.workerConnId = connId) hbefore
          (decide_eq_true ⟨hcaller, hworker⟩)
        cases (find_pending_foldl_answer (hd.sublist hsub) hmem).symm.trans hp

lemma Staffed.onClose (h : a.Staffed lost) (hd : Distinct eqKey a.pending) (connId : ℕ) :
    (a.onClose cfg connId).Staffed lost := h.onClose_of _ hd le_rfl

lemma Staffed.answer (h : a.Staffed lost) (hd : Distinct eqKey a.pending) (e : ℕ) :
    (a.answer (sendTo cfg) body e).Staffed lost :=
  h.answer_of (fun _ _ _ hd' h' => h'.onClose hd' _) hd

lemma Staffed.answerAll (h : a.Staffed lost) (hd : Distinct eqKey a.pending) (e : CallError)
    (q : PendingCall → Bool) : (a.answerAll cfg e q).Staffed lost := by
  refine (List.foldlRecOn (motive := fun b : ActionServer => b.Staffed lost ∧ Distinct eqKey b.pending)
    (a.execIds q) _ ⟨h, hd⟩ fun b hb e _ => ?_).1
  exact ⟨hb.1.answer hb.2 e, (steps_answer_anything cfg _ e hb.2).distinct hb.2⟩

lemma Staffed.sendTo (h : a.Staffed lost) (hd : Distinct eqKey a.pending) (frame : Frame) :
    (sendTo cfg connId frame a).Staffed lost := by
  rcases deliver_cases cfg connId frame a with ⟨-, heq⟩ | ⟨c, -, heq | ⟨-, heq⟩⟩
  · rwa [heq]
  · rw [heq]
    exact h
  · rw [heq]
    exact Staffed.onClose (a := { a with sends := a.sends + 1 }) h hd connId

lemma Staffed.flushWorker (h : a.Staffed lost) (hd : Distinct eqKey a.pending) (connId : ℕ) :
    (a.flushWorker cfg connId).Staffed lost := by
  unfold ActionServer.flushWorker
  cases find eqKey connId a.outbox with
  | none => exact h
  | some staged =>
    dsimp only
    unfold flushStaged
    split_ifs
    · exact h
    · intro execId p hp
      rw [pending_clearStaged] at hp
      rw [server_clearStaged]
      exact h.sendTo hd _ execId p hp

lemma Staffed.flushOutbox (h : a.Staffed lost) (hd : Distinct eqKey a.pending) :
    (a.flushOutbox cfg).Staffed lost := by
  refine (List.foldlRecOn (motive := fun b : ActionServer => b.Staffed lost ∧ Distinct eqKey b.pending)
    (a.outbox.map Prod.fst) _ ⟨h, hd⟩ fun b hb connId _ => ?_).1
  exact ⟨hb.1.flushWorker hb.2 connId, (steps_flushWorker cfg anything connId hb.2).distinct hb.2⟩

end Staff

lemma Follows.refl (h : a.Accounted cfg) : Follows cfg tells made a a :=
  ⟨h, told_of_sent rfl, fun _ hm => .inl hm, fun _ hs => hs⟩

lemma Follows.silent (h : Follows cfg tells made a b) (hs : Silent b c) : Follows cfg tells made a c where
  accounted := h.accounted.silent hs
  told := by
    refine h.told.trans (told_of_sent hs.sent) hs.admitted fun id hid => ?_
    have hopening := congrFun hs.openings.1 id
    unfold openings at hopening
    rw [hid, Option.map_none, Option.map_eq_none_iff] at hopening
    exact hopening
  admits := by
    rw [hs.admitted]
    exact h.admits
  staffed := by
    intro lost hlost execId p hp
    rw [hs.pending] at hp
    rw [isSome_of_sameOpenings hs.openings]
    exact h.staffed lost hlost execId p hp

lemma Follows.steps (h : Follows cfg tells made a b) (hsteps : Steps cfg tells b c)
    (hstaffed : ∀ lost, b.Staffed lost → c.Staffed lost) : Follows cfg tells made a c := by
  have hmoved : c.Accounted cfg ∧ Told tells a c ∧ c.admitted = b.admitted := by
    refine hsteps.invariant (I := fun c => c.Accounted cfg ∧ Told tells a c ∧ c.admitted = b.admitted)
      (fun c d hc hstep => ?_) ⟨h.accounted, h.told, rfl⟩
    obtain ⟨haccounted, htold, hadmitted⟩ := hc
    refine ⟨haccounted.micro hstep, ?_, hstep.admitted.trans hadmitted⟩
    refine htold.trans (hstep.told haccounted) hstep.admitted fun id hid => ?_
    cases hd : d.server.map id with
    | none => rfl
    | some _ =>
      rw [hstep.map hd] at hid
      cases hid
  obtain ⟨haccounted, htold, hadmitted⟩ := hmoved
  refine ⟨haccounted, htold, ?_, fun lost hlost => hstaffed lost (h.staffed lost hlost)⟩
  rw [hadmitted]
  exact h.admits

lemma Accounted.addPending (h : a.Accounted cfg) (registry : ActionRegistry) (call : PendingCall)
    {opening : ℕ} (hopen : a.server.openings call.callerConnId = some opening)
    (hsync : (cfg.actions[call.actionId]?.bind Action.returns).isSome) :
    ((a.picked registry).addPending a.nextExecId call opening).Accounted cfg := by
  have hfind (e : ℕ) : find eqKey e (put eqKey a.nextExecId call a.pending) =
      if a.nextExecId = e then some call else find eqKey e a.pending := by
    rw [find_put]
    simp only [eqKey_iff]
  have hnew : a.responses a.nextExecId = [] := by
    refine filter_eq_nil_iff.mpr fun s hs hresponds => ?_
    cases hf : s.frame with
    | forward f =>
      rw [hf] at hresponds
      cases hresponds
    | staged fs =>
      rw [hf] at hresponds
      cases hresponds
    | response reqId body e =>
      rw [hf] at hresponds
      have he : e = a.nextExecId := of_decide_eq_true hresponds
      obtain ⟨m, hm, hid⟩ := h.responses s hs reqId body e hf
      have := h.issued m hm
      omega
  have hadmitted : ((a.picked registry).addPending a.nextExecId call opening).admitted =
      a.admitted ++ [⟨a.nextExecId, call, opening⟩] := rfl
  have hmem {m : AdmittedCall} (hm : m ∈ a.admitted ++ [⟨a.nextExecId, call, opening⟩]) :
      m ∈ a.admitted ∨ m = ⟨a.nextExecId, call, opening⟩ := by
    rwa [mem_append, mem_singleton] at hm
  constructor
  · exact distinct_put eqKey h.distinct
  · intro execId p hp
    rw [hadmitted]
    change find eqKey execId (put eqKey a.nextExecId call a.pending) = some p at hp
    rw [hfind] at hp
    split_ifs at hp with he
    · cases hp
      exact ⟨_, mem_append_right _ (mem_singleton.mpr rfl), he, rfl⟩
    · obtain ⟨m, hm, hrest⟩ := h.admitted execId p hp
      exact ⟨m, mem_append_left _ hm, hrest⟩
  · rw [hadmitted, map_append, nodup_append]
    refine ⟨h.nodup, nodup_singleton _, fun e he e' he' hee' => ?_⟩
    obtain ⟨m, hm, rfl⟩ := mem_map.mp he
    have hid : e' = a.nextExecId := mem_singleton.mp he'
    have := h.issued m hm
    omega
  · intro m hm
    change m.execId < a.nextExecId + 1
    rcases hmem hm with hm | rfl
    · exact (h.issued m hm).trans (Nat.lt_succ_self _)
    · exact Nat.lt_succ_self _
  · intro m hm
    rcases hmem hm with hm | rfl
    · exact h.sync m hm
    · exact hsync
  · intro m hm
    rcases hmem hm with hm | rfl
    · exact h.opened m hm
    · exact h.openings _ _ hopen
  · exact h.openings
  · intro m hm
    rcases hmem hm with hm | rfl
    · have hne : a.nextExecId ≠ m.execId := (h.issued m hm).ne'
      have hkeep : find eqKey m.execId ((a.picked registry).addPending a.nextExecId call
          opening).pending = find eqKey m.execId a.pending := (hfind _).trans (if_neg hne)
      rcases h.calls m hm with hw | hr | ha
      · exact .inl ⟨hkeep.trans hw.pending, hw.connected, hw.unanswered⟩
      · exact .inr (.inl ⟨hkeep.trans hr.ended, hr.once⟩)
      · exact .inr (.inr ⟨hkeep.trans ha.ended, ha.gone, ha.unanswered⟩)
    · exact .inl ⟨(hfind _).trans (if_pos rfl), hopen, hnew⟩
  · intro s hs reqId body execId hf
    obtain ⟨m, hm, hid⟩ := h.responses s hs reqId body execId hf
    exact ⟨m, mem_append_left _ hm, hid⟩

lemma Follows.frame (h : Follows cfg tells made a b) {s : Sent} (hs : ∀ e, s.frame.responds e = false) (n : ℕ) :
    Follows cfg tells made a { b with sends := n, sent := b.sent ++ [s] } where
  accounted := h.accounted.frame hs n
  told := by
    refine h.told.trans ⟨[s], rfl, fun t ht reqId body e hf => ?_⟩ rfl fun _ hid => hid
    have hno := hs e
    rw [← mem_singleton.mp ht, hf] at hno
    simp [Frame.responds] at hno
  admits := h.admits
  staffed := h.staffed

def Makes (a : ActionServer) (ev : ActionEvent) (m : AdmittedCall) : Prop :=
  ∃ params clientTimeoutMs nowNs,
    ev = .call m.call.callerConnId m.call.reqId m.call.actionId params clientTimeoutMs nowNs ∧
    a.server.openings m.call.callerConnId = some m.opening

lemma Accounted.call (h : a.Accounted cfg) (hsettled : a.Settled) (connId reqId actionId : ℕ)
    (params : Payload) (clientTimeoutMs : Option ℕ) (nowNs : ℤ) :
    Follows cfg tells (a.Makes (.call connId reqId actionId params clientTimeoutMs nowNs)) a
      (a.call cfg connId reqId actionId params clientTimeoutMs nowNs) := by
  obtain heq | ⟨c, action, info, deadlineNs, hc, haction, heq⟩ :=
    call_cases cfg connId reqId actionId params clientTimeoutMs nowNs a
  · rw [heq]
    exact .refl h
  rw [heq]
  obtain heq | ⟨key, worker, registry, f, hpick, -, -, hcase⟩ := forwardCall_cases cfg connId c reqId
    actionId action info params deadlineNs a
  · rw [heq]
    exact .refl h
  have hopen : a.server.openings connId = some c.opening := by
    rw [Server.openings, hc]
    rfl
  have hpicked : Silent a (a.picked registry) :=
    ⟨rfl, rfl, Nat.le_succ _, rfl, rfl, rfl⟩
  obtain heq | ⟨-, heq⟩ | ⟨hsync, heq⟩ := hcase
  · rw [heq]
    exact (Follows.refl h).silent hpicked
  · rw [heq]
    exact ((Follows.refl h).silent hpicked).silent ⟨rfl, rfl, le_rfl, rfl, rfl, rfl⟩
  · rw [heq]
    have hadded : Follows cfg tells (a.Makes (.call connId reqId actionId params clientTimeoutMs nowNs)) a
        ((a.picked registry).addPending a.nextExecId
          ⟨connId, worker, reqId, actionId, action.scope, deadlineNs⟩ c.opening) := by
      refine ⟨h.addPending registry _ hopen (by rw [haction]; exact hsync), told_of_sent rfl, ?_, ?_⟩
      · intro m hm
        rcases mem_append.mp hm with hm | hm
        · exact .inl hm
        · rw [mem_singleton.mp hm]
          exact .inr ⟨params, clientTimeoutMs, nowNs, rfl, hopen⟩
      · intro lost hlost execId p hp
        change find eqKey execId (put eqKey a.nextExecId _ a.pending) = some p at hp
        rw [find_put] at hp
        split_ifs at hp
        · cases hp
          obtain ⟨c', hc', -⟩ := (hsettled.routed.routes.pickWorker hpick).1
          exact .inl (Option.isSome_iff_exists.mpr ⟨c', hc'⟩)
        · exact hlost execId p hp
    have hflushed := hadded.steps (steps_flushWorker cfg tells worker hadded.accounted.distinct)
      fun _ hlost => hlost.flushWorker hadded.accounted.distinct worker
    obtain hsteps | ⟨d, -, hsent⟩ :=
      steps_sendTo_cases cfg tells worker (.forward f) hflushed.accounted.distinct
    · exact hflushed.steps hsteps fun _ hlost => hlost.sendTo hflushed.accounted.distinct _
    · rw [hsent]
      exact hflushed.frame (fun _ => rfl) _

lemma Accounted.onOpen (h : a.Accounted cfg) (connId : ℕ) (sess : Session SessionClaims)
    (slot : ℕ) : ({ a with server := a.server.onOpen connId sess slot } : ActionServer).Accounted
      cfg := by
  have hstep := openings_step cfg.scopes a.server (.open connId sess slot)
  cases hopens : a.server.opens (.open connId sess slot) with
  | none =>
    rw [hopens] at hstep
    exact h.silent ⟨rfl, rfl, le_rfl, rfl, hstep⟩
  | some id =>
    rw [hopens] at hstep
    obtain ⟨hnone, hopened, hopenings⟩ := hstep
    have hfree : a.server.openings id = none := by
      rw [Server.openings, hnone]
      rfl
    have hkeep {n caller : ℕ} (hn : a.server.openings caller = some n) :
        (a.server.onOpen connId sess slot).openings caller = some n := by
      have hne : caller ≠ id := by
        rintro rfl
        rw [hfree] at hn
        cases hn
      exact (congrFun hopenings caller).trans ((update_of_ne hne _ _).trans hn)
    have hback {n caller : ℕ} (hn : (a.server.onOpen connId sess slot).openings caller = some n) :
        a.server.openings caller = some n ∨ n = a.server.opened := by
      have hn' := (congrFun hopenings caller).symm.trans hn
      by_cases hid : caller = id
      · rw [hid, update_self, Option.some.injEq] at hn'
        exact .inr hn'.symm
      · rw [update_of_ne hid] at hn'
        exact .inl hn'
    have hmore : a.server.opened < (a.server.onOpen connId sess slot).opened :=
      (Nat.lt_succ_self _).trans_eq hopened.symm
    refine ⟨h.distinct, h.admitted, h.nodup, h.issued, h.sync,
      fun m hm => (h.opened m hm).trans hmore, fun caller n hn => ?_, fun m hm => ?_, h.responses⟩
    · rcases hback hn with hn | rfl
      · exact (h.openings caller n hn).trans hmore
      · exact hmore
    · rcases h.calls m hm with hw | hr | ha
      · exact .inl ⟨hw.pending, hkeep hw.connected, hw.unanswered⟩
      · exact .inr (.inl ⟨hr.ended, hr.once⟩)
      · refine .inr (.inr ⟨ha.ended, fun hn => ?_, ha.unanswered⟩)
        rcases hback hn with hn | hn
        · exact ha.gone hn
        · exact (h.opened m hm).ne hn

lemma Stage.staffed {lost : ℕ → Prop} (h : Stage cfg tells a b) (hd : Distinct eqKey a.pending)
    (hs : a.Staffed lost) : b.Staffed lost := by
  cases h with
  | flushed connId => exact hs.flushWorker hd connId
  | flushedAll => exact hs.flushOutbox hd
  | answered e q _ => exact hs.answerAll hd e q
  | replied body execId _ => exact hs.answer hd execId
  | closed connId => exact hs.onClose hd connId
  | aside registry server hsame =>
    intro execId p hp
    rw [isSome_of_sameOpenings hsame]
    exact hs execId p hp
  | dropped execId hp hreturns =>
    intro execId' p' hp'
    rw [(sameBut_dropPending execId a).server]
    exact hs execId' p' (find_of_sublist hd (sublist_dropPending execId a) hp')

lemma Follows.stage (h : Follows cfg tells made a b) (hstage : Stage cfg tells b c) : Follows cfg tells made a c := by
  obtain hsteps | ⟨registry, server, hsame, rfl⟩ | ⟨execId, p, hp, hreturns, -⟩ :=
    hstage.split h.accounted.distinct
  · exact h.steps hsteps fun _ hlost => hstage.staffed h.accounted.distinct hlost
  · exact h.silent ⟨rfl, rfl, le_rfl, rfl, hsame⟩
  · -- Only calls of synchronous actions wait.
    obtain ⟨m, hm, -, rfl⟩ := h.accounted.admitted execId p hp
    have hsync := h.accounted.sync m hm
    rw [hreturns] at hsync
    cases hsync

lemma Accounted.step (h : a.Accounted cfg) (hsettled : a.Settled) (ev : ActionEvent) :
    Follows cfg (Causes cfg a · · ev) (a.Makes ev) a (a.step cfg ev) := by
  cases hev : ev.goesOn with
  | true => exact (stages_step hev).invariant (fun _ _ _ h hstage => h.stage hstage) h.distinct (.refl h)
  | false =>
    cases ev with
    | «open» connId sess slot =>
      refine ⟨h.onOpen connId sess slot, told_of_sent rfl, fun _ hm => .inl hm, fun lost hlost execId p hp => ?_⟩
      exact (hlost execId p hp).imp_left (isSome_of_moves (moves_onOpen connId sess slot) _)
    | call connId reqId actionId params clientTimeoutMs nowNs =>
      exact h.call hsettled connId reqId actionId params clientTimeoutMs nowNs
    | _ => cases hev

lemma accounted_init : ({} : ActionServer).Accounted cfg where
  distinct := List.Pairwise.nil
  admitted := fun _ _ hp => nomatch hp
  nodup := nodup_nil
  issued := fun _ hm => absurd hm not_mem_nil
  sync := fun _ hm => absurd hm not_mem_nil
  opened := fun _ hm => absurd hm not_mem_nil
  openings := fun _ _ hn => nomatch hn
  calls := fun _ hm => absurd hm not_mem_nil
  responses := fun _ hs => absurd hs not_mem_nil

/-- A reply to a call that does not wait for it changes nothing, whether the call was answered before or
waits for another worker. -/
lemma resolveReply_eq_self {connId : ℕ} (ok : Bool) (payload : Payload) (nowNs : ℤ)
    (h : ∀ p, find eqKey execId a.pending = some p → p.workerConnId ≠ connId) :
    a.resolveReply cfg connId execId ok payload nowNs = a := by
  obtain heq | ⟨p, hp, hworker, -⟩ := resolveReply_cases cfg connId execId ok payload nowNs a
  · exact heq
  · exact absurd hworker (h p hp)

section Ends

lemma resolveReply_of_causes {connId execId' : ℕ} {ok : Bool} {payload : Payload} {nowNs : ℤ}
    {body : ResponseBody} (hp : find eqKey execId a.pending = some p)
    (hsync : (cfg.actions[p.actionId]?.bind Action.returns).isSome)
    (h : Causes cfg a execId p (.reply connId execId' ok payload nowNs) body) :
    execId' = execId ∧
      a.resolveReply cfg connId execId' ok payload nowNs = a.answer (sendTo cfg) body execId := by
  obtain ⟨returns, hfound⟩ := Option.isSome_iff_exists.mp hsync
  obtain ⟨action, haction, hreturns⟩ := Option.bind_eq_some_iff.mp hfound
  have hreply : execId' = execId ∧ p.workerConnId = connId := by
    cases h <;> exact ⟨rfl, rfl⟩
  obtain ⟨rfl, rfl⟩ := hreply
  refine ⟨rfl, ?_⟩
  unfold resolveReply
  rw [hp]
  dsimp only
  rw [if_neg (not_not.mpr rfl), haction]
  dsimp only
  rw [hreturns]
  dsimp only
  cases h with
  | returned htime hfound' hvalid =>
    rw [hfound, Option.some.injEq] at hfound'
    rw [if_neg htime.not_ge, if_pos rfl, hfound', hvalid]
  | unfit htime hfound' hvalid =>
    rw [hfound, Option.some.injEq] at hfound'
    rw [if_neg htime.not_ge, if_pos rfl, hfound', hvalid]
  | failed htime hpair => rw [if_neg htime.not_ge, if_neg Bool.false_ne_true, hpair]
  | unreadable htime hpair => rw [if_neg htime.not_ge, if_neg Bool.false_ne_true, hpair]
  | late hlate => rw [if_pos hlate]

lemma find_pending_answerAll_none {e : CallError} {q : PendingCall → Bool} (hd : Distinct eqKey a.pending)
    (hp : ∀ p, find eqKey execId a.pending = some p → q p = true) :
    find eqKey execId (a.answerAll cfg e q).pending = none := by
  have hsteps : Steps cfg anything a (a.answerAll cfg e q) :=
    steps_answerAll cfg hd fun _ _ _ _ => trivial
  cases hafter : find eqKey execId (a.answerAll cfg e q).pending with
  | none => rfl
  | some p =>
    have hq := hp p (find_of_sublist hd hsteps.sublist hafter)
    rw [find_pending_answerAll hd hafter] at hq
    cases hq

variable (cfg) in
lemma steps_revoke (hd : Distinct eqKey a.pending) (connId : ℕ) (key : RegistryKey) :
    Steps cfg anything { a with registry := a.registry.revoke connId key } (a.revoke cfg connId key) :=
  steps_answerAll (a := { a with registry := a.registry.revoke connId key }) cfg hd fun _ _ _ _ => trivial

variable (cfg) in
/-- What later turns of a re-authentication leave as it is. -/
lemma foldl_revoke {P : ℕ → RegistryKey → Prop} (keys : List RegistryKey) (connId : ℕ)
    (hd : Distinct eqKey a.pending) (hroutes : a.registry.Routes P) :
    (keys.foldl (fun a key => a.revoke cfg connId key) a).pending.Sublist a.pending ∧
      (keys.foldl (fun a key => a.revoke cfg connId key) a).registry.Routes P := by
  refine List.foldlRecOn (motive := fun b : ActionServer => b.pending.Sublist a.pending ∧ b.registry.Routes P)
    keys _ ⟨.refl _, hroutes⟩ fun b hb key _ => ?_
  have hsteps := steps_revoke cfg (hd.sublist hb.1) connId key
  exact ⟨hsteps.sublist.trans hb.1, hsteps.routes (hb.2.revoke connId key)⟩

lemma reauthorize_revokes (h : a.Settled) {connId : ℕ} {c : Connection SessionClaims}
    {e : RegistryKey × Bucket} (he : e ∈ a.registry) (hworks : connId ∈ e.2.workers)
    (hmay : mayHold cfg (c.baseCtx connId) e.1 = false) :
    ((a.reauthorizeRegistrations cfg connId c).registry.Routes fun id key => id ≠ connId ∨ key ≠ e.1) ∧
    ∀ execId p, find eqKey execId a.pending = some p → p.workerConnId = connId → p.actionId = e.1.actionId →
      find eqKey execId (a.reauthorizeRegistrations cfg connId c).pending = none := by
  have hkey : e.1 ∈ (a.registry.filter fun e =>
      connId ∈ e.2.workers ∧ !mayHold cfg (c.baseCtx connId) e.1).map Prod.fst :=
    mem_map.mpr ⟨e, mem_filter.mpr ⟨he, decide_eq_true ⟨hworks, by simpa using hmay⟩⟩, rfl⟩
  unfold reauthorizeRegistrations
  dsimp only
  obtain ⟨before, after, hsplit⟩ := append_of_mem hkey
  rw [hsplit, foldl_append, foldl_cons]
  obtain ⟨hsub, hroutes⟩ := foldl_revoke cfg before connId h.distinct h.routed.routes
  generalize before.foldl (fun a key => a.revoke cfg connId key) a = b at hsub hroutes
  have hd := h.distinct.sublist hsub
  have hsteps := steps_revoke cfg hd connId e.1
  obtain ⟨hsub', hroutes'⟩ := foldl_revoke cfg after connId (hsteps.distinct hd)
    (hsteps.routes (hroutes.revoked connId e.1))
  refine ⟨hroutes'.pruneEmptyBuckets, fun execId p hp hworker haction => ?_⟩
  refine find_none_of_sublist (hsteps.distinct hd) hsub' (find_pending_answerAll_none hd fun p' hp' => ?_)
  have hsame := find_of_sublist h.distinct hsub hp'
  rw [hp, Option.some.injEq] at hsame
  exact decide_eq_true (hsame ▸ ⟨hworker, haction⟩)

/-- What an event causes ends the call. -/
lemma Accounted.ends (h : a.Accounted cfg) (hsettled : a.Settled) {ev : ActionEvent} {body : ResponseBody}
    (hm : m ∈ a.admitted) (hw : a.Waiting m) (hcauses : Causes cfg a m.execId m.call ev body) :
    find eqKey m.execId (a.step cfg ev).pending = none := by
  have hpending {p : PendingCall} (hp : find eqKey m.execId a.pending = some p) : m.call = p := by
    rw [hw.pending, Option.some.injEq] at hp
    exact hp
  cases ev with
  | reply connId execId' ok payload nowNs =>
    obtain ⟨rfl, heq⟩ := resolveReply_of_causes hw.pending (h.sync m hm) hcauses
    change find eqKey _ (a.resolveReply cfg connId m.execId ok payload nowNs).pending = none
    rw [heq]
    exact find_pending_answer cfg body m.execId h.distinct
  | sweep nowNs =>
    cases hcauses with
    | swept hlate => exact find_pending_answerAll_none h.distinct fun p hp => decide_eq_true (hpending hp ▸ hlate)
  | setNamespace connId isPresence nspace cache =>
    cases hcauses with
    | @superseded _ _ _ c hbegins hscope =>
      obtain ⟨-, -, hsess⟩ := begins_eq_some.mp hbegins
      obtain ⟨sess, hsess⟩ := Option.isSome_iff_exists.mp hsess
      change find eqKey _ (a.handleSetNamespace cfg _ isPresence nspace cache).pending = none
      unfold handleSetNamespace
      rw [hbegins]
      dsimp only
      rw [hsess]
      have hsteps := steps_flushWorker (a := { a with
        server := a.server.beginSetNamespace m.call.callerConnId isPresence nspace c }) cfg anything
        m.call.callerConnId h.distinct
      refine find_pending_answerAll_none (hsteps.distinct h.distinct) fun p hp => ?_
      have hp' := hpending (find_of_sublist h.distinct hsteps.sublist hp)
      exact decide_eq_true (hp' ▸ ⟨rfl, hscope⟩)
  | authRefresh connId subject claims =>
    cases hcauses with
    | revoked hrevokes haction =>
      obtain ⟨c, bucket, hc, hsubject, hmem, hworks, hmay⟩ := hrevokes
      change find eqKey _ (a.handleAuthRefresh cfg _ subject claims).pending = none
      unfold handleAuthRefresh
      rw [hc]
      dsimp only
      rw [if_pos hsubject]
      have hmoved := hsettled.moved (moves_handleAuthRefresh m.call.workerConnId subject claims)
      exact (reauthorize_revokes hmoved hmem hworks hmay).2 m.execId m.call hw.pending rfl haction.symm
  | «open» _ _ _ => cases hcauses
  | complete _ _ => cases hcauses
  | close _ => cases hcauses
  | register _ _ => cases hcauses
  | call _ _ _ _ _ _ => cases hcauses
  | flushOutbox => cases hcauses

/-- The response is the one that the event causes, unless the worker is lost meanwhile. -/
lemma Accounted.responds (h : a.Accounted cfg) (hsettled : a.Settled) {ev : ActionEvent} {body : ResponseBody}
    (hm : m ∈ a.admitted) (hw : a.Waiting m) (hcauses : Causes cfg a m.execId m.call ev body) {s : Sent}
    (hs : s ∈ (a.step cfg ev).responses m.execId) : ∃ reqId body', s.frame = .response reqId body' m.execId ∧
      (body' = body ∨ body' = .error .workerDisconnected ∧
        (a.step cfg ev).server.map m.call.workerConnId = none) := by
  have hstep := h.step hsettled ev
  obtain ⟨new, hsent, hnew⟩ := hstep.told
  unfold ActionServer.responses at hs
  rw [hsent, filter_append] at hs
  have hunanswered : (a.sent.filter fun s => s.frame.responds m.execId) = [] := hw.unanswered
  rw [hunanswered, nil_append] at hs
  obtain ⟨hs, hresponds⟩ := mem_filter.mp hs
  cases hf : s.frame with
  | forward f => rw [hf] at hresponds; cases hresponds
  | staged fs => rw [hf] at hresponds; cases hresponds
  | response reqId body' execId =>
    rw [hf] at hresponds
    obtain rfl : execId = m.execId := of_decide_eq_true hresponds
    refine ⟨reqId, body', rfl, ?_⟩
    obtain ⟨m', hm', hid, htells⟩ := hnew s hs reqId body' m.execId hf
    obtain rfl : m' = m := by
      rcases hstep.admits m' hm' with hold | ⟨_, _, _, rfl, -⟩
      · exact List.inj_on_of_nodup_map h.nodup hold hm hid
      · cases hcauses
    exact htells.imp_left fun htells => htells.unique hcauses

end Ends
end Events

/-- Whatever has happened on the event loop, each synchronous call that was taken on waits while its
caller and its worker are connected, or got exactly one response, on the connection that made it, or its
caller has gone and it got none. A response is what the event causes, or says that the worker is lost,
when it is; and what an event causes ends the call. Replies to a call that has ended, and those of other
workers, change nothing, no call waits beyond a sweep that its deadline precedes, and a re-authentication
takes back each registration that the session may not hold. -/
theorem call_answered_once (cfg : ActionConfig) (events : List ActionEvent) :
    let a := events.foldl (step cfg) {}
    (a.admitted.map AdmittedCall.execId).Nodup ∧
    (∀ m ∈ a.admitted, a.Waiting m ∨ a.Responded m ∨ a.Abandoned m) ∧
    (∀ m ∈ a.admitted, a.Waiting m → (a.server.map m.call.workerConnId).isSome) ∧
    (∀ s ∈ a.sent, ∀ reqId body execId, s.frame = .response reqId body execId →
      ∃ m ∈ a.admitted, m.execId = execId) ∧
    (∀ ev, Told (Causes cfg a · · ev) a (a.step cfg ev) ∧
      ∀ m ∈ (a.step cfg ev).admitted, m ∈ a.admitted ∨ a.Makes ev m) ∧
    (∀ ev body, ∀ m ∈ a.admitted, a.Waiting m → Causes cfg a m.execId m.call ev body →
      ¬ (a.step cfg ev).Waiting m ∧ ∀ s ∈ (a.step cfg ev).responses m.execId,
        ∃ reqId body', s.frame = .response reqId body' m.execId ∧ (body' = body ∨
          body' = .error .workerDisconnected ∧ (a.step cfg ev).server.map m.call.workerConnId = none)) ∧
    (∀ connId execId ok payload nowNs, (∀ p, find eqKey execId a.pending = some p → p.workerConnId ≠ connId) →
      a.step cfg (.reply connId execId ok payload nowNs) = a) ∧
    (∀ nowNs, ∀ m ∈ a.admitted, m.call.deadlineNs ≤ nowNs → ¬ (a.step cfg (.sweep nowNs)).Waiting m) ∧
    ∀ connId subject claims key, a.Revokes cfg connId subject claims key →
      ∀ e ∈ (a.step cfg (.authRefresh connId subject claims)).registry, e.1 = key → connId ∉ e.2.workers := by
  have h : (events.foldl (step cfg) {}).Accounted cfg ∧ (events.foldl (step cfg) {}).Settled ∧
      (events.foldl (step cfg) {}).Staffed fun _ => False :=
    Machine.invariant (I := fun a : ActionServer => a.Accounted cfg ∧ a.Settled ∧ a.Staffed fun _ => False)
      (fun _ ev h => ⟨(h.1.step h.2.1 ev).accounted, h.2.1.step ev, (h.1.step h.2.1 ev).staffed _ h.2.2⟩)
      ⟨accounted_init, settled_init, fun _ _ hp => nomatch hp⟩ events
  obtain ⟨h, hsettled, hstaffed⟩ := h
  refine ⟨h.nodup, h.calls, fun m _ hw => ?_, h.responses,
    fun ev => ⟨(h.step hsettled ev).told, (h.step hsettled ev).admits⟩, ?_, ?_, ?_, ?_⟩
  · exact (hstaffed m.execId m.call hw.pending).resolve_right id
  · intro ev body m hm hw hcauses
    refine ⟨fun hw' => ?_, fun s hs => h.responds hsettled hm hw hcauses hs⟩
    cases (h.ends hsettled hm hw hcauses).symm.trans hw'.pending
  · exact fun _ _ ok payload nowNs hforeign => resolveReply_eq_self ok payload nowNs hforeign
  · intro nowNs m _ hlate hw
    have hq := find_pending_answerAll h.distinct hw.pending
    exact of_decide_eq_false hq hlate
  · rintro connId subject claims key ⟨c, bucket, hc, hsubject, hmem, hworks, hmay⟩ e he rfl hid
    change e ∈ (handleAuthRefresh cfg connId subject claims _).registry at he
    unfold handleAuthRefresh at he
    rw [hc] at he
    dsimp only at he
    rw [if_pos hsubject] at he
    have hmoved := hsettled.moved (moves_handleAuthRefresh connId subject claims)
    have hroutes := (reauthorize_revokes hmoved hmem hworks hmay).1
    exact (hroutes.bound e he connId hid).elim (fun hne => hne rfl) fun hne => hne rfl

end ActionServer

def ResponseBody.Ends : ResponseBody → Prop
  | .ok _ | .workerError .. | .error .actionTimeout | .error .workerDisconnected => True
  | _ => False

namespace SupersedingExample

/-- Anybody in the namespace `a` may run and call the one action. -/
def config : ActionConfig where
  scopes := {
    usersNamespaced := false
    userId := fun _ _ => 7
    authorizeNamespace := fun _ _ _ _ => true }
  actions := [{ name := "run", params := [], returns := some [] }]
  authConfig := {
    namespaceRules := [⟨[.literal [97]], .boolean true, .boolean true, .boolean true, .boolean true⟩]
    storeRules := []
    actionRules := [{
      action := "run", isWildcard := false, register := .boolean true, invoke := .boolean true }] }
  size := fun _ => 1
  growCapacity := fun _ needed => needed
  drops := fun _ _ => false

/-- Connection 2 calls the action, for which connection 1 works, and asks for another namespace. -/
def switchNamespace : List ActionEvent :=
  [.open 1 ⟨[1], []⟩ 0, .setNamespace 1 false [97] (.hit ⟨1, 7⟩), .register 1 [0],
    .open 2 ⟨[2], []⟩ 0, .setNamespace 2 false [97] (.hit ⟨1, 7⟩),
    .call 2 9 0 (.arr []) none 0, .setNamespace 2 false [98] .miss]

/-- The response is neither the worker's reply nor a timeout, and no worker is lost. -/
theorem superseded_call_answered : ¬ ∀ events : List ActionEvent,
    ∀ s ∈ (events.foldl (step config) {}).sent,
      ∀ reqId body execId, s.frame = .response reqId body execId → body.Ends := by
  intro h
  have hsent : ((switchNamespace.foldl (step config) {}).sent.map Sent.frame)[1]? =
      some (.response 9 (.error .requestSuperseded) 1) := rfl
  obtain ⟨s, hs, hf⟩ := List.mem_map.mp (List.mem_of_getElem? hsent)
  exact h switchNamespace s hs 9 _ 1 hf

end SupersedingExample
end ZyncBase
