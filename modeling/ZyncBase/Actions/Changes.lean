import ZyncBase.Actions.Routing

/-! What the events of the actions service consist of, those apart with which a connection or a call
begins. -/
namespace ZyncBase

open AssocMap Server

/-- Nothing begins with such an event. -/
def ActionEvent.goesOn : ActionEvent → Bool
  | .open .. | .call .. => false
  | _ => true

namespace ActionServer

section Openings

lemma sameOpenings_updateOpen (st : Server SessionClaims) (connId : ℕ)
    {f : Connection SessionClaims → Connection SessionClaims} (hf : ∀ c, (f c).opening = c.opening) :
    SameOpenings st (st.updateOpen connId f) := by
  unfold updateOpen
  cases hc : st.map connId with
  | none => exact ⟨rfl, rfl⟩
  | some c => exact SameOpenings.put ⟨rfl, rfl⟩ hc (hf c)

lemma sameOpenings_beginSetNamespace {st : Server SessionClaims} {connId : ℕ} (isPresence : Bool)
    (nspace : Bytes) {c : Connection SessionClaims} (hc : st.map connId = some c) :
    SameOpenings st (st.beginSetNamespace connId isPresence nspace c) := by
  have hleft : SameOpenings st (if isPresence then st.removeAllForConnection connId c else st) := by
    split_ifs
    · exact sameOpenings_removeAllForConnection st connId c
    · exact ⟨rfl, rfl⟩
  exact hleft.put hc (opening_beginScopeResolution isPresence nspace c)

lemma sameOpenings_finishSetNamespace (scopes : ScopeConfig SessionClaims)
    (st : Server SessionClaims) (connId : ℕ) (isPresence : Bool) (nspace : Bytes)
    (cache : CacheAnswer) (scopeSeq : ℕ) (sess : Session SessionClaims) (opening : ℕ) :
    SameOpenings st
      (st.finishSetNamespace scopes connId isPresence nspace cache scopeSeq sess opening) := by
  have hreset := sameOpenings_updateOpen st connId (opening_resetScopeIfSeq scopeSeq isPresence)
  unfold finishSetNamespace
  cases cache with
  | failed => exact hreset
  | miss => exact ⟨rfl, rfl⟩
  | hit scope =>
    dsimp only
    split_ifs
    · refine sameOpenings_updateOpen st connId fun c => ?_
      cases hset : c.setScopeIfSeq scopeSeq scope isPresence with
      | none => exact opening_resetScopeIfSeq scopeSeq isPresence c
      | some installed => exact opening_setScopeIfSeq hset
    · exact hreset

lemma isSome_of_sameOpenings {st st' : Server SessionClaims} (h : SameOpenings st st') (id : ℕ) :
    (st'.map id).isSome = (st.map id).isSome := by
  have hopening := congrArg Option.isSome (congrFun h.1 id)
  rwa [openings, openings, Option.isSome_map, Option.isSome_map] at hopening

end Openings

/-- One stage of such an event: an operation on the calls that wait, a change of the registrations and
connections alone, with none opened or closed, or a call without result that is dropped. -/
inductive Stage (cfg : ActionConfig) (tells : Tells) : ActionServer → ActionServer → Prop
  | flushed {a} (connId : ℕ) : Stage cfg tells a (a.flushWorker cfg connId)
  | flushedAll {a} : Stage cfg tells a (a.flushOutbox cfg)
  | answered {a} (e : CallError) (q : PendingCall → Bool) :
    (∀ execId p, find eqKey execId a.pending = some p → q p = true → tells execId p (.error e)) →
    Stage cfg tells a (a.answerAll cfg e q)
  | replied {a} (body : ResponseBody) (execId : ℕ) :
    (∀ p, find eqKey execId a.pending = some p → tells execId p body) →
    Stage cfg tells a (a.answer (sendTo cfg) body execId)
  | closed {a} (connId : ℕ) : Stage cfg tells a (a.onClose cfg connId)
  | aside {a} (registry : ActionRegistry) (server : Server SessionClaims) :
    SameOpenings a.server server → Stage cfg tells a { a with registry, server }
  | dropped {a} {p : PendingCall} (execId : ℕ) : find eqKey execId a.pending = some p →
    cfg.actions[p.actionId]?.bind Action.returns = none → Stage cfg tells a (a.dropPending execId)

def Stages (cfg : ActionConfig) (tells : Tells) : ActionServer → ActionServer → Prop :=
  Relation.ReflTransGen (Stage cfg tells)

variable {cfg : ActionConfig} {tells : Tells} {a b : ActionServer}

lemma Stage.split (h : Stage cfg tells a b) (hd : Distinct eqKey a.pending) : Steps cfg tells a b ∨
    (∃ registry server, SameOpenings a.server server ∧ b = { a with registry, server }) ∨
    ∃ execId p, find eqKey execId a.pending = some p ∧
      cfg.actions[p.actionId]?.bind Action.returns = none ∧ b = a.dropPending execId := by
  cases h with
  | flushed connId => exact .inl (steps_flushWorker cfg tells connId hd)
  | flushedAll => exact .inl (steps_flushOutbox cfg tells hd)
  | answered e q htells => exact .inl (steps_answerAll cfg hd htells)
  | replied body execId htells => exact .inl (steps_answer hd htells)
  | closed connId => exact .inl (steps_onClose tells connId hd)
  | aside registry server hsame => exact .inr (.inl ⟨registry, server, hsame, rfl⟩)
  | dropped execId hp hreturns => exact .inr (.inr ⟨execId, _, hp, hreturns, rfl⟩)

lemma Stage.distinct (h : Stage cfg tells a b) (hd : Distinct eqKey a.pending) : Distinct eqKey b.pending := by
  obtain hsteps | ⟨registry, server, -, rfl⟩ | ⟨execId, p, -, -, rfl⟩ := h.split hd
  · exact hsteps.distinct hd
  · exact hd
  · exact hd.sublist (sublist_dropPending execId a)

lemma Stages.invariant {I : ActionServer → Prop}
    (hstage : ∀ a b, Distinct eqKey a.pending → I a → Stage cfg tells a b → I b)
    (h : Stages cfg tells a b) (hd : Distinct eqKey a.pending) (ha : I a) : I b := by
  have hboth : I b ∧ Distinct eqKey b.pending := by
    induction h with
    | refl => exact ⟨ha, hd⟩
    | tail _ hstep ih => exact ⟨hstage _ _ ih.2 ih.1 hstep, hstep.distinct ih.2⟩
  exact hboth.1

lemma stages_handleSetNamespace (connId : ℕ) (isPresence : Bool) (nspace : Bytes) (cache : CacheAnswer) :
    Stages cfg (Causes cfg a · · (.setNamespace connId isPresence nspace cache)) a
      (a.handleSetNamespace cfg connId isPresence nspace cache) := by
  unfold ActionServer.handleSetNamespace
  cases hbegins : a.server.begins cfg.scopes connId nspace with
  | none => exact .refl
  | some c =>
    dsimp only
    cases c.session with
    | none => exact .refl
    | some sess =>
      have hbegun := sameOpenings_beginSetNamespace isPresence nspace (begins_eq_some.mp hbegins).1
      refine .tail (.tail (.tail (.tail (.single (.aside a.registry _ hbegun)) (.flushed connId))
        (.aside _ _ ⟨rfl, rfl⟩)) (.answered .requestSuperseded _ fun execId p _ hq => ?_))
        (.aside _ _ (sameOpenings_finishSetNamespace ..))
      obtain ⟨rfl, hscope⟩ := of_decide_eq_true hq
      exact .superseded hbegins hscope

lemma stages_reauthorizeRegistrations {connId : ℕ} {subject : Bytes} {claims : SessionClaims}
    {c : Connection SessionClaims} (hrevokes : ∀ e ∈ b.registry, connId ∈ e.2.workers →
      mayHold cfg (c.baseCtx connId) e.1 = false → a.Revokes cfg connId subject claims e.1) :
    Stages cfg (Causes cfg a · · (.authRefresh connId subject claims)) b
      (b.reauthorizeRegistrations cfg connId c) := by
  refine .tail (List.foldlRecOn _ _ .refl fun b' hb key hkey => ?_) (.aside _ _ ⟨rfl, rfl⟩)
  obtain ⟨e, he, rfl⟩ := List.mem_map.mp hkey
  obtain ⟨hmem, hcond⟩ := List.mem_filter.mp he
  obtain ⟨hworks, hmay⟩ := of_decide_eq_true hcond
  refine (hb.tail (.aside (b'.registry.revoke connId e.1) _ ⟨rfl, rfl⟩)).tail
    (.answered .permissionDenied _ fun execId p _ hq => ?_)
  obtain ⟨rfl, haction⟩ := of_decide_eq_true hq
  exact .revoked (hrevokes e hmem hworks (by simpa using hmay)) haction.symm

lemma stages_step {ev : ActionEvent} (hev : ev.goesOn) : Stages cfg (Causes cfg a · · ev) a (a.step cfg ev) := by
  cases ev with
  | «open» connId sess slot => cases hev
  | setNamespace connId isPresence nspace cache => exact stages_handleSetNamespace connId isPresence nspace cache
  | complete i answer =>
    exact .single (.aside a.registry _ (openings_step cfg.scopes a.server (.complete i answer)))
  | authRefresh connId subject claims =>
    change Stages _ _ a (a.handleAuthRefresh cfg connId subject claims)
    unfold ActionServer.handleAuthRefresh
    have hsame := openings_step cfg.scopes a.server (.authRefresh connId subject claims)
    cases hc : a.server.map connId with
    | none => exact .refl
    | some c =>
      dsimp only
      split_ifs with hsubject
      · refine .trans (.single (.aside a.registry _ hsame)) (stages_reauthorizeRegistrations fun e he hworks hmay => ?_)
        exact ⟨c, e.2, hc, hsubject, he, hworks, hmay⟩
      · exact .single (.closed connId)
  | close connId => exact .single (.closed connId)
  | register connId actionIds =>
    change Stages _ _ a (a.register cfg connId actionIds)
    unfold ActionServer.register
    cases a.server.map connId with
    | none => exact .refl
    | some c =>
      dsimp only
      split_ifs
      · exact .refl
      · cases registerKeys cfg (c.baseCtx connId) actionIds with
        | error e => exact .refl
        | ok keys => exact .single (.aside _ _ ⟨rfl, rfl⟩)
  | call connId reqId actionId params clientTimeoutMs nowNs => cases hev
  | reply connId execId ok payload nowNs =>
    change Stages _ _ a (a.resolveReply cfg connId execId ok payload nowNs)
    obtain heq | ⟨p, hp, -, ⟨body, hcauses, heq⟩ | ⟨hreturns, heq⟩⟩ :=
      resolveReply_cases cfg connId execId ok payload nowNs a
    · rw [heq]
      exact .refl
    · rw [heq]
      refine .single (.replied body execId fun p' hp' => ?_)
      rw [hp, Option.some.injEq] at hp'
      exact hp' ▸ hcauses
    · rw [heq]
      exact .single (.dropped execId hp hreturns)
  | sweep nowNs => exact .single (.answered _ _ fun execId p _ hq => .swept (of_decide_eq_true hq))
  | flushOutbox => exact .single .flushedAll

end ActionServer
end ZyncBase
