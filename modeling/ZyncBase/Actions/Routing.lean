import ZyncBase.Actions.Progress
import ZyncBase.Connection.UserId

/-! Where workers stand: the buckets of a namespace list open connections that are in it, and no call is
forwarded to a connection that is in another one. -/
namespace ZyncBase

open AssocMap Function List Connection

/-- A scope that waits for a namespace is in none. -/
def ScopeState.Apart (sc : ScopeState) : Prop := sc.nspace = none ∨ sc.pendingNspace = none

namespace Connection

/-- The connection is in the namespace of the bucket. -/
structure Serves (c : Connection SessionClaims) (key : RegistryKey) : Prop where
  inScope : (c.scope key.scope.isPresence).nspace.isSome
  namespaceId : (c.scope key.scope.isPresence).namespaceId = key.namespaceId

/-- The connection is in no namespace but that of the bucket. -/
def Fits (c : Connection SessionClaims) (key : RegistryKey) : Prop :=
  (c.scope key.scope.isPresence).nspace = none ∨ c.Serves key

variable {Claims : Type} {c c' : Connection Claims}

def Changes (c c' : Connection Claims) : Prop :=
  ∀ i, c'.scope i = c.scope i ∨ (c.scope i).nspace = none ∧ (c'.scope i).Apart

lemma Changes.refl (c : Connection Claims) : c.Changes c := fun _ => .inl rfl

lemma changes_withScope {i : Bool} {sc : ScopeState} {uid : DocId}
    (hnone : (c.scope i).nspace = none) (hapart : sc.Apart) : c.Changes (c.withScope i sc uid) := by
  intro j
  rcases eq_or_eq_not i j with rfl | rfl
  · rw [scope_withScope]
    exact .inr ⟨hnone, hapart⟩
  · exact .inl (scope_withScope_not ..)

lemma changes_resetScopeIfSeq {i : Bool} (n : ℕ) (hnone : (c.scope i).nspace = none) :
    c.Changes (c.resetScopeIfSeq n i) := by
  unfold resetScopeIfSeq
  split_ifs
  · exact Changes.refl c
  · exact changes_withScope hnone (.inl rfl)

lemma changes_setScopeIfSeq {i : Bool} {n : ℕ} {scope : Scope}
    (hnone : (c.scope i).nspace = none) (h : c.setScopeIfSeq n scope i = some c') : c.Changes c' := by
  unfold setScopeIfSeq at h
  split_ifs at h
  cases h
  exact changes_withScope hnone (.inr rfl)

end Connection

variable {connId : ℕ}

namespace Server

variable {Claims : Type} {st st' : Server Claims} {connId : ℕ} {c c' : Connection Claims}

/-- What becomes of a connection where none is closed. -/
inductive Moved : Option (Connection Claims) → Option (Connection Claims) → Prop
  | closed : Moved none none
  | opened (d : Connection Claims) : (∀ i, (d.scope i).Apart) → Moved none (some d)
  | kept (d d' : Connection Claims) : d.Changes d' → Moved (some d) (some d')

def Moves (st st' : Server Claims) : Prop := ∀ connId, Moved (st.map connId) (st'.map connId)

lemma isSome_of_moves (h : Moves st st') (connId : ℕ) (hopen : (st.map connId).isSome) :
    (st'.map connId).isSome := by
  obtain ⟨c, hc⟩ := Option.isSome_iff_exists.mp hopen
  have hmoved := h connId
  rw [hc] at hmoved
  generalize st'.map connId = after at hmoved ⊢
  cases hmoved
  rfl

lemma Moves.of_map (h : st'.map = st.map) : Moves st st' := by
  intro connId
  rw [h]
  cases st.map connId with
  | none => exact .closed
  | some c => exact .kept _ _ (Changes.refl c)

lemma Moves.update (hc : st.map connId = some c) (h : c.Changes c')
    (hmap : st'.map = update st.map connId (some c')) : Moves st st' := by
  intro id
  rw [hmap]
  by_cases hid : id = connId
  · subst hid
    rw [hc, update_self]
    exact .kept _ _ h
  · rw [update_of_ne hid]
    exact Moves.of_map rfl id

lemma moves_updateOpen {f : Connection Claims → Connection Claims}
    (h : ∀ c, st.map connId = some c → c.Changes (f c)) : Moves st (st.updateOpen connId f) := by
  unfold updateOpen
  cases hc : st.map connId with
  | none => exact Moves.of_map rfl
  | some c => exact Moves.update hc (h c hc) rfl

lemma moves_onOpen (connId : ℕ) (sess : Session Claims) (slot : ℕ) : Moves st (st.onOpen connId sess slot) := by
  unfold onOpen
  split_ifs with h
  · exact Moves.of_map rfl
  · rw [not_or, Option.not_isSome_iff_eq_none] at h
    intro id
    by_cases hid : id = connId
    · subst hid
      simp only [Server.put]
      rw [h.1, update_self]
      refine .opened _ fun i => .inl ?_
      cases i <;> rfl
    · simp only [Server.put]
      rw [update_of_ne hid]
      exact Moves.of_map rfl id

lemma moves_handleAuthRefresh (connId : ℕ) (subject : Bytes) (claims : Claims) :
    Moves st (st.handleAuthRefresh connId subject claims) := by
  unfold handleAuthRefresh
  cases hc : st.map connId with
  | none => exact Moves.of_map rfl
  | some c =>
    dsimp only
    split_ifs
    · refine Moves.update hc (fun i => .inl ?_) rfl
      cases i <;> rfl
    · exact Moves.of_map rfl

lemma moves_complete (cfg : ScopeConfig Claims)
    (hapart : ∀ connId c i, st.map connId = some c → (c.scope i).Apart) (k : ℕ)
    (answer : Option Scope) : Moves st (st.step cfg (.complete k answer)) := by
  unfold Server.step
  dsimp only
  cases hr : st.resolutions[k]? with
  | none => exact Moves.of_map rfl
  | some r =>
    dsimp only
    by_cases hwaits : ∃ c scope nspace, st.map r.connId = some c ∧ answer = some scope ∧
        c.pendingNamespaceIfSeq r.scopeSeq r.isPresence = some nspace
    · obtain ⟨c, scope, nspace, hc, rfl, hpending⟩ := hwaits
      have hc' : ({ st with resolutions := st.resolutions.eraseIdx k } :
          Server Claims).map r.connId = some c := hc
      obtain ⟨c', hmap, -, hother, hmoved⟩ := answered_processResolution cfg scope hc' hpending
      obtain ⟨-, hpending⟩ := pendingNamespaceIfSeq_eq_some.mp hpending
      have hnone : (c.scope r.isPresence).nspace = none := by
        rcases hapart r.connId c r.isPresence hc with h | h
        · exact h
        · rw [hpending] at h
          cases h
      refine Moves.update hc (fun i => ?_) hmap
      rcases eq_or_eq_not r.isPresence i with rfl | rfl
      · refine .inr ⟨hnone, ?_⟩
        rcases hmoved with h | h
        · rw [h]
          exact .inl rfl
        · rw [h]
          exact .inr rfl
      · exact .inl hother
    · rw [processResolution_eq_self]
      · exact Moves.of_map rfl
      · intro c scope nspace hc hanswer hpending
        exact hwaits ⟨c, scope, nspace, hc, hanswer, hpending⟩

lemma moves_finishSetNamespace (cfg : ScopeConfig Claims) {isPresence : Bool} (nspace : Bytes)
    (cache : CacheAnswer) (scopeSeq : ℕ) (sess : Session Claims) (opening : ℕ)
    (hnone : ∀ c, st.map connId = some c → (c.scope isPresence).nspace = none) :
    Moves st (st.finishSetNamespace cfg connId isPresence nspace cache scopeSeq sess opening) := by
  have hreset := moves_updateOpen fun c hc =>
    changes_resetScopeIfSeq scopeSeq (hnone c hc)
  unfold finishSetNamespace
  cases cache with
  | failed => exact hreset
  | miss => exact Moves.of_map rfl
  | hit scope =>
    dsimp only
    split_ifs
    · refine moves_updateOpen fun c hc => ?_
      cases hset : c.setScopeIfSeq scopeSeq scope isPresence with
      | none => exact changes_resetScopeIfSeq scopeSeq (hnone c hc)
      | some installed => exact changes_setScopeIfSeq (hnone c hc) hset
    · exact hreset

/-- A worker is open and in the namespace of its bucket, or is leaving the scope right now. -/
def Bound (leaving : Option (ℕ × ActionScope)) (st : Server SessionClaims) (connId : ℕ)
    (key : RegistryKey) : Prop :=
  ∃ c, st.map connId = some c ∧ (c.Serves key ∨
    leaving = some (connId, key.scope) ∧ (c.scope key.scope.isPresence).nspace = none)

lemma Moves.bound {st st' : Server SessionClaims} (h : Moves st st') {key : RegistryKey}
    (hb : st.Bound none connId key) : st'.Bound none connId key := by
  obtain ⟨c, hc, hserves | ⟨hleaving, -⟩⟩ := hb
  · have hmoved := h connId
    rw [hc] at hmoved
    cases hc' : st'.map connId with
    | none =>
      rw [hc'] at hmoved
      cases hmoved
    | some c' =>
      rw [hc'] at hmoved
      obtain _ | _ | ⟨_, _, hchanges⟩ := hmoved
      refine ⟨c', hc', .inl ?_⟩
      rcases hchanges key.scope.isPresence with hsame | ⟨hnone, -⟩
      · exact ⟨by rw [hsame]; exact hserves.inScope, by rw [hsame]; exact hserves.namespaceId⟩
      · have hin := hserves.inScope
        rw [hnone] at hin
        cases hin
  · cases hleaving

lemma Bound.fits {st : Server SessionClaims} {key : RegistryKey}
    {leaving : Option (ℕ × ActionScope)} {c : Connection SessionClaims}
    (h : st.Bound leaving connId key) (hc : st.map connId = some c) : c.Fits key := by
  obtain ⟨d, hd, hserves | ⟨-, hnone⟩⟩ := h
  · rw [hc, Option.some.injEq] at hd
    subst hd
    exact .inr hserves
  · rw [hc, Option.some.injEq] at hd
    subst hd
    exact .inl hnone

lemma Moves.apart (h : Moves st st')
    (hapart : ∀ connId c i, st.map connId = some c → (c.scope i).Apart) (connId : ℕ)
    (c : Connection Claims) (i : Bool) (hc : st'.map connId = some c) : (c.scope i).Apart := by
  have hmoved := h connId
  rw [hc] at hmoved
  cases hold : st.map connId with
  | none =>
    rw [hold] at hmoved
    obtain _ | ⟨_, hopened⟩ := hmoved
    exact hopened i
  | some d =>
    rw [hold] at hmoved
    obtain _ | _ | ⟨_, _, hchanges⟩ := hmoved
    rcases hchanges i with hsame | ⟨-, happ⟩
    · rw [hsame]
      exact hapart connId d i hold
    · exact happ

end Server

namespace ActionServer

open Server

/-- All registrations, and all that is or was on its way to a worker, belong to where the workers are. -/
structure Routed (leaving : Option (ℕ × ActionScope)) (a : ActionServer) : Prop where
  routes : a.registry.Routes (a.server.Bound leaving)
  staged : ∀ connId staged, find eqKey connId a.outbox = some staged →
    ∀ f ∈ staged.bytes, a.server.Bound leaving connId f.key
  sent : ∀ s ∈ a.sent, ∀ f ∈ s.frame.forwards, s.conn.Fits f.key
  apart : ∀ connId c i, a.server.map connId = some c → (c.scope i).Apart

variable {cfg : ActionConfig} {tells : Tells} {leaving : Option (ℕ × ActionScope)} {a b : ActionServer}

section Changes

lemma Routed.same (h : a.Routed leaving) (hs : SameBut a b) : b.Routed leaving where
  routes := by
    rw [hs.registry, hs.server]
    exact h.routes
  staged := by
    rw [hs.outbox, hs.server]
    exact h.staged
  sent := by
    rw [hs.sent]
    exact h.sent
  apart := by
    rw [hs.server]
    exact h.apart

lemma Routed.frame (h : a.Routed leaving) {s : Sent} (hs : ∀ f ∈ s.frame.forwards, s.conn.Fits f.key) (n : ℕ) :
    ({ a with sends := n, sent := a.sent ++ [s] } : ActionServer).Routed leaving where
  routes := h.routes
  staged := h.staged
  sent := by
    intro t ht
    rcases mem_append.mp ht with ht | ht
    · exact h.sent t ht
    · rw [mem_singleton.mp ht]
      exact hs
  apart := h.apart

lemma Routed.detach (h : a.Routed leaving) (connId n : ℕ) :
    (({ a with sends := n } : ActionServer).detach connId).Routed leaving := by
  have hbound {id : ℕ} {key : RegistryKey} (hb : a.server.Bound leaving id key) (hne : id ≠ connId) :
      (({ a with sends := n } : ActionServer).detach connId).server.Bound leaving id key := by
    obtain ⟨c, hc, hin⟩ := hb
    refine ⟨c, ?_, hin⟩
    rw [map_detach, update_of_ne hne]
    exact hc
  constructor
  · rw [registry_detach]
    exact h.routes.unregister connId none fun id key hb hne => hbound hb (hne rfl)
  · intro id staged hfind f hf
    rw [find_outbox_detach] at hfind
    split_ifs at hfind with hid
    exact hbound (h.staged id staged hfind f hf) (Ne.symm hid)
  · rw [sent_detach]
    exact h.sent
  · intro id c i hc
    rw [map_detach] at hc
    by_cases hid : id = connId
    · rw [hid, update_self] at hc
      cases hc
    · rw [update_of_ne hid] at hc
      exact h.apart id c i hc

lemma Routed.clearStaged (h : a.Routed leaving) (connId : ℕ) (staged : StagedForwards) :
    (a.clearStaged connId staged).Routed leaving := by
  unfold ActionServer.clearStaged
  cases hfind : find eqKey connId a.outbox with
  | none => exact ⟨h.routes, h.staged, h.sent, h.apart⟩
  | some _ =>
    refine ⟨h.routes, fun id rest hrest f hf => ?_, h.sent, h.apart⟩
    dsimp only at hrest
    rw [find_put] at hrest
    split_ifs at hrest
    · cases hrest
      cases hf
    · cases hrest
      cases hf
    · exact h.staged id rest hrest f hf

lemma Routed.micro (h : a.Routed leaving) (hstep : Micro cfg tells a b) : b.Routed leaving := by
  cases hstep with
  | cut connId n _ => exact h.detach connId n
  | answered body hr _ =>
    exact (h.same (sameBut_removePending hr)).frame (fun _ hf => absurd hf not_mem_nil) _
  | unanswered hr _ => exact h.same (sameBut_removePending hr)
  | refused hr _ => exact (h.same (sameBut_removePending hr)).detach _ _
  | flushed hfind hc =>
    refine Routed.clearStaged (h.frame (fun f hf => ?_) _) _ _
    exact Bound.fits (h.staged _ _ hfind f hf) hc
  | forgotten _ _ => exact h.clearStaged _ _
  | overwritten _ _ => exact h.clearStaged _ _

lemma Routed.steps (h : a.Routed leaving) (hsteps : Steps cfg tells a b) : b.Routed leaving :=
  hsteps.invariant (fun _ _ h hstep => h.micro hstep) h

lemma Micro.registry (hstep : Micro cfg tells a b) :
    b.registry = a.registry ∨ ∃ id, b.registry = a.registry.unregister id none := by
  have hclear (connId : ℕ) (staged : StagedForwards) (a : ActionServer) :
      (a.clearStaged connId staged).registry = a.registry := by
    unfold ActionServer.clearStaged
    cases find eqKey connId a.outbox <;> rfl
  cases hstep with
  | cut connId n _ => exact .inr ⟨connId, registry_detach connId { a with sends := n }⟩
  | answered body hr _ _ => exact .inl (sameBut_removePending hr).registry
  | unanswered hr _ => exact .inl (sameBut_removePending hr).registry
  | @refused a' _ p hr _ =>
    refine .inr ⟨p.callerConnId, ?_⟩
    rw [registry_detach, ← (sameBut_removePending hr).registry]
  | flushed _ _ => exact .inl (hclear _ _ _)
  | forgotten _ _ => exact .inl (hclear _ _ _)
  | overwritten _ _ => exact .inl (hclear _ _ _)

lemma Micro.filled (h : a.registry.Filled) (hstep : Micro cfg tells a b) : b.registry.Filled := by
  rcases hstep.registry with heq | ⟨id, heq⟩
  · rwa [heq]
  · rw [heq]
    exact ActionRegistry.filled_pruneEmptyBuckets _

lemma Steps.routes {P : ℕ → RegistryKey → Prop} (h : a.registry.Routes P) (hsteps : Steps cfg tells a b) :
    b.registry.Routes P := by
  refine hsteps.invariant (I := fun a => a.registry.Routes P) (fun a b h hstep => ?_) h
  rcases hstep.registry with heq | ⟨id, heq⟩
  · rwa [heq]
  · rw [heq]
    exact h.unregister id none fun _ _ hP _ => hP

end Changes

/-- What holds between any two events. -/
structure Settled (a : ActionServer) : Prop where
  routed : a.Routed none
  filled : a.registry.Filled
  distinct : Distinct eqKey a.pending

section Events

lemma Settled.steps (h : a.Settled) (hsteps : Steps cfg tells a b) : b.Settled where
  routed := h.routed.steps hsteps
  filled := hsteps.invariant (fun _ _ h hstep => hstep.filled h) h.filled
  distinct := hsteps.distinct h.distinct

lemma Settled.moved (h : a.Settled) {server : Server SessionClaims} (hm : a.server.Moves server) :
    ({ a with server } : ActionServer).Settled where
  routed :=
    { routes := h.routed.routes.mono fun _ _ _ _ hb => hm.bound hb
      staged := fun connId staged hfind f hf => hm.bound (h.routed.staged connId staged hfind f hf)
      sent := h.routed.sent
      apart := hm.apart h.routed.apart }
  filled := h.filled
  distinct := h.distinct

lemma Routed.begin (h : a.Routed none) {c : Connection SessionClaims}
    (scope : ActionScope) (nspace : Bytes) (hc : a.server.map connId = some c) :
    ({ a with server := a.server.beginSetNamespace connId scope.isPresence nspace c } :
      ActionServer).Routed (some (connId, scope)) := by
  have hmap : (a.server.beginSetNamespace connId scope.isPresence nspace c).map =
      update a.server.map connId (some (c.beginScopeResolution scope.isPresence nspace)) := by
    unfold Server.beginSetNamespace Server.put
    dsimp only
    split_ifs
    · rw [(removeAllForConnection_frame a.server connId c).1]
    · rfl
  have hbound {id : ℕ} {key : RegistryKey} (hb : a.server.Bound none id key) :
      (a.server.beginSetNamespace connId scope.isPresence nspace c).Bound (some (connId, scope)) id key := by
    obtain ⟨d, hd, hserves | ⟨hleaving, -⟩⟩ := hb
    · by_cases hid : id = connId
      · subst hid
        rw [hc, Option.some.injEq] at hd
        subst hd
        refine ⟨_, by rw [hmap, update_self], ?_⟩
        by_cases hscope : key.scope = scope
        · refine .inr ⟨by rw [hscope], ?_⟩
          rw [hscope, beginScopeResolution, scope_withScope]
          rfl
        · have hother : key.scope.isPresence = !scope.isPresence := by
            cases hk : key.scope <;> cases scope <;> simp_all [ActionScope.isPresence]
          have hsame : (c.beginScopeResolution scope.isPresence nspace).scope key.scope.isPresence =
              c.scope key.scope.isPresence := by
            rw [hother]
            exact scope_withScope_not ..
          exact .inl ⟨by rw [hsame]; exact hserves.inScope, by rw [hsame]; exact hserves.namespaceId⟩
      · exact ⟨d, by rw [hmap, update_of_ne hid]; exact hd, .inl hserves⟩
    · cases hleaving
  refine ⟨h.routes.mono fun _ _ _ _ hb => hbound hb,
    fun id staged hfind f hf => hbound (h.staged id staged hfind f hf), h.sent, ?_⟩
  intro id d i hd
  change (a.server.beginSetNamespace connId scope.isPresence nspace c).map id = some d at hd
  rw [hmap] at hd
  by_cases hid : id = connId
  · rw [hid, update_self, Option.some.injEq] at hd
    subst hd
    rcases eq_or_eq_not scope.isPresence i with rfl | rfl
    · rw [beginScopeResolution, scope_withScope]
      exact .inl rfl
    · rw [beginScopeResolution, scope_withScope_not]
      exact h.apart connId c _ hc
  · rw [update_of_ne hid] at hd
    exact h.apart id d i hd

/-- With the registrations in the scope gone and the staged forwards sent, nothing outlives it. -/
lemma Routed.leave {scope : ActionScope} (h : a.Routed (some (connId, scope)))
    (hstaged : ∀ staged, find eqKey connId a.outbox = some staged → staged.bytes = [])
    (hd : Distinct eqKey a.pending) : (a.unregister connId (some scope)).Settled := by
  have hbound {id : ℕ} {key : RegistryKey} (hb : a.server.Bound (some (connId, scope)) id key)
      (hne : key.scope = scope → id ≠ connId) : a.server.Bound none id key := by
    obtain ⟨c, hc, hserves | ⟨hleaving, -⟩⟩ := hb
    · exact ⟨c, hc, .inl hserves⟩
    · cases hleaving
      exact absurd rfl (hne rfl)
  refine ⟨⟨?_, fun id staged hfind f hf => ?_, h.sent, h.apart⟩, ActionRegistry.filled_pruneEmptyBuckets _, hd⟩
  · refine h.routes.unregister connId (some scope) fun id key hb hne => hbound hb fun hscope => ?_
    exact hne (by simpa using hscope)
  · refine hbound (h.staged id staged hfind f hf) fun _ hid => ?_
    subst hid
    rw [hstaged staged hfind] at hf
    cases hf

lemma Settled.handleSetNamespace (h : a.Settled) (connId : ℕ) (isPresence : Bool) (nspace : Bytes)
    (cache : CacheAnswer) : (a.handleSetNamespace cfg connId isPresence nspace cache).Settled := by
  unfold ActionServer.handleSetNamespace
  cases hbegins : a.server.begins cfg.scopes connId nspace with
  | none => exact h
  | some c =>
    dsimp only
    cases c.session with
    | none => exact h
    | some sess =>
      dsimp only
      obtain ⟨hc, -⟩ := begins_eq_some.mp hbegins
      have hscope : (ActionScope.ofPresence isPresence).isPresence = isPresence := by
        cases isPresence <;> rfl
      have hbegun := h.routed.begin (.ofPresence isPresence) nspace hc
      rw [hscope] at hbegun
      generalize hb : ({ a with
        server := a.server.beginSetNamespace connId isPresence nspace c } : ActionServer) = b at hbegun ⊢
      have hd : Distinct eqKey b.pending := hb ▸ h.distinct
      have hflush := steps_flushWorker cfg anything connId hd
      have hleft := (hbegun.steps hflush).leave (fun staged => bytes_flushWorker cfg) (hflush.distinct hd)
      have hanswers : Steps cfg anything _ (b.invalidateScope cfg connId (.ofPresence isPresence)) :=
        steps_answerAll cfg hleft.distinct fun _ _ _ _ => trivial
      refine Settled.moved (hleft.steps hanswers) (moves_finishSetNamespace _ _ _ _ _ _ ?_)
      intro d hd
      have hbefore := hflush.map (hanswers.map hd)
      rw [← hb] at hbefore
      unfold Server.beginSetNamespace Server.put at hbefore
      dsimp only at hbefore
      rw [update_self, Option.some.injEq] at hbefore
      rw [← hbefore, beginScopeResolution, scope_withScope]
      rfl

lemma scopeInfo_baseCtx {c : Connection SessionClaims} {scope : ActionScope}
    {info : ScopeInfo} (h : scopeInfo (c.baseCtx connId) scope = some info) :
    (c.scope scope.isPresence).nspace = some info.nspace ∧
      (c.scope scope.isPresence).namespaceId = info.namespaceId := by
  cases scope with
  | store =>
    obtain ⟨nspace, hn, rfl⟩ := Option.map_eq_some_iff.mp h
    exact ⟨hn, rfl⟩
  | presence =>
    obtain ⟨nspace, hn, rfl⟩ := Option.map_eq_some_iff.mp h
    exact ⟨hn, rfl⟩

lemma serves_of_registerKeys {c : Connection SessionClaims} {actionIds : List ℕ}
    {keys : List RegistryKey} (h : registerKeys cfg (c.baseCtx connId) actionIds = .ok keys) :
    ∀ key ∈ keys, c.Serves key := by
  induction actionIds generalizing keys with
  | nil =>
    cases h
    exact fun _ hk => absurd hk not_mem_nil
  | cons actionId actionIds ih =>
    unfold registerKeys at h
    split_ifs at h
    cases haction : cfg.actions[actionId]? with
    | none =>
      rw [haction] at h
      cases h
    | some action =>
      rw [haction] at h
      dsimp only at h
      cases hinfo : scopeInfo (c.baseCtx connId) action.scope with
      | none =>
        rw [hinfo] at h
        cases h
      | some info =>
        rw [hinfo] at h
        dsimp only at h
        cases hauthorized : authorizeActionRegister cfg.authConfig action info.nspace (c.baseCtx connId) with
        | error e =>
          rw [hauthorized] at h
          cases h
        | ok _ =>
          rw [hauthorized] at h
          cases hrest : registerKeys cfg (c.baseCtx connId) actionIds with
          | error e =>
            rw [hrest] at h
            cases h
          | ok rest =>
            rw [hrest] at h
            cases h
            obtain ⟨hnspace, hid⟩ := scopeInfo_baseCtx hinfo
            refine forall_mem_cons.mpr ⟨⟨?_, hid⟩, ih hrest⟩
            rw [hnspace]
            rfl

lemma Settled.register (h : a.Settled) (connId : ℕ) (actionIds : List ℕ) :
    (a.register cfg connId actionIds).Settled := by
  unfold ActionServer.register
  cases hc : a.server.map connId with
  | none => exact h
  | some c =>
    dsimp only
    split_ifs
    · exact h
    cases hkeys : registerKeys cfg (c.baseCtx connId) actionIds with
    | error e => exact h
    | ok keys =>
      have hbound : ∀ key ∈ keys, a.server.Bound none connId key := fun key hk =>
        ⟨c, hc, .inl (serves_of_registerKeys hkeys key hk)⟩
      exact ⟨⟨h.routed.routes.register hbound, h.routed.staged, h.routed.sent, h.routed.apart⟩,
        h.filled.register connId keys, h.distinct⟩

/-- A call is forwarded to a worker that is in its namespace, now or when its forward is flushed. -/
lemma Settled.forwardCall (h : a.Settled) (connId : ℕ) (c : Connection SessionClaims)
    (reqId actionId : ℕ) (action : Action) (info : ScopeInfo) (params : Payload) (deadlineNs : ℤ) :
    (a.forwardCall cfg connId c reqId actionId action info params deadlineNs).Settled := by
  obtain heq | ⟨key, worker, registry, f, hpick, hkey, -, hcase⟩ := forwardCall_cases cfg connId c reqId
    actionId action info params deadlineNs a
  · rw [heq]
    exact h
  obtain ⟨hworker, hroutes⟩ := h.routed.routes.pickWorker hpick
  have hpicked : (a.picked registry).Settled :=
    ⟨⟨hroutes, h.routed.staged, h.routed.sent, h.routed.apart⟩, h.filled.pickWorker hpick, h.distinct⟩
  obtain heq | ⟨-, heq⟩ | ⟨-, heq⟩ := hcase
  · rw [heq]
    exact hpicked
  · rw [heq]
    refine ⟨⟨hpicked.routed.routes, fun id staged hfind g hg => ?_, hpicked.routed.sent,
      hpicked.routed.apart⟩, hpicked.filled, hpicked.distinct⟩
    obtain ⟨rfl, rfl⟩ | ⟨before, hbefore, hg⟩ := mem_stageForward hfind hg
    · rw [hkey]
      exact hworker
    · exact h.routed.staged id before hbefore g hg
  · rw [heq]
    have hadded : ((a.picked registry).addPending a.nextExecId
        ⟨connId, worker, reqId, actionId, action.scope, deadlineNs⟩ c.opening).Settled :=
      ⟨⟨hroutes, h.routed.staged, h.routed.sent, h.routed.apart⟩, hpicked.filled, distinct_put eqKey h.distinct⟩
    have hsteps := steps_flushWorker cfg anything worker hadded.distinct
    have hflushed := hadded.steps hsteps
    obtain hsent | ⟨d, hd, hsent⟩ :=
      steps_sendTo_cases cfg anything worker (.forward f) hflushed.distinct
    · exact hflushed.steps hsent
    · rw [hsent]
      refine ⟨hflushed.routed.frame (fun g hg => ?_) _, hflushed.filled, hflushed.distinct⟩
      rw [mem_singleton.mp hg, hkey]
      exact Bound.fits hworker (hsteps.map hd)

lemma Settled.call (h : a.Settled) (connId reqId actionId : ℕ) (params : Payload)
    (clientTimeoutMs : Option ℕ) (nowNs : ℤ) :
    (a.call cfg connId reqId actionId params clientTimeoutMs nowNs).Settled := by
  obtain heq | ⟨c, action, info, deadlineNs, -, -, heq⟩ :=
    call_cases cfg connId reqId actionId params clientTimeoutMs nowNs a
  · rw [heq]
    exact h
  · rw [heq]
    exact h.forwardCall connId c reqId actionId action info params deadlineNs

lemma Settled.resolveReply (h : a.Settled) (connId execId : ℕ) (ok : Bool) (payload : Payload)
    (nowNs : ℤ) : (a.resolveReply cfg connId execId ok payload nowNs).Settled := by
  obtain heq | ⟨p, -, -, ⟨body, -, heq⟩ | ⟨-, heq⟩⟩ :=
    resolveReply_cases cfg connId execId ok payload nowNs a
  · rw [heq]
    exact h
  · rw [heq]
    have hsteps : Steps cfg anything a (a.answer (sendTo cfg) body execId) :=
      steps_answer h.distinct fun _ _ => trivial
    exact h.steps hsteps
  · rw [heq]
    have hs := sameBut_dropPending execId a
    exact ⟨h.routed.same hs, hs.registry ▸ h.filled, h.distinct.sublist (sublist_dropPending execId a)⟩

lemma Settled.reauthorizeRegistrations (h : a.Settled) (connId : ℕ)
    (c : Connection SessionClaims) : (a.reauthorizeRegistrations cfg connId c).Settled := by
  have hrevoked (keys : List RegistryKey) : (keys.foldl (fun a key => a.revoke cfg connId key) a).Routed none ∧
        Distinct eqKey (keys.foldl (fun a key => a.revoke cfg connId key) a).pending := by
    refine List.foldlRecOn (motive := fun b : ActionServer => b.Routed none ∧
      Distinct eqKey b.pending) _ _ ⟨h.routed, h.distinct⟩ fun b hb key _ => ?_
    obtain ⟨hb, hd⟩ := hb
    have hsteps : Steps cfg anything { b with registry := b.registry.revoke connId key }
        (b.revoke cfg connId key) := steps_answerAll cfg hd fun _ _ _ _ => trivial
    have hrouted : ({ b with registry := b.registry.revoke connId key } : ActionServer).Routed none :=
      ⟨hb.routes.revoke connId key, hb.staged, hb.sent, hb.apart⟩
    exact ⟨hrouted.steps hsteps, hsteps.distinct hd⟩
  obtain ⟨hb, hd⟩ := hrevoked ((a.registry.filter fun e => connId ∈ e.2.workers ∧
    !mayHold cfg (c.baseCtx connId) e.1).map Prod.fst)
  exact ⟨⟨hb.routes.pruneEmptyBuckets, hb.staged, hb.sent, hb.apart⟩,
    ActionRegistry.filled_pruneEmptyBuckets _, hd⟩

lemma Settled.handleAuthRefresh (h : a.Settled) (connId : ℕ) (subject : Bytes)
    (claims : SessionClaims) : (a.handleAuthRefresh cfg connId subject claims).Settled := by
  unfold ActionServer.handleAuthRefresh
  cases a.server.map connId with
  | none => exact h
  | some c =>
    dsimp only
    split_ifs
    · have hmoved := h.moved (moves_handleAuthRefresh connId subject claims)
      exact hmoved.reauthorizeRegistrations connId _
    · exact h.steps (steps_onClose anything connId h.distinct)

lemma Settled.step (h : a.Settled) (ev : ActionEvent) : (a.step cfg ev).Settled := by
  cases ev with
  | «open» connId sess slot => exact h.moved (moves_onOpen connId sess slot)
  | setNamespace connId isPresence nspace cache =>
    exact h.handleSetNamespace connId isPresence nspace cache
  | complete i answer => exact h.moved (moves_complete cfg.scopes h.routed.apart i answer)
  | authRefresh connId subject claims => exact h.handleAuthRefresh connId subject claims
  | close connId => exact h.steps (steps_onClose anything connId h.distinct)
  | register connId actionIds => exact h.register connId actionIds
  | call connId reqId actionId params clientTimeoutMs nowNs =>
    exact h.call connId reqId actionId params clientTimeoutMs nowNs
  | reply connId execId ok payload nowNs => exact h.resolveReply connId execId ok payload nowNs
  | sweep nowNs =>
    have hsteps : Steps cfg anything a (a.sweepDeadlinesAt cfg nowNs) :=
      steps_answerAll cfg h.distinct fun _ _ _ _ => trivial
    exact h.steps hsteps
  | flushOutbox => exact h.steps (steps_flushOutbox cfg anything h.distinct)

lemma settled_init : ({} : ActionServer).Settled where
  routed :=
    { routes := ⟨List.Pairwise.nil, fun _ he => absurd he not_mem_nil,
        fun _ he => absurd he not_mem_nil⟩
      staged := fun _ _ hfind => nomatch hfind
      sent := fun _ hs => absurd hs not_mem_nil
      apart := fun _ _ _ hc => nomatch hc }
  filled := fun _ he => absurd he not_mem_nil
  distinct := List.Pairwise.nil

end Events

/-- Whatever has happened on the event loop, the workers of each bucket are open connections in its
namespace, each once and at least one; and no forward has ever been sent to a connection that was in
another namespace than its call. -/
theorem workers_in_namespace (cfg : ActionConfig) (events : List ActionEvent) :
    let a := events.foldl (step cfg) {}
    Distinct eqKey a.registry ∧
    (∀ e ∈ a.registry, e.2.workers ≠ [] ∧ e.2.workers.Nodup ∧
      ∀ connId ∈ e.2.workers, ∃ c, a.server.map connId = some c ∧ c.Serves e.1) ∧
    ∀ s ∈ a.sent, ∀ f ∈ s.frame.forwards, s.conn.Fits f.key := by
  have h : (events.foldl (step cfg) {}).Settled :=
    Machine.invariant (fun _ ev h => h.step ev) settled_init events
  refine ⟨h.routed.routes.distinct, fun e he => ⟨h.filled e he, h.routed.routes.nodup e he, ?_⟩, h.routed.sent⟩
  intro connId hid
  obtain ⟨c, hc, hserves | ⟨hleaving, -⟩⟩ := h.routed.routes.bound e he connId hid
  · exact ⟨c, hc, hserves⟩
  · cases hleaving

end ActionServer
end ZyncBase
