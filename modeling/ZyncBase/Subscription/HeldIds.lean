import ZyncBase.Subscription.StoreServer

/-! The engine and the connections hold the same subscription ids, whatever fails, and an id that a
connection has lost does not come back. -/
namespace ZyncBase

open AssocMap Function List SubscriptionEngine Server

namespace SubscriptionEngine

lemma swapRemove_append_self {id : ℕ} {ids : List ℕ} (h : id ∉ ids) : swapRemove id (ids ++ [id]) = ids := by
  induction ids with
  | nil => simp [swapRemove]
  | cons a ids ih =>
    rw [mem_cons, not_or] at h
    rw [cons_append, swapRemove, if_neg (Ne.symm h.1), ih h.2]

lemma Seated.unsubscribeManyOr {e : SubscriptionEngine} (h : e.Seated) (oom : ℕ → Bool)
    (connId : ℕ) (ids : List ℕ) :
    (e.unsubscribeManyOr oom connId ids).Seated ∧ ∀ key, (e.unsubscribeManyOr oom connId ids).active key =
        if key.connectionId = connId ∧ key.id ∈ ids then none else e.active key := by
  unfold SubscriptionEngine.unsubscribeManyOr
  induction ids generalizing e with
  | nil => exact ⟨h, fun key => by simp⟩
  | cons id ids ih =>
    obtain ⟨hseated, hactive⟩ := h.removeSubscriberOr (oom id) ⟨connId, id⟩
    obtain ⟨hrest, hkeys⟩ := ih hseated
    refine ⟨hrest, fun key => ?_⟩
    rw [foldl_cons, hkeys, hactive]
    by_cases hk : key = ⟨connId, id⟩
    · subst hk
      simp
    · rw [update_of_ne hk]
      have hne : ¬ (key.connectionId = connId ∧ key.id = id) := by
        rintro ⟨rfl, rfl⟩
        exact hk rfl
      by_cases hc : key.connectionId = connId
      · have hid : key.id ≠ id := fun hid => hne ⟨hc, hid⟩
        simp [hc, hid]
      · simp [hc]

end SubscriptionEngine

namespace StoreServer

variable {Claims : Type} {cfg : StoreConfig Claims} {st st' : StoreServer Claims} {connId subId : ℕ}

/-- The id has been given out to the connection; the counter stays at 0 when all have been. -/
def Issued (st : StoreServer Claims) (connId id : ℕ) : Prop :=
  st.nextSubscriptionId connId = 0 ∨ id < st.nextSubscriptionId connId

/-- The two structures hold the same ids. -/
structure Agrees (st : StoreServer Claims) : Prop where
  seated : st.engine.Seated
  nodup : ∀ connId, (st.subscriptionIds connId).Nodup
  agree : ∀ connId id, (st.engine.active ⟨connId, id⟩).isSome ↔ id ∈ st.subscriptionIds connId
  issued : ∀ connId, ∀ id ∈ st.subscriptionIds connId, st.Issued connId id
  bounded : ∀ connId, st.nextSubscriptionId connId < 2 ^ 64
  closed : ∀ connId, st.server.map connId = none → st.subscriptionIds connId = []

lemma agrees_init : Agrees ({} : StoreServer Claims) where
  seated := seated_init
  nodup _ := nodup_nil
  agree := by simp [active]
  issued := by simp
  bounded := by simp
  closed _ _ := rfl

/-- At most the next id of a connection has been given out. -/
def Counted (st st' : StoreServer Claims) : Prop :=
  st'.nextSubscriptionId = st.nextSubscriptionId ∨
    ∃ connId, st.nextSubscriptionId connId ≠ 0 ∧ st'.nextSubscriptionId =
      Function.update st.nextSubscriptionId connId ((st.nextSubscriptionId connId + 1) % 2 ^ 64)

/-- No subscription has come or gone. -/
structure Idle (st st' : StoreServer Claims) : Prop where
  server : st'.server = st.server
  ids : st'.subscriptionIds = st.subscriptionIds
  seated : st'.engine.Seated
  active : st'.engine.active = st.engine.active
  counted : Counted st st'

/-- The connection has gained the next id. -/
structure Gained (st st' : StoreServer Claims) (connId : ℕ) : Prop where
  server : st'.server = st.server
  open_ : (st.server.map connId).isSome
  next : st.nextSubscriptionId connId ≠ 0
  fresh : st.engine.active ⟨connId, st.nextSubscriptionId connId⟩ = none
  ids : st'.subscriptionIds = Function.update st.subscriptionIds connId
    (st.subscriptionIds connId ++ [st.nextSubscriptionId connId])
  seated : st'.engine.Seated
  active : ∃ groupId, st'.engine.active = Function.update st.engine.active
    ⟨connId, st.nextSubscriptionId connId⟩ (some groupId)
  counted : st'.nextSubscriptionId =
    Function.update st.nextSubscriptionId connId ((st.nextSubscriptionId connId + 1) % 2 ^ 64)

section Counters

lemma Issued.counted {id : ℕ} (h : st.Issued connId id)
    (hbound : ∀ connId, st.nextSubscriptionId connId < 2 ^ 64) (hc : Counted st st') :
    st'.Issued connId id := by
  unfold Issued at h ⊢
  obtain hsame | ⟨c, hnext, hstep⟩ := hc
  · rw [hsame]
    exact h
  · rw [hstep]
    by_cases hcc : connId = c
    · subst hcc
      rw [update_self]
      have hb := hbound connId
      have hlt := h.resolve_left hnext
      by_cases hlast : st.nextSubscriptionId connId + 1 = 2 ^ 64
      · left
        rw [hlast]
        exact Nat.mod_self _
      · right
        rw [Nat.mod_eq_of_lt (by omega)]
        omega
    · rw [update_of_ne hcc]
      exact h

lemma Counted.bounded (hc : Counted st st')
    (hbound : ∀ connId, st.nextSubscriptionId connId < 2 ^ 64) (connId : ℕ) :
    st'.nextSubscriptionId connId < 2 ^ 64 := by
  obtain hsame | ⟨c, -, hstep⟩ := hc
  · rw [hsame]
    exact hbound connId
  · rw [hstep]
    by_cases hcc : connId = c
    · rw [hcc, update_self]
      exact Nat.mod_lt _ (Nat.two_pow_pos 64)
    · rw [update_of_ne hcc]
      exact hbound connId

lemma Idle.agrees (h : Idle st st') (hst : st.Agrees) : st'.Agrees where
  seated := h.seated
  nodup connId := by
    rw [h.ids]
    exact hst.nodup connId
  agree connId id := by
    rw [h.active, h.ids]
    exact hst.agree connId id
  issued connId id hid := by
    rw [h.ids] at hid
    exact (hst.issued connId id hid).counted hst.bounded h.counted
  bounded := h.counted.bounded hst.bounded
  closed connId hnone := by
    rw [h.server] at hnone
    rw [h.ids]
    exact hst.closed connId hnone

lemma Gained.agrees (h : Gained st st' connId) (hst : st.Agrees) : st'.Agrees := by
  have hcounted : Counted st st' := .inr ⟨connId, h.next, h.counted⟩
  have hnot : st.nextSubscriptionId connId ∉ st.subscriptionIds connId := by
    rw [← hst.agree, h.fresh]
    exact Bool.false_ne_true
  refine ⟨h.seated, fun c => ?_, fun c id => ?_, fun c id hid => ?_, hcounted.bounded hst.bounded,
    fun c hnone => ?_⟩
  · rw [h.ids]
    by_cases hc : c = connId
    · rw [hc, update_self]
      refine nodup_append.mpr ⟨hst.nodup connId, nodup_singleton _, ?_⟩
      intro a ha b hb he
      rw [mem_singleton] at hb
      exact hnot (hb ▸ he ▸ ha)
    · rw [update_of_ne hc]
      exact hst.nodup c
  · obtain ⟨groupId, hactive⟩ := h.active
    rw [hactive, h.ids]
    by_cases hc : c = connId
    · subst hc
      rw [update_self, mem_append, mem_singleton, ← hst.agree]
      by_cases hid : id = st.nextSubscriptionId c
      · simp [hid]
      · rw [update_of_ne (by simp [hid])]
        simp [hid]
    · rw [update_of_ne hc, update_of_ne (by simp [hc])]
      exact hst.agree c id
  · rw [h.ids] at hid
    by_cases hc : c = connId
    · subst hc
      rw [update_self, mem_append, mem_singleton] at hid
      cases hid with
      | inl hid => exact (hst.issued c id hid).counted hst.bounded hcounted
      | inr hid =>
        unfold Issued
        rw [h.counted, update_self, hid]
        have hb := hst.bounded c
        by_cases hlast : st.nextSubscriptionId c + 1 = 2 ^ 64
        · left
          rw [hlast]
          exact Nat.mod_self _
        · right
          rw [Nat.mod_eq_of_lt (by omega)]
          exact Nat.lt_succ_self _
    · rw [update_of_ne hc] at hid
      exact (hst.issued c id hid).counted hst.bounded hcounted
  · rw [h.server] at hnone
    have hc : c ≠ connId := by
      rintro rfl
      have := h.open_
      rw [hnone] at this
      cases this
    rw [h.ids, update_of_ne hc]
    exact hst.closed c hnone

end Counters

section Subscribing

variable {parsed : Payload} {faults : SubscribeFaults} {req : ReadRequest}

lemma Idle.refl (hst : st.Agrees) : Idle st st := ⟨rfl, rfl, hst.seated, rfl, .inl rfl⟩

lemma allocateSubscriptionId_eq_some {p : ℕ × StoreServer Claims}
    (h : st.allocateSubscriptionId connId = some p) : st.nextSubscriptionId connId ≠ 0 ∧
      p = (st.nextSubscriptionId connId, { st with
        nextSubscriptionId := update st.nextSubscriptionId connId
          ((st.nextSubscriptionId connId + 1) % 2 ^ 64) }) := by
  unfold allocateSubscriptionId at h
  dsimp only at h
  split_ifs at h with hz
  cases h
  exact ⟨hz, rfl⟩

/-- The engine has registered the next id of the connection, which does not keep it yet. -/
structure Registered (st st' : StoreServer Claims) (connId : ℕ) : Prop where
  server : st'.server = st.server
  open_ : (st.server.map connId).isSome
  next : st.nextSubscriptionId connId ≠ 0
  fresh : st.engine.active ⟨connId, st.nextSubscriptionId connId⟩ = none
  ids : st'.subscriptionIds = st.subscriptionIds
  seated : st'.engine.Seated
  active : ∃ groupId, st'.engine.active = Function.update st.engine.active
    ⟨connId, st.nextSubscriptionId connId⟩ (some groupId)
  counted : st'.nextSubscriptionId =
    Function.update st.nextSubscriptionId connId ((st.nextSubscriptionId connId + 1) % 2 ^ 64)

lemma register_spec (cfg : StoreConfig Claims) (hst : st.Agrees) (connId : ℕ) (parsed : Payload)
    (faults : SubscribeFaults) :
    match st.register cfg connId parsed faults with
    | .error st' => Idle st st'
    | .ok (st', subId, req) => Registered st st' connId ∧
        subId = st.nextSubscriptionId connId ∧ req.connId = connId ∧ req.subId = some subId := by
  unfold register
  cases hc : st.server.map connId with
  | none => exact Idle.refl hst
  | some c =>
    by_cases hdecode : faults.decode
    · simp only [if_pos hdecode]
      exact Idle.refl hst
    simp only [if_neg hdecode]
    cases extractTableIndex parsed with
    | error err => exact Idle.refl hst
    | ok tableIndex =>
      cases halloc : st.allocateSubscriptionId connId with
      | none =>
        exact Idle.refl hst
      | some p =>
        obtain ⟨hnext, rfl⟩ := allocateSubscriptionId_eq_some halloc
        set st₁ : StoreServer Claims := { st with
          nextSubscriptionId := update st.nextSubscriptionId connId
            ((st.nextSubscriptionId connId + 1) % 2 ^ 64) } with hst₁
        have hidle : Idle st st₁ := ⟨rfl, rfl, hst.seated, rfl, .inr ⟨connId, hnext, rfl⟩⟩
        cases c.requireCtx false with
        | none => exact hidle
        | some sc =>
          by_cases hprepare : faults.prepare
          · simp only [if_pos hprepare]
            exact hidle
          simp only [if_neg hprepare]
          cases hreq : prepareQueryRead cfg.decodeToken cfg.schema (cfg.readRule tableIndex)
              (cfg.evalCtx c) ⟨connId, sc.namespaceId⟩ tableIndex parsed
              (some (st.nextSubscriptionId connId)) with
          | error err => exact hidle
          | ok req =>
            have hsub := hst.seated.subscribeOr faults.subscribe faults.left faults.oom
              ⟨sc.namespaceId, tableIndex⟩ req.filter ⟨connId, st.nextSubscriptionId connId⟩
            dsimp only
            cases he : st₁.engine.subscribeOr faults.subscribe faults.left faults.oom
                ⟨sc.namespaceId, tableIndex⟩ req.filter
                ⟨connId, st.nextSubscriptionId connId⟩ with
            | error e =>
              have he' : st.engine.subscribeOr faults.subscribe faults.left faults.oom
                ⟨sc.namespaceId, tableIndex⟩ req.filter
                ⟨connId, st.nextSubscriptionId connId⟩ = .error e := he
              rw [he'] at hsub
              exact ⟨rfl, rfl, hsub.1, hsub.2, hidle.counted⟩
            | ok e =>
              have he' : st.engine.subscribeOr faults.subscribe faults.left faults.oom
                ⟨sc.namespaceId, tableIndex⟩ req.filter
                ⟨connId, st.nextSubscriptionId connId⟩ = .ok e := he
              rw [he'] at hsub
              obtain ⟨t, guard, filter, -, -, -, rfl⟩ := prepareQueryRead_eq_ok hreq
              have hopen : (st.server.map connId).isSome := by rw [hc]; rfl
              exact ⟨⟨rfl, hopen, hnext, hsub.2.1, rfl, hsub.1, hsub.2.2, rfl⟩, rfl, rfl, rfl⟩

lemma Registered.track (h : Registered st st' connId) (hst : st.Agrees) (faults : SubscribeFaults) :
    match st'.track connId (st.nextSubscriptionId connId) faults with
    | .error st'' => Idle st st''
    | .ok st'' => Gained st st'' connId := by
  obtain ⟨groupId, hactive⟩ := h.active
  obtain ⟨hseated, hremoved⟩ :=
    h.seated.removeSubscriberOr faults.oom ⟨connId, st.nextSubscriptionId connId⟩
  have hundone : (st'.engine.removeSubscriberOr faults.oom
      ⟨connId, st.nextSubscriptionId connId⟩).active = st.engine.active := by
    rw [hremoved, hactive, update_idem]
    exact update_eq_self_iff.mpr h.fresh.symm
  have hcounted : Counted st st' := .inr ⟨connId, h.next, h.counted⟩
  unfold StoreServer.track
  by_cases htrack : faults.track
  · simp only [if_pos htrack]
    exact ⟨h.server, h.ids, hseated, hundone, hcounted⟩
  simp only [if_neg htrack]
  by_cases henqueue : faults.enqueue
  · simp only [if_pos henqueue]
    refine ⟨h.server, ?_, hseated, hundone, hcounted⟩
    have hnot : st.nextSubscriptionId connId ∉ st.subscriptionIds connId := by
      rw [← hst.agree, h.fresh]
      exact Bool.false_ne_true
    simp only [removeSubscription, addSubscription, h.ids, update_self, update_idem,
      swapRemove_append_self hnot, update_eq_self]
  · simp only [if_neg henqueue]
    refine ⟨h.server, h.open_, h.next, h.fresh, ?_, h.seated, h.active, h.counted⟩
    simp only [addSubscription, h.ids]

lemma handleStoreSubscribe_spec (cfg : StoreConfig Claims) (hst : st.Agrees) (connId : ℕ)
    (parsed : Payload) (faults : SubscribeFaults) :
    match st.handleStoreSubscribe cfg connId parsed faults with
    | (st', .refused) => Idle st st'
    | (st', .undone subId) => Idle st st' ∧ subId = st.nextSubscriptionId connId
    | (st', .queued req) => Gained st st' connId ∧ req.connId = connId ∧
        req.subId = some (st.nextSubscriptionId connId) := by
  have hregister := register_spec cfg hst connId parsed faults
  unfold handleStoreSubscribe
  cases hr : st.register cfg connId parsed faults with
  | error st₁ =>
    rw [hr] at hregister
    exact hregister
  | ok p =>
    obtain ⟨st₁, subId, req⟩ := p
    rw [hr] at hregister
    obtain ⟨hreg, rfl, hconn, hsub⟩ := hregister
    have htrack := hreg.track hst faults
    dsimp only
    cases ht : st₁.track connId (st.nextSubscriptionId connId) faults with
    | error st₂ =>
      rw [ht] at htrack
      exact ⟨htrack, rfl⟩
    | ok st₂ =>
      rw [ht] at htrack
      exact ⟨htrack, hconn, hsub⟩

end Subscribing

variable {server : Server Claims}

section Events

lemma Agrees.handleStoreUnsubscribe (hst : st.Agrees) (connId subId : ℕ) (oom : Bool) :
    (st.handleStoreUnsubscribe connId subId oom).Agrees := by
  unfold StoreServer.handleStoreUnsubscribe
  cases hc : st.server.map connId with
  | none => exact hst
  | some _ =>
    obtain ⟨hseated, hactive⟩ := hst.seated.removeSubscriberOr oom ⟨connId, subId⟩
    have hperm := swapRemove_perm subId (st.subscriptionIds connId)
    refine ⟨hseated, fun c => ?_, fun c id => ?_, fun c id hid => ?_, hst.bounded, fun c hnone => ?_⟩
    · simp only [removeSubscription]
      by_cases hcc : c = connId
      · rw [hcc, update_self]
        exact hperm.nodup_iff.mpr ((hst.nodup connId).erase subId)
      · rw [update_of_ne hcc]
        exact hst.nodup c
    · simp only [removeSubscription, hactive]
      by_cases hcc : c = connId
      · subst hcc
        rw [update_self, hperm.mem_iff, (hst.nodup c).mem_erase_iff, ← hst.agree]
        by_cases hid : id = subId
        · simp [hid]
        · rw [update_of_ne (by simp [hid])]
          simp [hid]
      · rw [update_of_ne hcc, update_of_ne (by simp [hcc])]
        exact hst.agree c id
    · simp only [removeSubscription] at hid
      refine hst.issued c id ?_
      by_cases hcc : c = connId
      · subst hcc
        rw [update_self, hperm.mem_iff] at hid
        exact mem_of_mem_erase hid
      · rwa [update_of_ne hcc] at hid
    · have hcc : c ≠ connId := by
        rintro rfl
        rw [removeSubscription] at hnone
        cases hc.symm.trans hnone
      simp only [removeSubscription]
      rw [update_of_ne hcc]
      exact hst.closed c hnone

lemma unsubscribeDetached_active (hst : st.Agrees) (oom : ℕ → Bool) (connId : ℕ)
    (key : SubscriberKey) : (st.unsubscribeDetached oom connId).engine.active key =
      if key.connectionId = connId then none else st.engine.active key := by
  simp only [unsubscribeDetached]
  rw [(hst.seated.unsubscribeManyOr oom connId _).2]
  by_cases hc : key.connectionId = connId
  · rw [if_pos hc]
    split_ifs with hk
    · rfl
    · have hnot : key.id ∉ st.subscriptionIds connId := fun hid => hk ⟨hc, hid⟩
      rw [← hst.agree, ← hc] at hnot
      exact Option.not_isSome_iff_eq_none.mp hnot
  · rw [if_neg hc, if_neg fun hk => hc hk.1]

/-- The agreement of ids and engine does not look at the server, except for closed connections. -/
lemma Agrees.of_server (hst : st.Agrees)
    (hclosed : ∀ connId, server.map connId = none → st.subscriptionIds connId = []) :
    Agrees { st with server := server } :=
  ⟨hst.seated, hst.nodup, hst.agree, hst.issued, hst.bounded, hclosed⟩

lemma Agrees.unsubscribeDetached (hst : st.Agrees) (oom : ℕ → Bool) (connId : ℕ)
    (hclosed : ∀ c, c ≠ connId → server.map c = none → st.subscriptionIds c = []) :
    (unsubscribeDetached oom connId { st with server := server }).Agrees := by
  have hactive := unsubscribeDetached_active hst oom connId
  refine ⟨(hst.seated.unsubscribeManyOr oom connId _).1, fun c => ?_, fun c id => ?_,
    fun c id hid => ?_, hst.bounded, fun c hnone => ?_⟩
  · simp only [StoreServer.unsubscribeDetached]
    by_cases hcc : c = connId
    · rw [hcc, update_self]
      exact nodup_nil
    · rw [update_of_ne hcc]
      exact hst.nodup c
  · change ((st.unsubscribeDetached oom connId).engine.active ⟨c, id⟩).isSome ↔ _
    rw [hactive]
    simp only [StoreServer.unsubscribeDetached]
    by_cases hcc : c = connId
    · subst hcc
      simp
    · rw [update_of_ne hcc, if_neg hcc]
      exact hst.agree c id
  · simp only [StoreServer.unsubscribeDetached] at hid
    by_cases hcc : c = connId
    · subst hcc
      rw [update_self] at hid
      cases hid
    · rw [update_of_ne hcc] at hid
      exact hst.issued c id hid
  · simp only [StoreServer.unsubscribeDetached]
    by_cases hcc : c = connId
    · rw [hcc, update_self]
    · rw [update_of_ne hcc]
      exact hclosed c hcc hnone

lemma map_of_step {ev : ServerEvent Claims} (hopens : server.opens ev = none) {c : ℕ}
    (hnone : (server.step cfg.scopes ev).map c = none) :
    server.map c = none ∨ server.detaches cfg.scopes ev = some c := by
  have hstep := openings_step cfg.scopes server ev
  rw [hopens] at hstep
  have hopen : (server.step cfg.scopes ev).openings c = none := by
    rw [openings, hnone]
    rfl
  have hsame (h : (server.step cfg.scopes ev).openings c = server.openings c) : server.map c = none := by
    rw [h, openings, Option.map_eq_none_iff] at hopen
    exact hopen
  cases ev with
  | close connId =>
    by_cases hc : c = connId
    · subst hc
      cases hm : server.map c with
      | none => exact .inl rfl
      | some conn => exact .inr (by rw [detaches, hm]; rfl)
    · exact .inl (hsame (by rw [hstep.2, update_of_ne hc]))
  | _ => exact .inl (hsame (congrFun hstep.1 c))

lemma Agrees.handleConnection (hst : st.Agrees) (ev : ServerEvent Claims) (oom : ℕ → Bool) :
    (st.handleConnection cfg ev oom).Agrees := by
  unfold StoreServer.handleConnection
  cases hopens : st.server.opens ev with
  | some connId =>
    have hstep := openings_step cfg.scopes st.server ev
    rw [hopens] at hstep
    obtain ⟨hnone, -, hopenings⟩ := hstep
    have hids : update st.subscriptionIds connId [] = st.subscriptionIds :=
      update_eq_self_iff.mpr (hst.closed connId hnone).symm
    dsimp only
    unfold activate
    dsimp only
    rw [hids]
    refine ⟨hst.seated, fun c => ?_, fun c id => ?_, fun c id hid => ?_, fun c => ?_, fun c hclosed => ?_⟩
    · exact hst.nodup c
    · exact hst.agree c id
    · have hc : c ≠ connId := by
        rintro rfl
        rw [hst.closed c hnone] at hid
        cases hid
      have hissued := hst.issued c id hid
      unfold Issued at hissued ⊢
      dsimp only
      rwa [update_of_ne hc]
    · change update st.nextSubscriptionId connId 1 c < 2 ^ 64
      by_cases hc : c = connId
      · rw [hc, update_self]
        exact Nat.one_lt_two_pow (by decide)
      · rw [update_of_ne hc]
        exact hst.bounded c
    · by_cases hc : c = connId
      · rw [hc]
        exact hst.closed connId hnone
      · refine hst.closed c ?_
        have hopen : (st.server.step cfg.scopes ev).openings c = none := by
          rw [openings, hclosed]
          rfl
        rw [hopenings, update_of_ne hc, openings, Option.map_eq_none_iff] at hopen
        exact hopen
  | none =>
    dsimp only
    cases hdetaches : st.server.detaches cfg.scopes ev with
    | some connId =>
      refine hst.unsubscribeDetached oom connId fun c hc hnone => hst.closed c ?_
      refine (map_of_step hopens hnone).resolve_right fun hd => hc ?_
      rw [hdetaches] at hd
      exact (Option.some.inj hd).symm
    | none =>
      refine hst.of_server fun c hnone => hst.closed c ?_
      refine (map_of_step hopens hnone).resolve_right fun hd => ?_
      rw [hdetaches] at hd
      cases hd

lemma Agrees.handleStoreSubscribe (hst : st.Agrees) (connId : ℕ) (parsed : Payload)
    (faults : SubscribeFaults) : (st.handleStoreSubscribe cfg connId parsed faults).1.Agrees := by
  have hspec := handleStoreSubscribe_spec cfg hst connId parsed faults
  cases hr : st.handleStoreSubscribe cfg connId parsed faults with
  | mk st' outcome =>
    rw [hr] at hspec
    cases outcome with
    | refused => exact hspec.agrees hst
    | undone subId => exact hspec.1.agrees hst
    | queued req => exact hspec.1.agrees hst

lemma Agrees.idle_presence (hst : st.Agrees) (connId : ℕ) :
    Idle st (st.step cfg (.presenceSubscribe connId)) := by
  simp only [step]
  cases st.server.map connId with
  | none => exact Idle.refl hst
  | some c =>
    cases halloc : st.allocateSubscriptionId connId with
    | none => exact Idle.refl hst
    | some p =>
      obtain ⟨hnext, rfl⟩ := allocateSubscriptionId_eq_some halloc
      exact ⟨rfl, rfl, hst.seated, rfl, .inr ⟨connId, hnext, rfl⟩⟩

lemma Agrees.step (hst : st.Agrees) (ev : StoreEvent Claims) : (st.step cfg ev).Agrees := by
  cases ev with
  | connection ev oom => exact hst.handleConnection ev oom
  | subscribe connId parsed faults during => exact hst.handleStoreSubscribe connId parsed faults
  | unsubscribe connId subId oom => exact hst.handleStoreUnsubscribe connId subId oom
  | presenceSubscribe connId => exact (hst.idle_presence connId).agrees hst
  | change job => exact hst

lemma agrees_run (cfg : StoreConfig Claims) (events : List (StoreEvent Claims)) : (run cfg events).Agrees :=
  Machine.invariant (I := Agrees) (fun _ ev h => h.step ev) agrees_init events

end Events

section Lost

/-- The connection, as long as it is that of the opening, has had the id and lost it. -/
structure Gone (st : StoreServer Claims) (connId opening id : ℕ) : Prop where
  opened : opening < st.server.opened
  inactive : st.server.openings connId = some opening →
    st.Issued connId id ∧ st.engine.active ⟨connId, id⟩ = none

variable {opening id : ℕ}

lemma Gone.idle (h : st.Gone connId opening id) (hst : st.Agrees) (hidle : Idle st st') :
    st'.Gone connId opening id := by
  refine ⟨?_, fun ho => ?_⟩
  · rw [hidle.server]
    exact h.opened
  · rw [hidle.server] at ho
    obtain ⟨hissued, hnone⟩ := h.inactive ho
    rw [hidle.active]
    exact ⟨hissued.counted hst.bounded hidle.counted, hnone⟩

lemma Gone.gained (h : st.Gone connId opening id) (hst : st.Agrees) {c : ℕ}
    (hgained : Gained st st' c) : st'.Gone connId opening id := by
  refine ⟨?_, fun ho => ?_⟩
  · rw [hgained.server]
    exact h.opened
  · rw [hgained.server] at ho
    obtain ⟨hissued, hnone⟩ := h.inactive ho
    obtain ⟨groupId, hactive⟩ := hgained.active
    have hcounted : Counted st st' := .inr ⟨c, hgained.next, hgained.counted⟩
    refine ⟨hissued.counted hst.bounded hcounted, ?_⟩
    rw [hactive, update_of_ne, hnone]
    intro hkey
    cases hkey
    exact hissued.elim hgained.next (lt_irrefl _)

lemma Gone.handleConnection (h : st.Gone connId opening id) (hst : st.Agrees)
    (ev : ServerEvent Claims) (oom : ℕ → Bool) : (st.handleConnection cfg ev oom).Gone connId opening id := by
  have hstep := openings_step cfg.scopes st.server ev
  unfold StoreServer.handleConnection
  cases hopens : st.server.opens ev with
  | some c =>
    rw [hopens] at hstep
    obtain ⟨-, hopened, hopenings⟩ := hstep
    refine ⟨?_, fun ho => ?_⟩
    · change opening < (st.server.step cfg.scopes ev).opened
      rw [hopened]
      exact Nat.lt_succ_of_lt h.opened
    · change (st.server.step cfg.scopes ev).openings connId = some opening at ho
      rw [hopenings] at ho
      by_cases hc : connId = c
      · rw [hc, update_self] at ho
        exact absurd (Option.some.inj ho) (Nat.ne_of_gt h.opened)
      · rw [update_of_ne hc] at ho
        obtain ⟨hissued, hnone⟩ := h.inactive ho
        refine ⟨?_, hnone⟩
        unfold Issued at hissued ⊢
        simpa [activate, hc] using hissued
  | none =>
    rw [hopens] at hstep
    have hserver : (st.server.step cfg.scopes ev).opened = st.server.opened ∧
        ((st.server.step cfg.scopes ev).openings connId = some opening →
          st.server.openings connId = some opening) := by
      cases ev with
      | close c =>
        refine ⟨hstep.1, fun ho => ?_⟩
        rw [hstep.2] at ho
        by_cases hc : connId = c
        · rw [hc, update_self] at ho
          cases ho
        · rwa [update_of_ne hc] at ho
      | _ => exact ⟨hstep.2, fun ho => by rwa [hstep.1] at ho⟩
    dsimp only
    cases st.server.detaches cfg.scopes ev with
    | none =>
      refine ⟨?_, fun ho => h.inactive (hserver.2 ho)⟩
      change opening < (st.server.step cfg.scopes ev).opened
      rw [hserver.1]
      exact h.opened
    | some c =>
      refine ⟨?_, fun ho => ?_⟩
      · change opening < (st.server.step cfg.scopes ev).opened
        rw [hserver.1]
        exact h.opened
      · obtain ⟨hissued, hnone⟩ := h.inactive (hserver.2 ho)
        refine ⟨hissued, ?_⟩
        change (st.unsubscribeDetached oom c).engine.active _ = none
        rw [unsubscribeDetached_active hst]
        split_ifs
        · rfl
        · exact hnone

lemma Gone.step (h : st.Gone connId opening id) (hst : st.Agrees) (ev : StoreEvent Claims) :
    (st.step cfg ev).Gone connId opening id := by
  cases ev with
  | connection ev oom => exact h.handleConnection hst ev oom
  | subscribe c parsed faults during =>
    have hspec := handleStoreSubscribe_spec cfg hst c parsed faults
    simp only [StoreServer.step]
    cases hr : st.handleStoreSubscribe cfg c parsed faults with
    | mk st' outcome =>
      rw [hr] at hspec
      cases outcome with
      | refused => exact h.idle hst hspec
      | undone subId => exact h.idle hst hspec.1
      | queued req => exact h.gained hst hspec.1
  | unsubscribe c subId oom =>
    simp only [StoreServer.step, StoreServer.handleStoreUnsubscribe]
    cases st.server.map c with
    | none => exact h
    | some _ =>
      refine ⟨h.opened, fun ho => ?_⟩
      obtain ⟨hissued, hnone⟩ := h.inactive ho
      refine ⟨hissued, ?_⟩
      change (st.engine.removeSubscriberOr oom ⟨c, subId⟩).active _ = none
      rw [(hst.seated.removeSubscriberOr oom ⟨c, subId⟩).2]
      by_cases hk : (⟨connId, id⟩ : SubscriberKey) = ⟨c, subId⟩
      · rw [hk, update_self]
      · rw [update_of_ne hk]
        exact hnone
  | presenceSubscribe c => exact h.idle hst (hst.idle_presence c)
  | change job => exact h

lemma Gone.run (cfg : StoreConfig Claims) (h : st.Gone connId opening id) (hst : st.Agrees)
    (events : List (StoreEvent Claims)) :
    Gone (events.foldl (StoreServer.step cfg) st) connId opening id := by
  have hboth : ∀ st : StoreServer Claims, ∀ ev, (st.Agrees ∧ st.Gone connId opening id) →
      (st.step cfg ev).Agrees ∧ (st.step cfg ev).Gone connId opening id :=
    fun st ev hst => ⟨hst.1.step ev, hst.2.step hst.1 ev⟩
  exact (Machine.invariant hboth ⟨hst, h⟩ events).2

lemma Gone.absent (h : st.Gone connId opening id) (hst : st.Agrees)
    (hsame : ∀ c, st.server.map connId = some c → c.opening = opening) : st.engine.active ⟨connId, id⟩ = none := by
  cases hmap : st.server.map connId with
  | none =>
    have hnot : id ∉ st.subscriptionIds connId := by
      rw [hst.closed connId hmap]
      exact not_mem_nil
    rw [← hst.agree] at hnot
    exact Option.not_isSome_iff_eq_none.mp hnot
  | some c =>
    refine (h.inactive ?_).2
    rw [openings, hmap, Option.map_some, hsame c hmap]

lemma server_step (cfg : StoreConfig Claims) (hst : st.Agrees) (ev : StoreEvent Claims) :
    (st.step cfg ev).server = st.server ∨ ∃ ev', (st.step cfg ev).server = st.server.step cfg.scopes ev' := by
  cases ev with
  | connection ev oom =>
    refine .inr ⟨ev, ?_⟩
    simp only [step, StoreServer.handleConnection]
    cases st.server.opens ev with
    | some c => rfl
    | none =>
      cases st.server.detaches cfg.scopes ev with
      | some c => rfl
      | none => rfl
  | subscribe c parsed faults during =>
    have hspec := handleStoreSubscribe_spec cfg hst c parsed faults
    simp only [StoreServer.step]
    cases hr : st.handleStoreSubscribe cfg c parsed faults with
    | mk st' outcome =>
      rw [hr] at hspec
      cases outcome with
      | refused => exact .inl hspec.server
      | undone subId => exact .inl hspec.1.server
      | queued req => exact .inl hspec.1.server
  | unsubscribe c subId oom =>
    simp only [step, StoreServer.handleStoreUnsubscribe]
    cases st.server.map c with
    | none => exact .inl rfl
    | some _ => exact .inl rfl
  | presenceSubscribe c => exact .inl (hst.idle_presence c).server
  | change job => exact .inl rfl

/-- Every open connection has been counted. -/
def Opened (server : Server Claims) : Prop :=
  ∀ connId o, server.openings connId = some o → o < server.opened

lemma Opened.step (h : Opened server) (ev : ServerEvent Claims) : Opened (server.step cfg.scopes ev) := by
  have hstep := openings_step cfg.scopes server ev
  intro connId o ho
  cases hopens : server.opens ev with
  | some c =>
    rw [hopens] at hstep
    obtain ⟨-, hopened, hopenings⟩ := hstep
    rw [hopenings] at ho
    rw [hopened]
    by_cases hc : connId = c
    · rw [hc, update_self] at ho
      cases ho
      exact Nat.lt_succ_self _
    · rw [update_of_ne hc] at ho
      exact Nat.lt_succ_of_lt (h connId o ho)
  | none =>
    rw [hopens] at hstep
    cases ev with
    | close c =>
      rw [hstep.1]
      rw [hstep.2] at ho
      by_cases hc : connId = c
      · rw [hc, update_self] at ho
        cases ho
      · rw [update_of_ne hc] at ho
        exact h connId o ho
    | _ =>
      rw [hstep.1] at ho
      rw [hstep.2]
      exact h connId o ho

lemma opened_run (cfg : StoreConfig Claims) (events : List (StoreEvent Claims)) :
    Opened (run cfg events).server := by
  have hboth : ∀ st : StoreServer Claims, ∀ ev, (st.Agrees ∧ Opened st.server) →
      (st.step cfg ev).Agrees ∧ Opened (st.step cfg ev).server := by
    rintro st ev ⟨hst, hopened⟩
    refine ⟨hst.step ev, ?_⟩
    obtain hsame | ⟨ev', hserver⟩ := server_step cfg hst ev
    · rw [hsame]
      exact hopened
    · rw [hserver]
      exact hopened.step ev'
  refine (Machine.invariant hboth ⟨agrees_init, fun connId o ho => ?_⟩ events).2
  cases ho

lemma Agrees.detached (hst : st.Agrees) (hopened : Opened st.server) {ev : ServerEvent Claims}
    (oom : ℕ → Bool) {c : Connection Claims} (hc : st.server.map connId = some c)
    (hdetaches : st.server.detaches cfg.scopes ev = some connId) (hid : st.Issued connId id) :
    (st.step cfg (.connection ev oom)).Gone connId c.opening id := by
  have hopenings : st.server.openings connId = some c.opening := by
    rw [openings, hc]
    rfl
  have hopens : st.server.opens ev = none := by
    cases ev with
    | «open» c sess slot => cases hdetaches
    | _ => rfl
  have hserver := openings_step cfg.scopes st.server ev
  rw [hopens] at hserver
  have hcount : (st.server.step cfg.scopes ev).opened = st.server.opened := by
    cases ev with
    | close c => exact hserver.1
    | _ => exact hserver.2
  change (st.handleConnection cfg ev oom).Gone connId c.opening id
  unfold StoreServer.handleConnection
  simp only [hopens, hdetaches]
  refine ⟨?_, fun _ => ⟨hid, ?_⟩⟩
  · change c.opening < (st.server.step cfg.scopes ev).opened
    rw [hcount]
    exact hopened connId c.opening hopenings
  · change (st.unsubscribeDetached oom connId).engine.active _ = none
    rw [unsubscribeDetached_active hst, if_pos rfl]

end Lost

/-- After any events the engine and the connections hold the same subscription ids, and a
connection that closed or left its store namespace has for good lost the ids that it had. -/
theorem subscription_ids_agree (cfg : StoreConfig Claims) (events : List (StoreEvent Claims)) :
    (∀ connId id, ((run cfg events).engine.active ⟨connId, id⟩).isSome ↔
      id ∈ (run cfg events).subscriptionIds connId) ∧
    ∀ before ev oom after, events = before ++ .connection ev oom :: after →
      ∀ connId c, (run cfg before).server.map connId = some c →
        (run cfg before).server.detaches cfg.scopes ev = some connId →
        ∀ id, (run cfg before).Issued connId id →
          (∀ c', (run cfg events).server.map connId = some c' → c'.opening = c.opening) →
          (run cfg events).engine.active ⟨connId, id⟩ = none := by
  have hagrees := agrees_run cfg events
  refine ⟨hagrees.agree, ?_⟩
  rintro before ev oom after hevents connId c hc hdetaches id hid hsame
  have hbefore := agrees_run cfg before
  have hgone := (hbefore.detached (opened_run cfg before) oom hc hdetaches hid).run cfg
    (hbefore.step (.connection ev oom)) after
  have hrun : after.foldl (step cfg) ((run cfg before).step cfg (.connection ev oom)) = run cfg events := by
    rw [hevents, run, run, foldl_append, foldl_cons]
  rw [hrun] at hgone
  exact hgone.absent hagrees hsame

namespace SwitchExample

open PkSetsExample RegistrationExample

/-- Every user may enter every namespace and read the users table. -/
def openStore : StoreConfig Unit where
  scopes := ⟨false, fun _ _ => 7, fun _ _ _ _ => true⟩
  schema := usersSchema
  readRule _ := .boolean true
  evalCtx _ := {}
  decodeToken _ := none

/-- A client enters a namespace and subscribes. -/
def subscribing : List (StoreEvent Unit) :=
  [.connection (.open 4 ⟨[117], ()⟩ 0) fun _ => false,
    .connection (.setNamespace 4 false [115] (.hit ⟨1, 7⟩)) fun _ => false,
    .subscribe 4 subscribeUsers {} []]

/-- It asks for another namespace, and the path of the removed filter cannot be copied. -/
def switching : StoreEvent Unit :=
  .connection (.setNamespace 4 false [116] .miss) fun _ => true

theorem subscription_ids_agree_switching : (run openStore subscribing).subscriptionIds 4 = [1] ∧
    (run openStore (subscribing ++ [switching])).engine.active ⟨4, 1⟩ = none := by
  refine ⟨rfl, ?_⟩
  have hagree := subscription_ids_agree openStore (subscribing ++ [switching])
  refine hagree.2 subscribing _ _ [] rfl 4 _ rfl rfl 1 (Or.inr (Nat.lt_succ_self 1)) ?_
  intro c' hc'
  cases hc'
  rfl

end SwitchExample
end StoreServer
end ZyncBase
