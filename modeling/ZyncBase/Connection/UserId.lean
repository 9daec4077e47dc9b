import ZyncBase.Connection.Scopes

/-! The user id that the scopes of a connection share: while a scope is ready it is the id of the
user, as long as no reset of the store scope leaves a ready presence scope without it. -/
namespace ZyncBase

open Function List Machine Connection ScopeState Server

variable {Claims : Type} {cfg : ScopeConfig Claims}

def Connection.ServesUser (cfg : ScopeConfig Claims) (c : Connection Claims) (sc : ScopeState) :
    Prop :=
  ∃ nspace sess, sc.nspace = some nspace ∧ c.session = some sess ∧
    c.userDocId = cfg.userDocId nspace sess.externalId

def Connection.RightUser (cfg : ScopeConfig Claims) (c : Connection Claims) : Prop :=
  ∀ isPresence, (c.scope isPresence).ready → c.ServesUser cfg (c.scope isPresence)

def Use.RightUser (cfg : ScopeConfig Claims) (use : Use) : Prop :=
  ∃ nspace externalId, use.nspace = some nspace ∧ use.externalId = some externalId ∧
    use.userDocId = cfg.userDocId nspace externalId

variable {nspace : Bytes}

namespace Connection

/-- A session that is open, has the id of its user, and stays in one namespace if its users do. -/
structure Sound (cfg : ScopeConfig Claims) (c : Connection Claims) : Prop where
  identified : c.session.isSome
  right : c.RightUser cfg
  settled : cfg.usersNamespaced → ∀ i j, ∀ m ∈ (c.scope i).names, ∀ n ∈ (c.scope j).names, m = n
  present : c.presence.namespaceId ≠ unsetNamespaceId → c.presence.ready

/-- A resolution that the connection has asked for. -/
structure Asked (c : Connection Claims) (r : ResolveScopeRequest) : Prop where
  user : c.session.map Session.externalId = some r.externalUserId
  begun : r.scopeSeq ≤ (c.scope r.isPresence).scopeSeq
  pending : r.scopeSeq = (c.scope r.isPresence).scopeSeq →
    ∀ nspace, (c.scope r.isPresence).pendingNspace = some nspace → nspace = r.nspace

variable {c : Connection Claims} {r : ResolveScopeRequest}

lemma eq_or_eq_not (i j : Bool) : j = i ∨ j = !i := by
  cases i <;> cases j <;> simp

lemma ServesUser.use {connId : ℕ} {isPresence : Bool}
    (h : c.ServesUser cfg (c.scope isPresence)) : (c.useIn connId isPresence).RightUser cfg := by
  obtain ⟨nspace, sess, hn, hs, hu⟩ := h
  exact ⟨nspace, sess.externalId, hn, by simp [useIn, hs], hu⟩

lemma Sound.withScope (h : c.Sound cfg) (i : Bool) {sc : ScopeState} {uid : DocId}
    (hready : sc.ready → ∃ nspace sess, sc.nspace = some nspace ∧ c.session = some sess ∧
      uid = cfg.userDocId nspace sess.externalId) (hother : (c.scope !i).ready → uid = c.userDocId)
    (hnames : cfg.usersNamespaced → ∀ m ∈ sc.names, ∀ j, ∀ n ∈ sc.names ++ (c.scope j).names, m = n)
    (hpresent : i = true → sc.namespaceId ≠ unsetNamespaceId → sc.ready) :
    (c.withScope i sc uid).Sound cfg where
  identified := by rw [session_withScope, h.identified]
  right := by
    intro j hj
    obtain rfl | rfl := eq_or_eq_not i j
    · rw [scope_withScope] at hj ⊢
      obtain ⟨nspace, sess, hn, hs, hu⟩ := hready hj
      exact ⟨nspace, sess, hn, by rw [session_withScope, hs], by rw [userDocId_withScope, hu]⟩
    · rw [scope_withScope_not] at hj ⊢
      obtain ⟨nspace, sess, hn, hs, hu⟩ := h.right _ hj
      exact ⟨nspace, sess, hn, by rw [session_withScope, hs], by rw [userDocId_withScope, hother hj, hu]⟩
  settled := by
    intro hns j k m hm n hn
    obtain rfl | rfl := eq_or_eq_not i j
    · rw [scope_withScope] at hm
      obtain rfl | rfl := eq_or_eq_not j k
      · rw [scope_withScope] at hn
        exact hnames hns m hm true n (mem_append_left _ hn)
      · rw [scope_withScope_not] at hn
        exact hnames hns m hm _ n (mem_append_right _ hn)
    · rw [scope_withScope_not] at hm
      obtain rfl | rfl := eq_or_eq_not i k
      · rw [scope_withScope] at hn
        exact (hnames hns n hn _ m (mem_append_right _ hm)).symm
      · rw [scope_withScope_not] at hn
        exact h.settled hns _ _ m hm n hn
  present := by
    cases i with
    | true => exact hpresent rfl
    | false => exact h.present

/-- A reset leaves no name and no readiness behind, but it must not take the id from a scope that
is ready. -/
lemma Sound.resetScope (h : c.Sound cfg) (i : Bool)
    (hkeep : i = false → c.presence.ready = false) : (c.resetScope i).Sound cfg := by
  refine h.withScope i (by simp [reset]) ?_ (by simp [names, reset])
    (by simp [reset])
  intro hready
  cases i with
  | true => rfl
  | false => exact absurd hready (by simp [scope, hkeep rfl])

lemma mem_names {i : Bool} {n : Bytes} : n ∈ (c.scope i).names ↔
    (c.scope i).nspace = some n ∨ (c.scope i).pendingNspace = some n := by
  simp [names]

lemma exists_currentNamespace {j : Bool} {n : Bytes} (hn : n ∈ (c.scope j).names) :
    ∃ m i, c.currentNamespace = some m ∧ m ∈ (c.scope i).names := by
  have hcases : ∀ i m, (c.scope i).nspace = some m ∨ (c.scope i).pendingNspace = some m →
      m ∈ (c.scope i).names := fun i m => mem_names.mpr
  unfold currentNamespace
  cases hstore : c.store.nspace with
  | some m => exact ⟨m, false, rfl, hcases false m (.inl hstore)⟩
  | none =>
    cases hpending : c.store.pendingNspace with
    | some m => exact ⟨m, false, rfl, hcases false m (.inr hpending)⟩
    | none =>
      cases hpresence : c.presence.nspace with
      | some m => exact ⟨m, true, rfl, hcases true m (.inl hpresence)⟩
      | none =>
        cases hpending' : c.presence.pendingNspace with
        | some m => exact ⟨m, true, rfl, hcases true m (.inr hpending')⟩
        | none =>
          cases j with
          | true => simp [names, scope, hpresence, hpending'] at hn
          | false => simp [names, scope, hstore, hpending] at hn

lemma Sound.names_eq (h : c.Sound cfg)
    (haccepted : c.rejectsNamespaceSwitch cfg nspace = false) (hns : cfg.usersNamespaced)
    {j : Bool} {n : Bytes} (hn : n ∈ (c.scope j).names) : n = nspace := by
  obtain ⟨m, i, hcurrent, hm⟩ := exists_currentNamespace hn
  unfold rejectsNamespaceSwitch at haccepted
  rw [hns, hcurrent] at haccepted
  have hnspace : m = nspace := by simpa using haccepted
  rw [h.settled hns j i n hn m hm, hnspace]

lemma Sound.beginScopeResolution (h : c.Sound cfg) (i : Bool)
    (haccepted : c.rejectsNamespaceSwitch cfg nspace = false)
    (hkeep : i = false → c.presence.ready = false) : (c.beginScopeResolution i nspace).Sound cfg := by
  have hbegun : ((c.scope i).begin nspace).names = [nspace] := rfl
  refine h.withScope i (by simp [begin, reset]) ?_ ?_
    (by simp [begin, reset])
  · intro hready
    cases i with
    | true => rfl
    | false => exact absurd hready (by simp [scope, hkeep rfl])
  · intro hns m hm j n hn
    rw [hbegun, mem_singleton] at hm
    subst hm
    rw [hbegun, singleton_append, mem_cons] at hn
    cases hn with
    | inl hn => exact hn.symm
    | inr hn => exact (h.names_eq haccepted hns hn).symm

lemma Sound.install (h : c.Sound cfg) (i : Bool) {sess : Session Claims}
    {namespaceId : ℤ} {scopeSeq : ℕ} (hsession : c.session = some sess)
    (hnames : cfg.usersNamespaced → ∀ j, ∀ n ∈ (c.scope j).names, n = nspace) :
    (c.withScope i ⟨some nspace, none, namespaceId, true, scopeSeq⟩
      (cfg.userDocId nspace sess.externalId)).Sound cfg := by
  refine h.withScope i (fun _ => ⟨nspace, sess, rfl, hsession, rfl⟩) ?_ ?_ (fun _ _ => rfl)
  · intro hready
    obtain ⟨n, sess', hn, hs, hu⟩ := h.right _ hready
    rw [hsession] at hs
    cases hs
    rw [hu]
    unfold ScopeConfig.userDocId
    cases hns : cfg.usersNamespaced with
    | false => rfl
    | true => rw [hnames hns (!i) n (mem_names.mpr (.inl hn))]
  · intro hns m hm j n hn
    have hm : m = nspace := by simpa [names] using hm
    rw [hm]
    cases mem_append.mp hn with
    | inl hn => simpa [names, eq_comm] using hn
    | inr hn => exact (hnames hns j n hn).symm

lemma Asked.withScope (h : c.Asked r) (i : Bool) {sc : ScopeState} {uid : DocId}
    (hseq : (c.scope i).scopeSeq < sc.scopeSeq ∨
      sc.scopeSeq = (c.scope i).scopeSeq ∧ sc.pendingNspace = none) : (c.withScope i sc uid).Asked r where
  user := by rw [session_withScope, h.user]
  begun := by
    have hbegun := h.begun
    obtain he | he := eq_or_eq_not i r.isPresence
    · rw [he] at hbegun ⊢
      rw [scope_withScope]
      omega
    · rw [he] at hbegun ⊢
      rwa [scope_withScope_not]
  pending := by
    have hbegun := h.begun
    have hpending := h.pending
    obtain he | he := eq_or_eq_not i r.isPresence
    · rw [he] at hbegun hpending ⊢
      rw [scope_withScope]
      intro hr nspace hn
      obtain hlt | ⟨_, hnone⟩ := hseq
      · omega
      · rw [hnone] at hn
        cases hn
    · rw [he] at hpending ⊢
      rwa [scope_withScope_not]

end Connection

namespace Server

/-- What holds between any two events. -/
structure Sound (cfg : ScopeConfig Claims) (st : Server Claims) : Prop where
  sound : ∀ connId c, st.map connId = some c → c.Sound cfg
  asked : ∀ r ∈ st.resolutions, ∀ c, st.map r.connId = some c → c.opening = r.opening → c.Asked r
  opened : ∀ connId c, st.map connId = some c → c.opening < st.opened
  requested : ∀ r ∈ st.resolutions, r.opening < st.opened
  uses : ∀ use ∈ st.uses, use.RightUser cfg

variable {st : Server Claims} {connId : ℕ} {c c' : Connection Claims}

lemma Sound.log (h : st.Sound cfg) {use : Use} (huse : use.RightUser cfg) : (st.log use).Sound cfg where
  sound := h.sound
  asked := h.asked
  opened := h.opened
  requested := h.requested
  uses := forall_mem_append.mpr ⟨h.uses, forall_mem_singleton.mpr huse⟩

lemma Sound.put (h : st.Sound cfg) (hc : st.map connId = some c) (hsound : c'.Sound cfg)
    (hopening : c'.opening = c.opening) (hasked : ∀ r, c.Asked r → c'.Asked r) :
    (st.put connId c').Sound cfg where
  sound := by
    intro id d hd
    change update st.map connId (some c') id = some d at hd
    by_cases he : id = connId
    · rw [he, update_self, Option.some.injEq] at hd
      exact hd ▸ hsound
    · rw [update_of_ne he] at hd
      exact h.sound id d hd
  asked := by
    intro r hr d hd ho
    change update st.map connId (some c') r.connId = some d at hd
    by_cases he : r.connId = connId
    · rw [he, update_self, Option.some.injEq] at hd
      subst hd
      exact hasked r (h.asked r hr c (he ▸ hc) (hopening ▸ ho))
    · rw [update_of_ne he] at hd
      exact h.asked r hr d hd ho
  opened := by
    intro id d hd
    change update st.map connId (some c') id = some d at hd
    by_cases he : id = connId
    · rw [he, update_self, Option.some.injEq] at hd
      rw [← hd, hopening]
      exact h.opened connId c hc
    · rw [update_of_ne he] at hd
      exact h.opened id d hd
  requested := h.requested
  uses := h.uses

lemma Sound.forget (h : st.Sound cfg) {rs : List ResolveScopeRequest} (hrs : rs ⊆ st.resolutions) :
    ({ st with resolutions := rs } : Server Claims).Sound cfg where
  sound := h.sound
  asked := fun r hr => h.asked r (hrs hr)
  opened := h.opened
  requested := fun r hr => h.requested r (hrs hr)
  uses := h.uses

lemma Sound.ask (h : st.Sound cfg) (hc : st.map connId = some c) {r : ResolveScopeRequest}
    (hid : r.connId = connId) (hopening : r.opening = c.opening) (hasked : c.Asked r) :
    ({ st with resolutions := st.resolutions ++ [r] } : Server Claims).Sound cfg where
  sound := h.sound
  asked := by
    refine forall_mem_append.mpr ⟨h.asked, forall_mem_singleton.mpr fun d hd _ => ?_⟩
    change st.map r.connId = some d at hd
    rw [hid, hc, Option.some.injEq] at hd
    exact hd ▸ hasked
  opened := h.opened
  requested := forall_mem_append.mpr ⟨h.requested,
    forall_mem_singleton.mpr (hopening ▸ h.opened connId c hc)⟩
  uses := h.uses

lemma Sound.removeAllForConnection (h : st.Sound cfg) (hc : st.map connId = some c) :
    (st.removeAllForConnection connId c).Sound cfg := by
  unfold Server.removeAllForConnection
  split_ifs with hpresent
  · exact h.log ((h.sound connId c hc).right true ((h.sound connId c hc).present hpresent)).use
  · exact h

lemma map_removeAllForConnection : (st.removeAllForConnection connId c).map = st.map := by
  unfold removeAllForConnection
  split_ifs
  · rfl
  · rfl

/-- Session resolution answers with the id of the user, a connection is not given the resolution of
an earlier one, and a store scope that presence is ready beside is installed at once or stays. -/
def Undisturbed (cfg : ScopeConfig Claims) (st : Server Claims) : ServerEvent Claims → Prop
  | .setNamespace connId isPresence nspace cache => ∀ c sess, st.map connId = some c →
      c.session = some sess → c.rejectsNamespaceSwitch cfg nspace = false →
      (∀ scope, cache = .hit scope → scope.userDocId = cfg.userDocId nspace sess.externalId) ∧
      (isPresence = false → c.presence.ready → ∃ scope, cache = .hit scope ∧
        cfg.authorizeNamespace nspace scope.userDocId sess false)
  | .complete i answer => ∀ r c sess nspace scope, st.resolutions[i]? = some r →
      st.map r.connId = some c → c.session = some sess → answer = some scope →
      c.pendingNamespaceIfSeq r.scopeSeq r.isPresence = some nspace →
      c.opening = r.opening ∧ scope.userDocId = cfg.userDocId r.nspace r.externalUserId ∧
      (r.isPresence = false → c.presence.ready →
        cfg.authorizeNamespace nspace scope.userDocId sess false)
  | _ => True

lemma Sound.reset (h : st.Sound cfg) (hc : st.map connId = some c) (i : Bool)
    (hkeep : i = false → c.presence.ready = false) : (st.put connId (c.resetScope i)).Sound cfg :=
  h.put hc ((h.sound connId c hc).resetScope i hkeep) (opening_withScope ..)
    fun _ hr => hr.withScope i (.inl (Nat.lt_succ_self _))

lemma setSession_sound (sess : Session Claims) (c : Connection Claims) (opening : ℕ) :
    ({ c.setSession sess with opening } : Connection Claims).Sound cfg where
  identified := rfl
  right := by
    intro i hi
    cases i <;> cases hi
  settled := by
    intro _ i j m hm
    cases i <;> cases hm
  present := fun hp => absurd rfl hp

lemma Sound.onOpen (h : st.Sound cfg) (sess : Session Claims) (slot : ℕ) :
    (st.onOpen connId sess slot).Sound cfg := by
  unfold Server.onOpen
  split_ifs
  · exact h
  · dsimp only
    refine ⟨?_, ?_, ?_, fun r hr => Nat.lt_succ_of_lt (h.requested r hr), h.uses⟩
    · intro id d hd
      change update st.map connId _ id = some d at hd
      by_cases he : id = connId
      · rw [he, update_self, Option.some.injEq] at hd
        exact hd ▸ setSession_sound sess _ st.opened
      · rw [update_of_ne he] at hd
        exact h.sound id d hd
    · -- nobody has asked for the new connection yet
      intro r hr d hd ho
      change update st.map connId _ r.connId = some d at hd
      by_cases he : r.connId = connId
      · rw [he, update_self, Option.some.injEq] at hd
        have hlt := h.requested r hr
        rw [← ho, ← hd] at hlt
        exact absurd hlt (Nat.lt_irrefl st.opened)
      · rw [update_of_ne he] at hd
        exact h.asked r hr d hd ho
    · intro id d hd
      change update st.map connId _ id = some d at hd
      by_cases he : id = connId
      · rw [he, update_self, Option.some.injEq] at hd
        rw [← hd]
        exact Nat.lt_succ_self st.opened
      · rw [update_of_ne he] at hd
        exact Nat.lt_succ_of_lt (h.opened id d hd)

lemma Asked.begin {r : ResolveScopeRequest} (h : c.Asked r) (i : Bool) (nspace : Bytes) :
    (c.beginScopeResolution i nspace).Asked r :=
  h.withScope i (.inl (Nat.lt_succ_self _))

lemma Sound.begin (h : st.Sound cfg) (hc : st.map connId = some c) {i : Bool}
    (haccepted : c.rejectsNamespaceSwitch cfg nspace = false)
    (hkeep : i = false → c.presence.ready = false) :
    (st.put connId (c.beginScopeResolution i nspace)).Sound cfg ∧
      (st.put connId ((c.beginScopeResolution i nspace).resetScope i)).Sound cfg := by
  have hbegun := (h.sound connId c hc).beginScopeResolution i haccepted hkeep
  have hopening : (c.beginScopeResolution i nspace).opening = c.opening :=
    opening_withScope ..
  refine ⟨h.put hc hbegun hopening fun r hr => Asked.begin hr i nspace, ?_⟩
  refine h.put hc (hbegun.resetScope i ?_) ((opening_withScope ..).trans hopening)
    fun r hr => (Asked.begin hr i nspace).withScope i (.inl (Nat.lt_succ_self _))
  rintro rfl
  exact hkeep rfl

lemma Sound.handleSetNamespace (h : st.Sound cfg) {i : Bool}
    {cache : CacheAnswer} (hcond : st.Undisturbed cfg (.setNamespace connId i nspace cache)) :
    (st.handleSetNamespace cfg connId i nspace cache).Sound cfg := by
  unfold Server.handleSetNamespace
  cases hc : st.map connId with
  | none => exact h
  | some c =>
    dsimp only
    cases haccepted : c.rejectsNamespaceSwitch cfg nspace with
    | true => exact h
    | false =>
      rw [if_neg Bool.false_ne_true]
      cases hsession : c.session with
      | none => exact h
      | some sess =>
        obtain ⟨hanswer, hready⟩ := hcond c sess hc hsession haccepted
        have hleft : (if i then st.removeAllForConnection connId c else st).Sound cfg := by
          split_ifs
          · exact h.removeAllForConnection hc
          · exact h
        have hc' : (if i then st.removeAllForConnection connId c else st).map connId = some c := by
          split_ifs
          · rw [map_removeAllForConnection, hc]
          · exact hc
        have hkeep : (∀ scope, cache = .hit scope →
            cfg.authorizeNamespace nspace scope.userDocId sess i = false) →
            i = false → c.presence.ready = false := by
          rintro hrefused rfl
          by_contra hp
          obtain ⟨scope, hhit, hauthorized⟩ := hready rfl (Bool.eq_true_of_not_eq_false hp)
          rw [hrefused scope hhit] at hauthorized
          cases hauthorized
        dsimp only
        rw [resetScopeIfSeq_self]
        generalize (if i then st.removeAllForConnection connId c else st) = left at hleft hc' ⊢
        cases cache with
        | failed => exact (hleft.begin hc' haccepted (hkeep fun _ hhit => by cases hhit)).2
        | miss =>
          have hbegun := (hleft.begin hc' haccepted (hkeep fun _ hhit => by cases hhit)).1
          refine hbegun.ask (update_self ..) rfl (opening_withScope ..).symm ?_
          refine ⟨?_, le_rfl, fun _ n hn => ?_⟩
          · rw [beginScopeResolution, session_withScope, hsession]
            rfl
          · rw [beginScopeResolution, scope_withScope] at hn
            exact (Option.some.inj hn).symm
        | hit scope =>
          dsimp only
          rw [setScopeIfSeq_self]
          cases hauthorized : cfg.authorizeNamespace nspace scope.userDocId sess i with
          | false =>
            rw [if_neg Bool.false_ne_true]
            refine (hleft.begin hc' haccepted (hkeep fun scope' hhit => ?_)).2
            cases hhit
            exact hauthorized
          | true =>
            rw [if_pos rfl, beginScopeResolution, withScope_withScope,
              scope_withScope, hanswer scope rfl]
            exact hleft.put hc' ((hleft.sound connId c hc').install i hsession fun hns j n hn =>
                (hleft.sound connId c hc').names_eq haccepted hns hn)
              (opening_withScope ..)
              fun r hr => hr.withScope i (.inl (Nat.lt_succ_self _))

lemma Sound.processResolution (h : st.Sound cfg) {i : ℕ} {r : ResolveScopeRequest}
    {answer : Option Scope} (hr : st.resolutions[i]? = some r)
    (hcond : st.Undisturbed cfg (.complete i answer)) :
    (({ st with resolutions := st.resolutions.eraseIdx i } :
      Server Claims).processResolution cfg r answer).Sound cfg := by
  have hleft := h.forget (eraseIdx_sublist st.resolutions i).subset
  have hmap : ({ st with resolutions := st.resolutions.eraseIdx i } : Server Claims).map = st.map :=
    rfl
  generalize ({ st with resolutions := st.resolutions.eraseIdx i } : Server Claims) = left
    at hleft hmap ⊢
  unfold Server.processResolution
  cases hc : left.map r.connId with
  | none => exact hleft
  | some c =>
    have hc' : st.map r.connId = some c := hmap ▸ hc
    cases answer with
    | none => exact hleft
    | some scope =>
      dsimp only
      cases hpending : c.pendingNamespaceIfSeq r.scopeSeq r.isPresence with
      | none => exact hleft
      | some nspace =>
        obtain ⟨hseq, hwaiting⟩ := pendingNamespaceIfSeq_eq_some.mp hpending
        dsimp only
        rw [hseq, resetScopeIfSeq_self, setScopeIfSeq_self]
        cases hsession : c.session with
        | none =>
          have hidentified := (h.sound _ c hc').identified
          rw [hsession] at hidentified
          cases hidentified
        | some sess =>
          obtain ⟨hopening, huser, hready⟩ :=
            hcond r c sess nspace scope hr hc' hsession rfl hpending
          have hasked := h.asked r (mem_of_getElem? hr) c hc' hopening
          dsimp only
          cases hauthorized : cfg.authorizeNamespace nspace scope.userDocId sess r.isPresence with
          | false =>
            rw [if_neg Bool.false_ne_true]
            refine hleft.reset hc r.isPresence fun hi => ?_
            by_contra hp
            have hallowed := hready hi (Bool.eq_true_of_not_eq_false hp)
            rw [← hi, hauthorized] at hallowed
            cases hallowed
          | true =>
            have hnspace : nspace = r.nspace := hasked.pending hseq nspace hwaiting
            have hexternal : sess.externalId = r.externalUserId := by
              have huser := hasked.user
              rw [hsession] at huser
              exact Option.some.inj huser
            have hinstall : (c.scope r.isPresence).install scope.namespaceId =
                ⟨some nspace, none, scope.namespaceId, true, (c.scope r.isPresence).scopeSeq⟩ := by
              rw [install, hwaiting]
            rw [if_pos rfl, hinstall, huser, ← hnspace, ← hexternal]
            refine hleft.put hc ((h.sound _ c hc').install r.isPresence hsession fun hns j n hn => ?_)
              (opening_withScope ..)
              fun r' hr' => hr'.withScope r.isPresence (.inr ⟨rfl, rfl⟩)
            exact (h.sound _ c hc').settled hns j r.isPresence n hn nspace
              (mem_names.mpr (.inr hwaiting))

lemma Sound.handleAuthRefresh (h : st.Sound cfg) (subject : Bytes) (claims : Claims) :
    (st.handleAuthRefresh connId subject claims).Sound cfg := by
  unfold Server.handleAuthRefresh
  cases hc : st.map connId with
  | none => exact h
  | some c =>
    dsimp only
    split_ifs
    · have hsound := h.sound connId c hc
      have hexternal : (c.updateSessionClaims claims).session.map Session.externalId =
          c.session.map Session.externalId := by
        cases hs : c.session with
        | none => simp [updateSessionClaims, hs]
        | some sess => simp [updateSessionClaims, hs]
      refine h.put hc ⟨?_, fun i hi => ?_, hsound.settled, hsound.present⟩ rfl
        fun r hr => ⟨hexternal.trans hr.user, hr.begun, hr.pending⟩
      · rw [updateSessionClaims, Option.isSome_map]
        exact hsound.identified
      · obtain ⟨nspace, sess, hn, hs, hu⟩ := hsound.right i hi
        exact ⟨nspace, { sess with claims }, hn, by simp [updateSessionClaims, hs], hu⟩
    · exact h

lemma Sound.handleWrite (h : st.Sound cfg) (isPresence : Bool) :
    (st.handleWrite connId isPresence).Sound cfg := by
  unfold Server.handleWrite
  cases hc : st.map connId with
  | none => exact h
  | some c =>
    dsimp only
    unfold requireCtx
    dsimp only
    split_ifs with hready
    · exact h.log ((h.sound connId c hc).right isPresence hready.1).use
    · exact h

lemma Sound.teardownSession (h : st.Sound cfg) : (st.teardownSession connId).Sound cfg := by
  unfold Server.teardownSession
  cases hc : st.map connId with
  | none => exact h
  | some c =>
    have hleft := h.removeAllForConnection hc
    have hopen : ∀ id d, update st.map connId none id = some d →
        (st.removeAllForConnection connId c).map id = some d := by
      intro id d hd
      rw [map_removeAllForConnection]
      by_cases he : id = connId
      · rw [he, update_self] at hd
        cases hd
      · rwa [update_of_ne he] at hd
    exact ⟨fun id d hd => hleft.sound id d (hopen id d hd),
      fun r hr d hd => hleft.asked r hr d (hopen r.connId d hd),
      fun id d hd => hleft.opened id d (hopen id d hd), hleft.requested, hleft.uses⟩

lemma Sound.step (h : st.Sound cfg) {ev : ServerEvent Claims} (hcond : st.Undisturbed cfg ev) :
    (st.step cfg ev).Sound cfg := by
  cases ev with
  | «open» connId sess slot => exact h.onOpen sess slot
  | setNamespace connId isPresence nspace cache => exact h.handleSetNamespace hcond
  | complete i answer =>
    unfold Server.step
    dsimp only
    cases hr : st.resolutions[i]? with
    | none => exact h
    | some r => exact h.processResolution hr hcond
  | authRefresh connId subject claims => exact h.handleAuthRefresh subject claims
  | write connId isPresence => exact h.handleWrite isPresence
  | close connId => exact h.teardownSession

lemma Sound.init : ({} : Server Claims).Sound cfg where
  sound := fun _ _ hc => by cases hc
  asked := fun _ hr => by cases hr
  opened := fun _ _ hc => by cases hc
  requested := fun _ hr => by cases hr
  uses := fun _ hu => by cases hu

end Server

/-- In every run in which no reset of the store scope outlasts its step while presence is ready, and
session resolution answers every connection with the id of its own user, a ready connection has the
id of its user, and every write and every removal of presence is made under that id. -/
theorem user_doc_id_kept (cfg : ScopeConfig Claims) (events : List (ServerEvent Claims))
    (h : Along (step cfg) (Undisturbed cfg) {} events) :
    let st := events.foldl (step cfg) {}
    (∀ connId c, st.map connId = some c → c.RightUser cfg) ∧ ∀ use ∈ st.uses, use.RightUser cfg := by
  intro st
  have hsound : st.Sound cfg := h.invariant (fun _ _ hs hcond => hs.step hcond) .init
  exact ⟨fun connId c hc => (hsound.sound connId c hc).right, hsound.uses⟩

namespace UserIdExample

/-- One user, with the id 7 everywhere, who may enter every namespace. -/
def oneUser : ScopeConfig Unit where
  usersNamespaced := false
  userId _ _ := 7
  authorizeNamespace _ _ _ _ := true

/-- The client is present in a namespace. -/
def joinPresence : List (ServerEvent Unit) :=
  [.open 1 ⟨[117], ()⟩ 0, .setNamespace 1 true [112] .miss, .complete 0 (some ⟨4, 7⟩)]

/-- It asks for a store namespace that the caches do not know, sets its presence meanwhile, and
leaves. -/
def switchStore : List (ServerEvent Unit) :=
  joinPresence ++ [.setNamespace 1 false [115] .miss, .write 1 true, .close 1]

lemma zero_not_user (nspace externalId : Bytes) : oneUser.userDocId nspace externalId ≠ 0 := by
  change (7 : DocId) ≠ 0
  decide

/-- With a ready presence scope the id is zero: the presence is set, and at the end removed, for a
user that is not the client's. -/
theorem presence_under_zero :
    (∃ c, ((switchStore.take 4).foldl (step oneUser) {}).map 1 = some c ∧
      c.presence.ready ∧ c.userDocId = 0 ∧ ¬ c.RightUser oneUser) ∧
    (switchStore.foldl (step oneUser) {}).uses =
      [⟨1, true, 4, 0, some [112], some [117]⟩, ⟨1, true, 4, 0, some [112], some [117]⟩] ∧
    ¬ ∀ use ∈ (switchStore.foldl (step oneUser) {}).uses, use.RightUser oneUser := by
  have huses : (switchStore.foldl (step oneUser) {}).uses =
      [⟨1, true, 4, 0, some [112], some [117]⟩, ⟨1, true, 4, 0, some [112], some [117]⟩] := rfl
  refine ⟨⟨_, rfl, rfl, rfl, fun h => ?_⟩, huses, fun h => ?_⟩
  · obtain ⟨nspace, sess, _, _, hu⟩ := h true rfl
    exact zero_not_user nspace sess.externalId hu.symm
  · rw [huses] at h
    obtain ⟨nspace, externalId, _, _, hu⟩ := h _ (List.mem_cons_self ..)
    exact zero_not_user nspace externalId hu.symm

theorem user_doc_id_kept_joinPresence :
    let st := joinPresence.foldl (step oneUser) {}
    (∀ connId c, st.map connId = some c → c.RightUser oneUser) ∧ ∀ use ∈ st.uses, use.RightUser oneUser := by
  refine user_doc_id_kept oneUser joinPresence ⟨trivial, ?_, ?_, trivial⟩
  · intro c sess hc hs haccepted
    exact ⟨fun scope hhit => (nomatch hhit), fun hi => (nomatch hi)⟩
  · intro r c sess nspace scope hr hc hs hanswer hpending
    cases hr
    cases hc
    cases hanswer
    exact ⟨rfl, rfl, fun hi => nomatch hi⟩

end UserIdExample
end ZyncBase
