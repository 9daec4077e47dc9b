import ZyncBase.Connection.Openings

/-! Session resolutions and the requests they belong to: a scope waits for the resolution of its latest
request, and for no other, unless a connection takes the id of one that was closed. -/
namespace ZyncBase

open Function List Machine Connection Server

variable {Claims : Type} {cfg : ScopeConfig Claims}

variable {nspace : Bytes} {r : ResolveScopeRequest}

namespace Server

variable {st : Server Claims} {connId : ℕ} {c : Connection Claims}

def begins (cfg : ScopeConfig Claims) (connId : ℕ) (nspace : Bytes) (st : Server Claims) :
    Option (Connection Claims) :=
  (st.map connId).filter fun c => !c.rejectsNamespaceSwitch cfg nspace && c.session.isSome

lemma begins_eq_some : st.begins cfg connId nspace = some c ↔
    st.map connId = some c ∧ c.rejectsNamespaceSwitch cfg nspace = false ∧ c.session.isSome := by
  rw [begins, Option.filter_eq_some_iff]
  simp

/-- A scope after a request: it has moved on, and a resolution that is asked for carries its number. -/
structure Begun (st st' : Server Claims) (connId : ℕ) (i : Bool) (nspace : Bytes)
    (c c' : Connection Claims) : Prop where
  map : st'.map = Function.update st.map connId (some c')
  opened : st'.opened = st.opened
  opening : c'.opening = c.opening
  other : c'.scope (!i) = c.scope (!i)
  later : (c.scope i).scopeSeq < (c'.scope i).scopeSeq
  asked : st'.resolutions = st.resolutions ∨ ∃ externalUserId,
    (c'.scope i).pendingNspace = some nspace ∧ st'.resolutions = st.resolutions ++
      [⟨connId, (c'.scope i).scopeSeq, nspace, externalUserId, i, c.opening⟩]

lemma removeAllForConnection_frame (st : Server Claims) (connId : ℕ) (c : Connection Claims) :
    (st.removeAllForConnection connId c).map = st.map ∧
      (st.removeAllForConnection connId c).opened = st.opened ∧
      (st.removeAllForConnection connId c).resolutions = st.resolutions := by
  unfold removeAllForConnection
  split_ifs <;> exact ⟨rfl, rfl, rfl⟩

lemma begun_handleSetNamespace {i : Bool} (cache : CacheAnswer)
    (h : st.begins cfg connId nspace = some c) : ∃ c',
      Begun st (st.handleSetNamespace cfg connId i nspace cache) connId i nspace c c' := by
  obtain ⟨hc, haccepted, hsession⟩ := begins_eq_some.mp h
  obtain ⟨sess, hsess⟩ := Option.isSome_iff_exists.mp hsession
  unfold handleSetNamespace
  rw [hc]
  dsimp only
  rw [haccepted, if_neg Bool.false_ne_true, hsess]
  dsimp only
  have hleft : (if i then st.removeAllForConnection connId c else st).map = st.map ∧
      (if i then st.removeAllForConnection connId c else st).opened = st.opened ∧
      (if i then st.removeAllForConnection connId c else st).resolutions = st.resolutions := by
    split_ifs
    · exact st.removeAllForConnection_frame connId c
    · exact ⟨rfl, rfl, rfl⟩
  generalize (if i then st.removeAllForConnection connId c else st) = left at hleft ⊢
  obtain ⟨hmap, hopened, hresolutions⟩ := hleft
  -- Whatever the connection becomes, only this scope has changed, and it has moved on.
  have hput (sc : ScopeState) (uid : DocId) (hlater : (c.scope i).scopeSeq < sc.scopeSeq) :
      Begun st (left.put connId (c.withScope i sc uid)) connId i nspace c (c.withScope i sc uid) := by
    refine ⟨?_, hopened, opening_withScope .., scope_withScope_not ..,
      by rwa [scope_withScope], .inl hresolutions⟩
    rw [← hmap]
    rfl
  have hreset := hput (((c.scope i).begin nspace).reset) (if i then c.userDocId else 0)
    (by simp only [ScopeState.begin, ScopeState.reset]; omega)
  have hbegun : (c.beginScopeResolution i nspace).resetScope i =
      c.withScope i (((c.scope i).begin nspace).reset) (if i then c.userDocId else 0) := by
    cases i <;> rfl
  rw [resetScopeIfSeq_self, hbegun]
  cases cache with
  | failed => exact ⟨_, hreset⟩
  | miss =>
    refine ⟨c.beginScopeResolution i nspace, ?_⟩
    obtain ⟨hmap', hopened', hopening, hother, hlater, -⟩ :=
      hput ((c.scope i).begin nspace) (if i then c.userDocId else 0) (Nat.lt_succ_self _)
    refine ⟨hmap', hopened', hopening, hother, hlater, .inr ⟨sess.externalId, ?_, ?_⟩⟩
    · rw [beginScopeResolution, scope_withScope]
      rfl
    · dsimp only
      rw [hresolutions]
  | hit scope =>
    dsimp only
    rw [setScopeIfSeq_self]
    by_cases hauthorized : cfg.authorizeNamespace nspace scope.userDocId sess i
    · rw [if_pos hauthorized, beginScopeResolution, withScope_withScope,
        scope_withScope]
      exact ⟨_, hput _ _ (Nat.lt_succ_self _)⟩
    · rw [if_neg hauthorized]
      exact ⟨_, hreset⟩

lemma handleSetNamespace_of_begins_none {i : Bool} (cache : CacheAnswer)
    (h : st.begins cfg connId nspace = none) : st.handleSetNamespace cfg connId i nspace cache = st := by
  unfold handleSetNamespace
  cases hc : st.map connId with
  | none => rfl
  | some c =>
    dsimp only
    cases haccepted : c.rejectsNamespaceSwitch cfg nspace with
    | true => rfl
    | false =>
      rw [if_neg Bool.false_ne_true]
      cases hsess : c.session with
      | none => rfl
      | some sess =>
        have hbegins := begins_eq_some.mpr ⟨hc, haccepted, by rw [hsess]; rfl⟩
        rw [h] at hbegins
        cases hbegins

/-- The scope that waits for the resolution is installed, or reset. -/
structure Answered (st st' : Server Claims) (r : ResolveScopeRequest) (scope : Scope)
    (c c' : Connection Claims) : Prop where
  map : st'.map = Function.update st.map r.connId (some c')
  opening : c'.opening = c.opening
  other : c'.scope (!r.isPresence) = c.scope (!r.isPresence)
  moved : c'.scope r.isPresence = (c.scope r.isPresence).reset ∨
    c'.scope r.isPresence = (c.scope r.isPresence).install scope.namespaceId

lemma answered_processResolution (cfg : ScopeConfig Claims) (scope : Scope) (hc : st.map r.connId = some c)
    (hp : c.pendingNamespaceIfSeq r.scopeSeq r.isPresence = some nspace) :
    ∃ c', Answered st (st.processResolution cfg r (some scope)) r scope c c' := by
  obtain ⟨hseq, -⟩ := pendingNamespaceIfSeq_eq_some.mp hp
  have hreset : Answered st (st.put r.connId (c.resetScope r.isPresence)) r scope c
      (c.resetScope r.isPresence) :=
    ⟨rfl, opening_withScope .., scope_withScope_not ..,
      .inl (scope_withScope ..)⟩
  unfold processResolution
  rw [hc]
  dsimp only
  rw [hp, hseq, resetScopeIfSeq_self, setScopeIfSeq_self]
  dsimp only
  cases c.session with
  | none => exact ⟨_, hreset⟩
  | some sess =>
    dsimp only
    by_cases hauthorized : cfg.authorizeNamespace nspace scope.userDocId sess r.isPresence
    · rw [if_pos hauthorized]
      exact ⟨_, rfl, opening_withScope .., scope_withScope_not ..,
        .inr (scope_withScope ..)⟩
    · rw [if_neg hauthorized]
      exact ⟨_, hreset⟩

lemma processResolution_eq_self {answer : Option Scope}
    (h : ∀ c scope nspace, st.map r.connId = some c → answer = some scope →
      c.pendingNamespaceIfSeq r.scopeSeq r.isPresence ≠ some nspace) :
    st.processResolution cfg r answer = st := by
  unfold processResolution
  cases hc : st.map r.connId with
  | none => rfl
  | some c =>
    cases answer with
    | none => rfl
    | some scope =>
      dsimp only
      cases hp : c.pendingNamespaceIfSeq r.scopeSeq r.isPresence with
      | none => rfl
      | some nspace => exact absurd hp (h c scope nspace hc rfl)

lemma processResolution_frame (cfg : ScopeConfig Claims) (st : Server Claims)
    (r : ResolveScopeRequest) (answer : Option Scope) :
    (st.processResolution cfg r answer).opened = st.opened ∧
      (st.processResolution cfg r answer).resolutions = st.resolutions := by
  unfold processResolution
  cases st.map r.connId with
  | none => exact ⟨rfl, rfl⟩
  | some c =>
    cases answer with
    | none => exact ⟨rfl, rfl⟩
    | some scope =>
      dsimp only
      cases c.pendingNamespaceIfSeq r.scopeSeq r.isPresence with
      | none => exact ⟨rfl, rfl⟩
      | some nspace =>
        cases c.session with
        | none => exact ⟨rfl, rfl⟩
        | some sess =>
          dsimp only
          split_ifs
          · cases c.setScopeIfSeq r.scopeSeq scope r.isPresence <;> exact ⟨rfl, rfl⟩
          · exact ⟨rfl, rfl⟩

end Server

/-- The server beside the requests that it has been sent: how many, which is the latest one of each scope
of a connection, and to which one each resolution belongs. -/
structure NumberedServer (Claims : Type) where
  server : Server Claims := {}
  count : ℕ := 0
  latest : ℕ → Bool → Option ℕ := fun _ _ => none
  asked : List (ResolveScopeRequest × ℕ) := []

/-- The connection is in the scope that a resolution found. -/
structure Connection.Entered (isPresence : Bool) (nspace : Bytes) (scope : Scope)
    (c : Connection Claims) : Prop where
  ready : (c.scope isPresence).ready
  nspace : (c.scope isPresence).nspace = some nspace
  namespaceId : (c.scope isPresence).namespaceId = scope.namespaceId
  user : c.userDocId = scope.userDocId

namespace NumberedServer

/-- Requests that are not refused are counted. -/
def step (cfg : ScopeConfig Claims) (t : NumberedServer Claims) (ev : ServerEvent Claims) :
    NumberedServer Claims :=
  let server := t.server.step cfg ev
  match ev with
  | .setNamespace connId isPresence nspace _ =>
    match t.server.begins cfg connId nspace with
    | none => { t with server }
    | some c =>
      { server
        count := t.count + 1
        latest := Function.update t.latest c.opening
          (Function.update (t.latest c.opening) isPresence (some t.count))
        asked := t.asked ++
          (server.resolutions.drop t.server.resolutions.length).map fun r => (r, t.count) }
  | .complete i _ => { t with server, asked := t.asked.eraseIdx i }
  | _ => { t with server }

/-- The connection that asked is still open, and has not sent another request for the scope. -/
def Current (t : NumberedServer Claims) (r : ResolveScopeRequest) (n : ℕ) : Prop :=
  (t.server.openings r.connId = some r.opening) ∧ t.latest r.opening r.isPresence = some n

/-- Resolutions of superseded requests leave all connections as they are, and one of the latest request
that succeeds puts the connection into its scope. -/
def InstallsLatest (cfg : ScopeConfig Claims) (t : NumberedServer Claims) : ServerEvent Claims → Prop
  | .complete i answer => ∀ r n, t.asked[i]? = some (r, n) →
    (¬ t.Current r n → (t.step cfg (.complete i answer)).server.map = t.server.map) ∧
    (t.Current r n → ∀ c sess scope, t.server.map r.connId = some c → c.session = some sess →
      answer = some scope →
      cfg.authorizeNamespace r.nspace scope.userDocId sess r.isPresence = true →
      ∃ c', (t.step cfg (.complete i answer)).server.map r.connId = some c' ∧
        c'.Entered r.isPresence r.nspace scope)
  | _ => True

/-- A resolution for which a scope waits has been asked for by this connection, not by an earlier one
of the same id. -/
def FromItsConnection (t : NumberedServer Claims) : ServerEvent Claims → Prop
  | .complete i answer => ∀ r c scope nspace, t.server.resolutions[i]? = some r →
    t.server.map r.connId = some c → answer = some scope →
    c.pendingNamespaceIfSeq r.scopeSeq r.isPresence = some nspace → c.opening = r.opening
  | _ => True

/-- What a scope says of a resolution that its connection asked for: it is the latest one exactly while
its number is the scope's, and then the scope waits for its namespace. -/
structure Awaits (c : Connection Claims) (latest : Option ℕ) (r : ResolveScopeRequest) (n : ℕ) :
    Prop where
  begun : r.scopeSeq ≤ (c.scope r.isPresence).scopeSeq
  current : latest = some n ↔ r.scopeSeq = (c.scope r.isPresence).scopeSeq
  pending : r.scopeSeq = (c.scope r.isPresence).scopeSeq → (c.scope r.isPresence).pendingNspace = some r.nspace

end NumberedServer

open NumberedServer

namespace Server

/-- No two open connections have been opened by the same event. -/
structure Distinct (st : Server Claims) : Prop where
  opened : ∀ connId n, st.openings connId = some n → n < st.opened
  distinct : ∀ connId connId' n, st.openings connId = some n → st.openings connId' = some n → connId = connId'

lemma Distinct.of_same {st st' : Server Claims} (h : st.Distinct) (hs : SameOpenings st st') :
    st'.Distinct where
  opened := by
    rw [hs.1, hs.2]
    exact h.opened
  distinct := by
    rw [hs.1]
    exact h.distinct

lemma Distinct.step (cfg : ScopeConfig Claims) {st : Server Claims} (h : st.Distinct)
    (ev : ServerEvent Claims) : (st.step cfg ev).Distinct := by
  have hstep := openings_step cfg st ev
  cases hopens : st.opens ev with
  | some connId =>
    rw [hopens] at hstep
    obtain ⟨-, hopened, hopenings⟩ := hstep
    have hnew (id n : ℕ) (hid : (st.step cfg ev).openings id = some n) :
        id = connId ∧ n = st.opened ∨ id ≠ connId ∧ st.openings id = some n := by
      rw [hopenings] at hid
      by_cases hc : id = connId
      · subst hc
        rw [update_self, Option.some.injEq] at hid
        exact .inl ⟨rfl, hid.symm⟩
      · rw [update_of_ne hc] at hid
        exact .inr ⟨hc, hid⟩
    refine ⟨fun id n hid => ?_, fun id id' n hid hid' => ?_⟩
    · rw [hopened]
      rcases hnew id n hid with ⟨-, rfl⟩ | ⟨-, hid⟩
      · omega
      · have := h.opened id n hid
        omega
    · rcases hnew id n hid with ⟨rfl, rfl⟩ | ⟨-, hid⟩
      · rcases hnew id' _ hid' with ⟨rfl, -⟩ | ⟨-, hid'⟩
        · rfl
        · exact absurd (h.opened id' _ hid') (lt_irrefl _)
      · rcases hnew id' n hid' with ⟨-, rfl⟩ | ⟨-, hid'⟩
        · exact absurd (h.opened id _ hid) (lt_irrefl _)
        · exact h.distinct id id' n hid hid'
  | none =>
    rw [hopens] at hstep
    cases ev with
    | close connId =>
      obtain ⟨hopened, hopenings⟩ := hstep
      have hold (id n : ℕ) (hid : (st.step cfg (.close connId)).openings id = some n) :
          st.openings id = some n := by
        rw [hopenings] at hid
        by_cases hc : id = connId
        · rw [hc, update_self] at hid
          cases hid
        · rwa [update_of_ne hc] at hid
      refine ⟨fun id n hid => ?_, fun id id' n hid hid' => ?_⟩
      · rw [hopened]
        exact h.opened id n (hold id n hid)
      · exact h.distinct id id' n (hold id n hid) (hold id' n hid')
    | _ => exact h.of_same hstep

end Server

namespace NumberedServer

/-- What holds between any two events. -/
structure Numbered (t : NumberedServer Claims) : Prop where
  distinct : t.server.Distinct
  asks : t.asked.map Prod.fst = t.server.resolutions
  counted : ∀ p ∈ t.asked, p.2 < t.count
  nodup : (t.asked.map Prod.snd).Nodup
  requested : ∀ p ∈ t.asked, p.1.opening < t.server.opened
  awaits : ∀ p ∈ t.asked, ∀ c, t.server.map p.1.connId = some c → c.opening = p.1.opening →
    Awaits c (t.latest p.1.opening p.1.isPresence) p.1 p.2

variable {t : NumberedServer Claims} {connId : ℕ} {c c' : Connection Claims}

lemma Numbered.same_id (h : t.Numbered) {connId' : ℕ} (hc : t.server.map connId = some c)
    (hc' : t.server.map connId' = some c') (ho : c.opening = c'.opening) : connId = connId' := by
  refine h.distinct.distinct connId connId' c.opening ?_ ?_
  · rw [openings, hc]
    rfl
  · rw [openings, hc', ho]
    rfl

lemma Awaits.other {latest : Option ℕ} {n : ℕ}
    (h : Awaits c latest r n) (hscope : c'.scope r.isPresence = c.scope r.isPresence) :
    Awaits c' latest r n where
  begun := by
    rw [hscope]
    exact h.begun
  current := by
    rw [hscope]
    exact h.current
  pending := by
    rw [hscope]
    exact h.pending

lemma Awaits.superseded {latest latest' : Option ℕ} {n : ℕ}
    (h : Awaits c latest r n) (hlatest : latest' ≠ some n)
    (hlater : (c.scope r.isPresence).scopeSeq < (c'.scope r.isPresence).scopeSeq) :
    Awaits c' latest' r n where
  begun := by
    have := h.begun
    omega
  current := by
    have := h.begun
    exact iff_of_false hlatest (by omega)
  pending := by
    intro hseq
    have := h.begun
    omega

lemma Numbered.setNamespace (h : t.Numbered) (isPresence : Bool) (nspace : Bytes)
    (cache : CacheAnswer) : (t.step cfg (.setNamespace connId isPresence nspace cache)).Numbered := by
  have hdistinct := h.distinct.step cfg (.setNamespace connId isPresence nspace cache)
  unfold step
  dsimp only
  cases hbegins : t.server.begins cfg connId nspace with
  | none =>
    have hsame : t.server.step cfg (.setNamespace connId isPresence nspace cache) = t.server :=
      handleSetNamespace_of_begins_none cache hbegins
    dsimp only
    rw [hsame]
    exact h
  | some c =>
    obtain ⟨c', hb⟩ := begun_handleSetNamespace (i := isPresence) cache hbegins
    change Begun t.server
      (t.server.step cfg (.setNamespace connId isPresence nspace cache)) _ _ _ _ _ at hb
    generalize t.server.step cfg (.setNamespace connId isPresence nspace cache) = server
      at hdistinct hb ⊢
    obtain ⟨hc, -, -⟩ := begins_eq_some.mp hbegins
    dsimp only
    -- The scope has moved on, so that the requests before this one are superseded.
    have hold (p : ResolveScopeRequest × ℕ) (hp : p ∈ t.asked) (d : Connection Claims)
        (hd : server.map p.1.connId = some d) (ho : d.opening = p.1.opening) :
        Awaits d (update t.latest c.opening (update (t.latest c.opening)
          isPresence (some t.count)) p.1.opening p.1.isPresence) p.1 p.2 := by
      rw [hb.map] at hd
      by_cases hid : p.1.connId = connId
      · rw [hid, update_self, Option.some.injEq] at hd
        subst hd
        have hopening : c.opening = p.1.opening := hb.opening.symm.trans ho
        have hawaits := h.awaits p hp c (hid ▸ hc) hopening
        rw [hopening, update_self]
        by_cases hi : p.1.isPresence = isPresence
        · rw [hi, update_self]
          have hcount := h.counted p hp
          refine hawaits.superseded ?_ (hi ▸ hb.later)
          rw [Ne, Option.some.injEq]
          omega
        · rw [update_of_ne hi]
          have hi : p.1.isPresence = !isPresence := by
            cases hp : p.1.isPresence <;> cases hq : isPresence <;> simp_all
          exact hawaits.other (hi ▸ hb.other)
      · rw [update_of_ne hid] at hd
        have hne : p.1.opening ≠ c.opening := by
          intro he
          exact hid (h.same_id hd hc (ho.trans he))
        rw [update_of_ne hne]
        exact h.awaits p hp d hd ho
    rcases hb.asked with hsame | ⟨externalUserId, hpending, hasked⟩
    · rw [hsame, drop_length, map_nil, append_nil]
      refine ⟨hdistinct, h.asks.trans hsame.symm, fun p hp => ?_, h.nodup, ?_, hold⟩
      · have := h.counted p hp
        dsimp only
        omega
      · rw [hb.opened]
        exact h.requested
    · rw [hasked, drop_left, map_singleton]
      have hopened := h.distinct.opened connId c.opening (by rw [openings, hc]; rfl)
      refine ⟨hdistinct, ?_, ?_, ?_, ?_, ?_⟩
      · rw [map_append, h.asks, map_singleton, hasked]
      · refine forall_mem_append.mpr ⟨fun p hp => ?_, forall_mem_singleton.mpr ?_⟩
        · exact Nat.lt_succ_of_lt (h.counted p hp)
        · exact Nat.lt_succ_self _
      · rw [map_append, map_singleton, nodup_append]
        refine ⟨h.nodup, nodup_singleton _, ?_⟩
        rintro n hn m hm rfl
        obtain ⟨p, hp, rfl⟩ := mem_map.mp hn
        have hcount := h.counted p hp
        rw [mem_singleton] at hm
        omega
      · rw [hb.opened]
        exact forall_mem_append.mpr ⟨h.requested, forall_mem_singleton.mpr hopened⟩
      · refine forall_mem_append.mpr ⟨hold, forall_mem_singleton.mpr fun d hd _ => ?_⟩
        rw [hb.map, update_self, Option.some.injEq] at hd
        subst hd
        refine ⟨le_rfl, ?_, fun _ => hpending⟩
        dsimp only
        rw [update_self, update_self]
        exact iff_of_true rfl rfl

/-- The resolution of a scope that waits is taken, or the scope is reset: the other resolutions remain
what they were. -/
lemma Awaits.answered {latest : Option ℕ} {r r' : ResolveScopeRequest} {n n' : ℕ} {scope : Scope}
    {st st' : Server Claims} (h : Awaits c latest r n) (h' : Awaits c latest r' n')
    (hseq : r.scopeSeq = (c.scope r.isPresence).scopeSeq) (hne : n ≠ n')
    (hi : r'.isPresence = r.isPresence) (ha : Answered st st' r scope c c') :
    Awaits c' latest r' n' := by
  have hlatest : latest = some n := h.current.mpr hseq
  have hnot : latest ≠ some n' := by
    rw [hlatest, Ne, Option.some.injEq]
    exact hne
  have hbegun := h'.begun
  have hless : r'.scopeSeq ≠ (c.scope r'.isPresence).scopeSeq := fun he => hnot (h'.current.mpr he)
  have hle : (c.scope r'.isPresence).scopeSeq ≤ (c'.scope r'.isPresence).scopeSeq := by
    rw [hi]
    rcases ha.moved with hm | hm
    · rw [hm]
      exact Nat.le_succ _
    · rw [hm]
      exact le_rfl
  refine ⟨by omega, iff_of_false hnot (by omega), fun he => ?_⟩
  omega

lemma Numbered.asked_get (h : t.Numbered) {i : ℕ}
    (hr : t.server.resolutions[i]? = some r) : ∃ n, t.asked[i]? = some (r, n) ∧
      ∀ p ∈ t.asked.eraseIdx i, p ∈ t.asked ∧ p.2 ≠ n := by
  rw [← h.asks, List.getElem?_map, Option.map_eq_some_iff] at hr
  obtain ⟨⟨r', n⟩, hget, rfl⟩ := hr
  refine ⟨n, hget, fun p hp => ⟨mem_of_mem_eraseIdx hp, ?_⟩⟩
  obtain ⟨j, hj, hji, rfl⟩ := mem_eraseIdx_iff_getElem.mp hp
  intro hn
  obtain ⟨hi, hgi⟩ := List.getElem?_eq_some_iff.mp hget
  have hnodup := h.nodup
  have hij : j = i := by
    refine (@List.Nodup.getElem_inj_iff _ _ hnodup j (by simpa using hj) i (by simpa using hi)).mp ?_
    simp [hgi, hn]
  exact hji hij

lemma Numbered.complete (h : t.Numbered) {i : ℕ} {answer : Option Scope}
    (hcond : t.FromItsConnection (.complete i answer)) : (t.step cfg (.complete i answer)).Numbered := by
  have hdistinct := h.distinct.step cfg (.complete i answer)
  have hasks : (t.asked.eraseIdx i).map Prod.fst = t.server.resolutions.eraseIdx i := by
    rw [← h.asks, eraseIdx_map]
  have hsub := eraseIdx_sublist t.asked i
  cases hr : t.server.resolutions[i]? with
  | none =>
    have hlen := congrArg List.length h.asks
    rw [length_map] at hlen
    have hsame : t.asked.eraseIdx i = t.asked := by
      refine eraseIdx_of_length_le ?_
      rw [hlen]
      exact List.getElem?_eq_none_iff.mp hr
    simp only [step, Server.step, hr, hsame]
    exact h
  | some r =>
    obtain ⟨n, hget, hothers⟩ := h.asked_get hr
    simp only [step, Server.step, hr] at hdistinct ⊢
    obtain ⟨hopened, hresolutions⟩ := processResolution_frame cfg
      { t.server with resolutions := t.server.resolutions.eraseIdx i } r answer
    refine ⟨hdistinct, hasks.trans hresolutions.symm, fun p hp => h.counted p (hsub.subset hp),
      h.nodup.sublist (hsub.map _), fun p hp => ?_, fun p hp d hd ho => ?_⟩
    · rw [hopened]
      exact h.requested p (hsub.subset hp)
    · obtain ⟨hmem, hne⟩ := hothers p hp
      by_cases hwaits : ∃ c scope nspace, t.server.map r.connId = some c ∧ answer = some scope ∧
          c.pendingNamespaceIfSeq r.scopeSeq r.isPresence = some nspace
      · obtain ⟨c, scope, nspace, hc, rfl, hpending⟩ := hwaits
        have hc' : ({ t.server with resolutions := t.server.resolutions.eraseIdx i } :
            Server Claims).map r.connId = some c := hc
        obtain ⟨c', ha⟩ := answered_processResolution cfg scope hc' hpending
        rw [ha.map] at hd
        by_cases hid : p.1.connId = r.connId
        · rw [hid, update_self, Option.some.injEq] at hd
          subst hd
          have hopening : c.opening = p.1.opening := ha.opening.symm.trans ho
          have hrn := h.awaits (r, n) (mem_of_getElem? hget) c hc
            (hcond r c scope nspace hr hc rfl hpending)
          have hawaits := h.awaits p hmem c (hid ▸ hc) hopening
          have hro := hcond r c scope nspace hr hc rfl hpending
          by_cases hi : p.1.isPresence = r.isPresence
          · rw [hi, ← hopening, hro] at hawaits ⊢
            exact hrn.answered hawaits (pendingNamespaceIfSeq_eq_some.mp hpending).1 hne.symm hi ha
          · have hi : p.1.isPresence = !r.isPresence := by
              cases hp : p.1.isPresence <;> cases hq : r.isPresence <;> simp_all
            exact hawaits.other (hi ▸ ha.other)
        · rw [update_of_ne hid] at hd
          exact h.awaits p hmem d hd ho
      · rw [processResolution_eq_self] at hd
        · exact h.awaits p hmem d hd ho
        · intro c scope nspace hc hanswer hpending
          exact hwaits ⟨c, scope, nspace, hc, hanswer, hpending⟩

lemma Numbered.unasked (h : t.Numbered) {server : Server Claims} (hdistinct : server.Distinct)
    (hresolutions : server.resolutions = t.server.resolutions) (hopened : t.server.opened ≤ server.opened)
    (hmap : ∀ connId d, server.map connId = some d → d.opening = t.server.opened ∨
      ∃ c, t.server.map connId = some c ∧ d.opening = c.opening ∧ ∀ i, d.scope i = c.scope i) :
    ({ t with server } : NumberedServer Claims).Numbered where
  distinct := hdistinct
  asks := h.asks.trans hresolutions.symm
  counted := h.counted
  nodup := h.nodup
  requested := fun p hp => (h.requested p hp).trans_le hopened
  awaits := by
    intro p hp d hd ho
    have hrequested := h.requested p hp
    obtain hnew | ⟨c, hc, hopening, hscope⟩ := hmap p.1.connId d hd
    · omega
    · exact (h.awaits p hp c hc (hopening.symm.trans ho)).other (hscope _)

lemma Numbered.onOpen (h : t.Numbered) (connId : ℕ) (sess : Session Claims) (slot : ℕ) :
    (t.step cfg (.open connId sess slot)).Numbered := by
  have hdistinct := h.distinct.step cfg (.open connId sess slot)
  refine h.unasked hdistinct ?_ ?_ fun id d hd => ?_
  · simp only [Server.step, Server.onOpen]
    split_ifs
    · rfl
    · rfl
  · simp only [Server.step, Server.onOpen]
    split_ifs
    · rfl
    · exact Nat.le_succ _
  · simp only [Server.step, Server.onOpen] at hd
    split_ifs at hd
    · exact .inr ⟨d, hd, rfl, fun _ => rfl⟩
    · change update t.server.map connId _ id = some d at hd
      by_cases hid : id = connId
      · rw [hid, update_self, Option.some.injEq] at hd
        exact .inl (by rw [← hd])
      · rw [update_of_ne hid] at hd
        exact .inr ⟨d, hd, rfl, fun _ => rfl⟩

lemma Numbered.authRefresh (h : t.Numbered) (connId : ℕ) (subject : Bytes) (claims : Claims) :
    (t.step cfg (.authRefresh connId subject claims)).Numbered := by
  have hdistinct := h.distinct.step cfg (.authRefresh connId subject claims)
  change Distinct (t.server.handleAuthRefresh connId subject claims) at hdistinct
  change Numbered { t with server := t.server.handleAuthRefresh connId subject claims }
  unfold handleAuthRefresh at hdistinct ⊢
  cases hc : t.server.map connId with
  | none => exact h
  | some c =>
    rw [hc] at hdistinct
    dsimp only at hdistinct ⊢
    by_cases hsubject : c.session.map Session.externalId = some subject
    · rw [if_pos hsubject] at hdistinct ⊢
      refine h.unasked hdistinct rfl le_rfl fun id d hd => .inr ?_
      change update t.server.map connId _ id = some d at hd
      by_cases hid : id = connId
      · rw [hid, update_self, Option.some.injEq] at hd
        subst hd
        exact ⟨c, hid ▸ hc, rfl, fun i => by cases i <;> rfl⟩
      · rw [update_of_ne hid] at hd
        exact ⟨d, hd, rfl, fun _ => rfl⟩
    · rw [if_neg hsubject]
      exact h

lemma Numbered.write (h : t.Numbered) (connId : ℕ) (isPresence : Bool) :
    (t.step cfg (.write connId isPresence)).Numbered := by
  have hdistinct := h.distinct.step cfg (.write connId isPresence)
  have hframe : (t.server.handleWrite connId isPresence).map = t.server.map ∧
      (t.server.handleWrite connId isPresence).resolutions = t.server.resolutions ∧
      (t.server.handleWrite connId isPresence).opened = t.server.opened := by
    unfold handleWrite
    cases t.server.map connId with
    | none => exact ⟨rfl, rfl, rfl⟩
    | some c =>
      dsimp only
      cases c.requireCtx isPresence <;> exact ⟨rfl, rfl, rfl⟩
  refine h.unasked hdistinct hframe.2.1 hframe.2.2.ge fun id d hd => .inr ⟨d, ?_, rfl, fun _ => rfl⟩
  rw [← hframe.1]
  exact hd

lemma Numbered.close (h : t.Numbered) (connId : ℕ) : (t.step cfg (.close connId)).Numbered := by
  have hdistinct := h.distinct.step cfg (.close connId)
  change Distinct (t.server.teardownSession connId) at hdistinct
  change Numbered { t with server := t.server.teardownSession connId }
  unfold teardownSession at hdistinct ⊢
  cases hc : t.server.map connId with
  | none => exact h
  | some c =>
    rw [hc] at hdistinct
    obtain ⟨hmap, hopened, hresolutions⟩ := t.server.removeAllForConnection_frame connId c
    refine h.unasked hdistinct hresolutions hopened.ge fun id d hd => .inr ⟨d, ?_, rfl, fun _ => rfl⟩
    change update t.server.map connId none id = some d at hd
    by_cases hid : id = connId
    · rw [hid, update_self] at hd
      cases hd
    · rwa [update_of_ne hid] at hd

lemma Numbered.step (h : t.Numbered) {ev : ServerEvent Claims} (hcond : t.FromItsConnection ev) :
    (t.step cfg ev).Numbered := by
  cases ev with
  | «open» connId sess slot => exact h.onOpen connId sess slot
  | setNamespace connId isPresence nspace cache => exact h.setNamespace isPresence nspace cache
  | complete i answer => exact h.complete hcond
  | authRefresh connId subject claims => exact h.authRefresh connId subject claims
  | write connId isPresence => exact h.write connId isPresence
  | close connId => exact h.close connId

lemma numbered_init : ({} : NumberedServer Claims).Numbered where
  distinct := ⟨fun _ _ h => (nomatch h), fun _ _ _ h => (nomatch h)⟩
  asks := rfl
  counted := fun _ h => absurd h not_mem_nil
  nodup := nodup_nil
  requested := fun _ h => absurd h not_mem_nil
  awaits := fun _ h => absurd h not_mem_nil

lemma answered_ne {st st' : Server Claims} {scope : Scope} (hc : st.map r.connId = some c)
    (hp : c.pendingNamespaceIfSeq r.scopeSeq r.isPresence = some nspace)
    (ha : Answered st st' r scope c c') : st'.map ≠ st.map := by
  intro he
  have hsame : c' = c := by
    have hself := congrFun ha.map r.connId
    rw [update_self, he, hc, Option.some.injEq] at hself
    exact hself.symm
  have hwaiting := (pendingNamespaceIfSeq_eq_some.mp hp).2
  rw [hsame] at ha
  rcases ha.moved with hm | hm
  · rw [hm] at hwaiting
    cases hwaiting
  · rw [hm] at hwaiting
    cases hwaiting

lemma map_step_complete (cfg : ScopeConfig Claims) {i : ℕ} (answer : Option Scope)
    (hr : t.server.resolutions[i]? = some r) :
    (t.step cfg (.complete i answer)).server.map = (t.server.processResolution cfg r answer).map := by
  simp only [NumberedServer.step, Server.step, hr]
  unfold processResolution
  dsimp only
  cases t.server.map r.connId with
  | none => rfl
  | some c =>
    cases answer with
    | none => rfl
    | some scope =>
      dsimp only
      cases c.pendingNamespaceIfSeq r.scopeSeq r.isPresence with
      | none => rfl
      | some nspace =>
        cases c.session with
        | none => rfl
        | some sess =>
          dsimp only
          split_ifs
          · cases c.setScopeIfSeq r.scopeSeq scope r.isPresence <;> rfl
          · rfl

lemma processResolution_installs {st : Server Claims} {scope : Scope}
    {sess : Session Claims} (hc : st.map r.connId = some c) (hsession : c.session = some sess)
    (hp : c.pendingNamespaceIfSeq r.scopeSeq r.isPresence = some r.nspace)
    (hauthorized : cfg.authorizeNamespace r.nspace scope.userDocId sess r.isPresence = true) :
    ∃ c', (st.processResolution cfg r (some scope)).map r.connId = some c' ∧
      c'.Entered r.isPresence r.nspace scope := by
  obtain ⟨hseq, hwaiting⟩ := pendingNamespaceIfSeq_eq_some.mp hp
  refine ⟨c.withScope r.isPresence ((c.scope r.isPresence).install scope.namespaceId) scope.userDocId, ?_, ?_⟩
  · unfold processResolution
    rw [hc]
    dsimp only
    rw [hp, hseq, setScopeIfSeq_self]
    dsimp only
    rw [hsession]
    dsimp only
    rw [if_pos hauthorized]
    exact update_self ..
  · refine ⟨?_, ?_, ?_, userDocId_withScope ..⟩
    · rw [scope_withScope]
      rfl
    · rw [scope_withScope]
      exact hwaiting
    · rw [scope_withScope]
      rfl

/-- Where the requests are numbered rightly, a completion does what it should exactly when it is that
of a connection still open, or finds no scope that waits for it. -/
lemma Numbered.installsLatest_iff (h : t.Numbered) (ev : ServerEvent Claims) :
    t.InstallsLatest cfg ev ↔ t.FromItsConnection ev := by
  cases ev with
  | complete i answer =>
    constructor
    · rintro hok r c scope nspace hr hc rfl hpending
      obtain ⟨n, hget, -⟩ := h.asked_get hr
      by_contra hopening
      have hnot : ¬ t.Current r n := by
        intro hcurrent
        have hopen := hcurrent.1
        rw [openings, hc, Option.map_some, Option.some.injEq] at hopen
        exact hopening hopen
      have hsame := (hok r n hget).1 hnot
      rw [map_step_complete cfg _ hr] at hsame
      obtain ⟨c', ha⟩ := answered_processResolution cfg scope hc hpending
      exact answered_ne hc hpending ha hsame
    · intro hcond r n hget
      have hmem := mem_of_getElem? hget
      have hr : t.server.resolutions[i]? = some r := by
        rw [← h.asks, List.getElem?_map, hget]
        rfl
      rw [map_step_complete cfg _ hr]
      refine ⟨fun hnot => ?_, fun hcurrent c sess scope hc hsession hanswer hauthorized => ?_⟩
      · rw [processResolution_eq_self]
        intro c scope nspace hc hanswer hpending
        have hopening := hcond r c scope nspace hr hc hanswer hpending
        refine hnot ⟨?_, ?_⟩
        · rw [openings, hc, ← hopening]
          rfl
        · exact (h.awaits _ hmem c hc hopening).current.mpr
            (pendingNamespaceIfSeq_eq_some.mp hpending).1
      · have hopening : c.opening = r.opening := by
          have hopen := hcurrent.1
          rwa [openings, hc, Option.map_some, Option.some.injEq] at hopen
        have hawaits := h.awaits _ hmem c hc hopening
        have hseq := hawaits.current.mp hcurrent.2
        subst hanswer
        exact processResolution_installs hc hsession
          (pendingNamespaceIfSeq_eq_some.mpr ⟨hseq, hawaits.pending hseq⟩) hauthorized
  | _ => exact Iff.rfl

end NumberedServer

/-- In a run, superseded resolutions install nothing and the latest one that succeeds is installed, if
and only if no resolution finds the id of its connection taken by another one that waits for the same
number. -/
theorem latest_resolution_installed_iff (cfg : ScopeConfig Claims) (events : List (ServerEvent Claims)) :
    Along (NumberedServer.step cfg) (InstallsLatest cfg) {} events ↔
      Along (NumberedServer.step cfg) FromItsConnection {} events :=
  along_iff (fun _ _ _ h hcond => h.step hcond) (fun _ ev _ h => h.installsLatest_iff ev)
    numbered_init

namespace ResolutionExample

/-- All users have the id of their one-byte name, and may enter every namespace. -/
def anyScope : ScopeConfig Unit where
  usersNamespaced := false
  userId _ externalId := Fin.ofNat _ ((externalId.headD 0).toNat)
  authorizeNamespace _ _ _ _ := true

/-- User 7 asks for namespace 1 and leaves; another client takes its connection from the pool, and user
9 comes with the same id, and asks for namespace 2. -/
def reusedId : List (ServerEvent Unit) :=
  [.open 1 ⟨[7], ()⟩ 0, .setNamespace 1 false [1] .miss, .close 1, .open 3 ⟨[8], ()⟩ 0,
    .open 1 ⟨[9], ()⟩ 0, .setNamespace 1 false [2] .miss]

def lateResolution : ServerEvent Unit := .complete 0 (some ⟨1, 7⟩)

/-- The resolution of the request before the close puts user 9 into namespace 1 as user 7, and the scope
calls it namespace 2. -/
theorem late_resolution_installed :
    ¬ Along (NumberedServer.step anyScope) (InstallsLatest anyScope) {}
      (reusedId ++ [lateResolution]) ∧
    ∃ c, ((reusedId ++ [lateResolution]).foldl (Server.step anyScope) {}).map 1 = some c ∧
      c.session.map Session.externalId = some [9] ∧
      c.store.ready ∧ c.store.nspace = some [2] ∧ c.store.namespaceId = 1 ∧ c.userDocId = 7 := by
  refine ⟨fun h => ?_, _, rfl, rfl, rfl, rfl, rfl, rfl⟩
  rw [along_append] at h
  have hlast := h.2.1 ⟨1, 3, [1], [7], false, 0⟩ 0 rfl
  have hnot : ¬ (reusedId.foldl (NumberedServer.step anyScope) {}).Current
      ⟨1, 3, [1], [7], false, 0⟩ 0 := fun hcurrent => absurd hcurrent.1 (by decide)
  have hsame := congrArg (fun m => (m 1).map fun c => c.store.ready) (hlast.1 hnot)
  exact absurd hsame (by decide)

end ResolutionExample
end ZyncBase
