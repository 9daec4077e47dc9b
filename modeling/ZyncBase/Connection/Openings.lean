import ZyncBase.Connection.Scopes

/-! Which connections are open, and since when: only opening and closing change it. -/
namespace ZyncBase

open Function

namespace Server

variable {Claims : Type} {cfg : ScopeConfig Claims} {st st' : Server Claims} {connId : ℕ}
  {c c' : Connection Claims}

def opens (st : Server Claims) : ServerEvent Claims → Option ℕ
  | .open connId sess _ =>
    if (st.map connId).isSome ∨ sess.externalId = [] then none else some connId
  | _ => none

def openings (st : Server Claims) (connId : ℕ) : Option ℕ :=
  (st.map connId).map Connection.opening

def SameOpenings (st st' : Server Claims) : Prop :=
  st'.openings = st.openings ∧ st'.opened = st.opened

lemma SameOpenings.put (h : SameOpenings st st') (hc : st.map connId = some c)
    (hopening : c'.opening = c.opening) : SameOpenings st (st'.put connId c') := by
  refine ⟨?_, h.2⟩
  rw [← h.1]
  funext id
  by_cases hid : id = connId
  · subst hid
    have hold : st'.openings id = st.openings id := congrFun h.1 id
    rw [hold]
    simp [openings, Server.put, hc, hopening]
  · simp [openings, Server.put, hid]

lemma sameOpenings_removeAllForConnection (st : Server Claims) (connId : ℕ)
    (c : Connection Claims) : SameOpenings st (st.removeAllForConnection connId c) := by
  unfold removeAllForConnection
  split_ifs <;> exact ⟨rfl, rfl⟩

lemma opening_resetScope (i : Bool) (c : Connection Claims) :
    (c.resetScope i).opening = c.opening := Connection.opening_withScope ..

lemma opening_resetScopeIfSeq (n : ℕ) (i : Bool) (c : Connection Claims) :
    (c.resetScopeIfSeq n i).opening = c.opening := by
  unfold Connection.resetScopeIfSeq
  split_ifs
  · rfl
  · exact opening_resetScope i c

lemma opening_beginScopeResolution (i : Bool) (nspace : Bytes) (c : Connection Claims) :
    (c.beginScopeResolution i nspace).opening = c.opening := Connection.opening_withScope ..

lemma opening_setScopeIfSeq {n : ℕ} {scope : Scope} {i : Bool}
    (h : c.setScopeIfSeq n scope i = some c') : c'.opening = c.opening := by
  unfold Connection.setScopeIfSeq at h
  split_ifs at h
  cases h
  exact Connection.opening_withScope ..

lemma sameOpenings_handleSetNamespace (connId : ℕ) (i : Bool) (nspace : Bytes)
    (cache : CacheAnswer) : SameOpenings st (st.handleSetNamespace cfg connId i nspace cache) := by
  unfold handleSetNamespace
  cases hc : st.map connId with
  | none => exact ⟨rfl, rfl⟩
  | some c =>
    dsimp only
    by_cases hreject : c.rejectsNamespaceSwitch cfg nspace
    · rw [if_pos hreject]
      exact ⟨rfl, rfl⟩
    rw [if_neg hreject]
    cases c.session with
    | none => exact ⟨rfl, rfl⟩
    | some sess =>
      dsimp only
      have hleft : SameOpenings st (if i = true then st.removeAllForConnection connId c else st) := by
        split_ifs
        · exact sameOpenings_removeAllForConnection st connId c
        · exact ⟨rfl, rfl⟩
      have hbegun := opening_beginScopeResolution i nspace c
      have hreset (n : ℕ) : ((c.beginScopeResolution i nspace).resetScopeIfSeq n i).opening =
          c.opening := (opening_resetScopeIfSeq n i _).trans hbegun
      cases cache with
      | failed => exact hleft.put hc (hreset _)
      | miss => exact hleft.put hc hbegun
      | hit scope =>
        dsimp only
        by_cases hauth : cfg.authorizeNamespace nspace scope.userDocId sess i
        · rw [if_pos hauth]
          cases hset : (c.beginScopeResolution i nspace).setScopeIfSeq
            ((c.beginScopeResolution i nspace).scope i).scopeSeq scope i with
          | none => exact hleft.put hc (hreset _)
          | some installed =>
            exact hleft.put hc ((opening_setScopeIfSeq hset).trans hbegun)
        · rw [if_neg hauth]
          exact hleft.put hc (hreset _)

lemma sameOpenings_processResolution (st : Server Claims) (r : ResolveScopeRequest)
    (answer : Option Scope) : SameOpenings st (st.processResolution cfg r answer) := by
  have hrefl : SameOpenings st st := ⟨rfl, rfl⟩
  unfold processResolution
  cases hc : st.map r.connId with
  | none => exact hrefl
  | some c =>
    cases answer with
    | none => exact hrefl
    | some scope =>
      dsimp only
      cases c.pendingNamespaceIfSeq r.scopeSeq r.isPresence with
      | none => exact hrefl
      | some nspace =>
        cases c.session with
        | none => exact hrefl.put hc (opening_resetScopeIfSeq _ _ c)
        | some sess =>
          dsimp only
          split_ifs with hauth
          · cases hset : c.setScopeIfSeq r.scopeSeq scope r.isPresence with
            | none => exact hrefl
            | some installed => exact hrefl.put hc (opening_setScopeIfSeq hset)
          · exact hrefl.put hc (opening_resetScopeIfSeq _ _ c)

lemma openings_step (cfg : ScopeConfig Claims) (st : Server Claims) (ev : ServerEvent Claims) :
    match st.opens ev, ev with
    | some connId, _ => st.map connId = none ∧ (st.step cfg ev).opened = st.opened + 1 ∧
        (st.step cfg ev).openings = update st.openings connId (some st.opened)
    | none, .close connId => (st.step cfg ev).opened = st.opened ∧
        (st.step cfg ev).openings = update st.openings connId none
    | none, _ => SameOpenings st (st.step cfg ev) := by
  cases ev with
  | «open» connId sess slot =>
    simp only [opens, step, onOpen]
    split_ifs with h
    · exact ⟨rfl, rfl⟩
    · rw [not_or, Option.not_isSome_iff_eq_none] at h
      refine ⟨h.1, rfl, ?_⟩
      funext id
      by_cases hid : id = connId
      · subst hid
        simp [openings, Server.put]
      · simp [openings, Server.put, hid]
  | setNamespace connId i nspace cache =>
    exact sameOpenings_handleSetNamespace connId i nspace cache
  | complete i answer =>
    simp only [opens, step]
    cases st.resolutions[i]? with
    | none => exact ⟨rfl, rfl⟩
    | some r =>
      exact sameOpenings_processResolution { st with resolutions := st.resolutions.eraseIdx i } r answer
  | authRefresh connId subject claims =>
    simp only [opens, step, handleAuthRefresh]
    cases hc : st.map connId with
    | none => exact ⟨rfl, rfl⟩
    | some c =>
      dsimp only
      split_ifs
      · exact SameOpenings.put ⟨rfl, rfl⟩ hc rfl
      · exact ⟨rfl, rfl⟩
  | write connId i =>
    simp only [opens, step, handleWrite]
    cases st.map connId with
    | none => exact ⟨rfl, rfl⟩
    | some c =>
      dsimp only
      cases c.requireCtx i with
      | none => exact ⟨rfl, rfl⟩
      | some sc => exact ⟨rfl, rfl⟩
  | close connId =>
    simp only [opens, step, teardownSession]
    cases hc : st.map connId with
    | none =>
      refine ⟨rfl, ?_⟩
      have hnone : st.openings connId = none := by rw [openings, hc]; rfl
      exact (update_eq_self_iff.mpr hnone.symm).symm
    | some c =>
      obtain ⟨-, hopened⟩ := sameOpenings_removeAllForConnection st connId c
      refine ⟨hopened, ?_⟩
      funext id
      by_cases hid : id = connId
      · subst hid
        simp [openings]
      · simp [openings, hid]

end Server
end ZyncBase
