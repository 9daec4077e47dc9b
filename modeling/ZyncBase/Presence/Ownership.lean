import ZyncBase.Presence.Convergence

/-! Presence as the connections see it: each is in a namespace as some user, the user's record is
one for all of its connections, and any of them removes it. -/
namespace ZyncBase

open AssocMap List Machine PendingUserUpdate PresenceRecord PresenceManager

/-- A connection in a presence namespace. `owns` tells, for reference, that it has set the presence
of its user there and not removed it since. -/
structure PresenceSeat where
  namespaceId : ℤ
  userId : DocId
  owns : Bool := false
  deriving DecidableEq, Repr

def PresenceSeat.key (seat : PresenceSeat) : ℤ × DocId := (seat.namespaceId, seat.userId)

/-- The presence worker with the connections that are in a namespace. -/
structure SeatedPresence (V : Type) where
  system : PresenceSystem V := {}
  seats : List (ℕ × PresenceSeat) := []

/-- What connections do, in the order in which the worker takes it from its queue. -/
inductive SeatEvent (V : Type) where
  | scopeResolved (connId : ℕ) (namespaceId : ℤ) (userId : DocId)
  | presenceSetNamespace (connId : ℕ) (now : ℤ)
  | presenceSet (connId : ℕ) (patch : PresencePatch V) (now : ℤ)
  | presenceRemove (connId : ℕ) (now : ℤ)
  | presenceSubscribe (connId : ℕ) (subId : ℕ)
  | presenceUnsubscribe (connId : ℕ)
  | disconnect (connId : ℕ) (now : ℤ)
  | evictExpiredGracePeriods (now : ℤ)
  | drain

namespace SeatedPresence

variable {V : Type} (s : PresenceSchema V)

def seat (connId : ℕ) (st : SeatedPresence V) : Option PresenceSeat := find eqKey connId st.seats

def run (e : PresenceEvent V) (st : SeatedPresence V) : SeatedPresence V :=
  { st with system := PresenceSystem.step s st.system e }

def leave (connId : ℕ) (now : ℤ) (st : SeatedPresence V) : SeatedPresence V :=
  match st.seat connId with
  | none => st
  | some seat =>
    { st.run s (.removeAllForConnection seat.namespaceId seat.userId connId now) with
      seats := AssocMap.remove eqKey connId st.seats }

/-- A patch that does not fit the schema is refused. -/
def presenceSet (connId : ℕ) (patch : PresencePatch V) (now : ℤ) (st : SeatedPresence V) : SeatedPresence V :=
  match st.seat connId with
  | none => st
  | some seat =>
    if PresenceRecord.validatePayload s patch then
      { st.run s (.setUser seat.namespaceId seat.userId patch now) with
        seats := put eqKey connId { seat with owns := true } st.seats }
    else st

def presenceRemove (connId : ℕ) (now : ℤ) (st : SeatedPresence V) : SeatedPresence V :=
  match st.seat connId with
  | none => st
  | some seat =>
    { st.run s (.removeUser seat.namespaceId seat.userId now) with
      seats := put eqKey connId { seat with owns := false } st.seats }

def step (st : SeatedPresence V) : SeatEvent V → SeatedPresence V
  | .scopeResolved connId namespaceId userId =>
    match st.seat connId with
    | none => { st with seats := put eqKey connId ⟨namespaceId, userId, false⟩ st.seats }
    | some _ => st
  | .presenceSetNamespace connId now => st.leave s connId now
  | .presenceSet connId patch now => st.presenceSet s connId patch now
  | .presenceRemove connId now => st.presenceRemove s connId now
  | .presenceSubscribe connId subId =>
    match st.seat connId with
    | none => st
    | some seat => st.run s (.subscribe seat.namespaceId ⟨connId, subId⟩)
  | .presenceUnsubscribe connId =>
    match st.seat connId with
    | none => st
    | some seat => st.run s (.unsubscribe seat.namespaceId connId)
  | .disconnect connId now => st.leave s connId now
  | .evictExpiredGracePeriods now => st.run s (.evictExpiredGracePeriods now)
  | .drain => st.run s .drain

/-- A connection of the user that is still there has set its presence and not removed it. -/
def Owned (st : SeatedPresence V) (key : ℤ × DocId) : Prop :=
  ∃ connId seat, st.seat connId = some seat ∧ seat.key = key ∧ seat.owns

def Present (st : SeatedPresence V) (key : ℤ × DocId) : Prop :=
  (find eqKey key st.system.manager.userState).isSome

/-- The next drain tells the subscriber that the user has left. -/
def LeaveTold (st : SeatedPresence V) (w : Watcher V) (userId : DocId) : Prop :=
  ∃ u, (userId, u) ∈ told w.namespaceId w.subscriber
    st.system.manager.drainPendingBatches.2 ∧ u.isLeave

end SeatedPresence

namespace PresenceManager

variable {V : Type} {s : PresenceSchema V} {m : PresenceManager V} {key : ℤ × DocId} {known : Bool}

/-- After what is queued for the user, a subscriber knows of the user if it is present. -/
def Follows (m : PresenceManager V) (key : ℤ × DocId) (known : Bool) : Prop :=
  (find eqKey key m.pendingUserUpdates).elim known (fun u => !u.isLeave) = (find eqKey key m.userState).isSome

/-- Records with a slot for each field, and a queue that tells of joins and leaves as they were. -/
structure Orderly (s : PresenceSchema V) (m : PresenceManager V) : Prop where
  users : Distinct eqKey m.userState
  pending : Distinct eqKey m.pendingUserUpdates
  wellFormed : ∀ key u, find eqKey key m.pendingUserUpdates = some u → u.WellFormed
  lengths : ∀ key user, find eqKey key m.userState = some user → user.data.length = s.fieldCount
  follows : ∀ key, m.Follows key (find eqKey key m.userState).isSome

lemma Follows.present (h : m.Follows key known) : m.Follows key (find eqKey key m.userState).isSome := by
  unfold Follows at h ⊢
  cases hq : find eqKey key m.pendingUserUpdates with
  | none => rfl
  | some u => rwa [hq] at h

lemma Follows.of_eq {m' : PresenceManager V} (h : m.Follows key known)
    (hu : m'.userState = m.userState) (hp : m'.pendingUserUpdates = m.pendingUserUpdates) :
    m'.Follows key known := by
  unfold Follows
  rw [hu, hp]
  exact h

lemma Orderly.of_eq {m' : PresenceManager V} (hm : m.Orderly s) (hu : m'.userState = m.userState)
    (hp : m'.pendingUserUpdates = m.pendingUserUpdates) : m'.Orderly s := by
  obtain ⟨users, pending, subscribers, emptyAt⟩ := m
  obtain ⟨users', pending', subscribers', emptyAt'⟩ := m'
  cases hu
  cases hp
  exact ⟨hm.users, hm.pending, hm.wellFormed, hm.lengths, hm.follows⟩

lemma isSome_applyBroadcastEntry (topKey : ℕ → ℕ) (u : PendingUserUpdate V)
    (existing : Option (PresenceEntry V)) : (applyBroadcastEntry topKey u existing).isSome = !u.isLeave := by
  unfold applyBroadcastEntry
  dsimp only
  cases u.isLeave with
  | true => rfl
  | false =>
    rw [if_neg Bool.false_ne_true]
    split_ifs
    · rfl
    · cases existing <;> rfl

section SetUser

variable {namespaceId : ℤ} {userId : DocId} {patch : PresencePatch V} {now : ℤ}

lemma setUser_valid (hm : m.Orderly s) (hvalid : validatePayload s patch) :
    ∃ user u, user.data.length = s.fieldCount ∧ u.WellFormed ∧ u.isLeave = false ∧
      (m.setUser s namespaceId userId patch now).userState = put eqKey (namespaceId, userId) user m.userState ∧
      (m.setUser s namespaceId userId patch now).pendingUserUpdates =
        put eqKey (namespaceId, userId) u m.pendingUserUpdates := by
  have hlength : ((find eqKey (namespaceId, userId) m.userState).getD
      ⟨List.replicate s.fieldCount none, now⟩).data.length = s.fieldCount := by
    cases hu : find eqKey (namespaceId, userId) m.userState with
    | none => exact length_replicate
    | some user => exact hm.lengths _ user hu
  have hfits : patch.all (fun p => p.1 < ((find eqKey (namespaceId, userId) m.userState).getD
      ⟨List.replicate s.fieldCount none, now⟩).data.length) = true := by
    rw [hlength, all_eq_true]
    intro p hp
    have hboth := all_eq_true.mp hvalid p hp
    rw [Bool.and_eq_true] at hboth
    exact hboth.1
  have hset : ∀ (patch : PresencePatch V) (record : PresenceRecord V),
      (patch.foldl (fun values p => values.set p.1 (some p.2)) record).length = record.length := by
    intro patch
    induction patch with
    | nil => exact fun _ => rfl
    | cons p ps ih => exact fun record => (ih _).trans length_set
  unfold setUser mergeFromPayload
  dsimp only
  rw [hvalid, hfits]
  exact ⟨_, _, (hset _ _).trans hlength, wellFormed_queue _ _,
    by cases find eqKey (namespaceId, userId) m.pendingUserUpdates <;> rfl, rfl, rfl⟩

lemma Follows.setUser (hm : m.Orderly s) (hvalid : validatePayload s patch)
    (h : m.Follows key known) : (m.setUser s namespaceId userId patch now).Follows key known := by
  obtain ⟨user, u, -, -, hu, husers, hpending⟩ := @setUser_valid V s m namespaceId userId patch now hm hvalid
  unfold Follows
  rw [husers, hpending, find_put, find_put]
  split_ifs with hkey
  · rw [Option.elim_some, hu]
    rfl
  · exact h

lemma Orderly.setUser (hm : m.Orderly s) (hvalid : validatePayload s patch) :
    (m.setUser s namespaceId userId patch now).Orderly s := by
  obtain ⟨user, u, hlength, hwf, hu, husers, hpending⟩ :=
    @setUser_valid V s m namespaceId userId patch now hm hvalid
  refine ⟨husers ▸ distinct_put eqKey hm.users, hpending ▸ distinct_put eqKey hm.pending,
    fun key q hq => ?_, fun key x hx => ?_,
    fun key => ((hm.follows key).setUser hm hvalid).present⟩
  · rw [hpending, find_put] at hq
    split_ifs at hq
    · cases hq
      exact hwf
    · exact hm.wellFormed key q hq
  · rw [husers, find_put] at hx
    split_ifs at hx
    · cases hx
      exact hlength
    · exact hm.lengths key x hx

end SetUser

section RemoveUser

variable {namespaceId : ℤ} {userId : DocId} {now : ℤ}

lemma find_removeUser (key : ℤ × DocId) : find eqKey key (m.removeUser namespaceId userId now).userState =
    if (namespaceId, userId) = key then none else find eqKey key m.userState := by
  unfold removeUser
  cases hu : find eqKey (namespaceId, userId) m.userState with
  | none =>
    dsimp only
    split_ifs with hkey
    · rw [← hkey, hu]
    · rfl
  | some user =>
    dsimp only
    rw [find_remove]
    simp only [eqKey_iff]

/-- What is queued after a user has left tells of no user, unless a join is withdrawn that a
subscriber knows of. -/
lemma told_queueLeave {pending : List ((ℤ × DocId) × PendingUserUpdate V)}
    (hjoin : ∀ u, find eqKey key pending = some u → u.isNewUser → known = false) :
    (find eqKey key (queueLeave key pending)).elim known (fun u => !u.isLeave) = false := by
  unfold queueLeave
  cases hq : find eqKey key pending with
  | none =>
    dsimp only
    rw [find_put, if_pos (KeyTest.self eqKey _)]
    rfl
  | some u =>
    dsimp only
    split_ifs with hleave hn
    · rw [hq]
      rw [Bool.and_eq_true] at hleave
      rw [Option.elim_some, hleave.2]
      rfl
    · rw [find_remove, if_pos (KeyTest.self eqKey _)]
      exact hjoin u hq hn
    · rw [find_put, if_pos (KeyTest.self eqKey _)]
      rfl

lemma Follows.removeUser (h : m.Follows key known)
    (hjoin : key = (namespaceId, userId) → m.JoinQueued key → known = false) :
    (m.removeUser namespaceId userId now).Follows key known := by
  unfold Follows at h ⊢
  rw [find_removeUser]
  unfold PresenceManager.removeUser
  cases hu : find eqKey (namespaceId, userId) m.userState with
  | none =>
    dsimp only
    split_ifs with hkey
    · rw [h, ← hkey, hu]
    · exact h
  | some user =>
    dsimp only
    split_ifs with hkey
    · subst hkey
      exact told_queueLeave fun u hq hn => hjoin rfl ⟨u, hq, hn⟩
    · rw [find_queueLeave hkey]
      exact h

lemma Orderly.removeUser (hm : m.Orderly s) : (m.removeUser namespaceId userId now).Orderly s where
  users := by
    unfold PresenceManager.removeUser
    split
    · exact hm.users
    · exact distinct_remove eqKey hm.users
  pending := by
    unfold PresenceManager.removeUser
    split
    · exact hm.pending
    · exact distinct_queueLeave hm.pending
  wellFormed key u hu := by
    unfold PresenceManager.removeUser at hu
    split at hu
    · exact hm.wellFormed key u hu
    · exact wellFormed_queueLeave (hm.wellFormed key) hu
  lengths key user hu := by
    rw [find_removeUser] at hu
    split_ifs at hu
    exact hm.lengths key user hu
  follows key := by
    rw [find_removeUser]
    split_ifs with hkey
    · subst hkey
      cases hu : find eqKey (namespaceId, userId) m.userState with
      | none =>
        have hfollows := hm.follows (namespaceId, userId)
        rw [hu] at hfollows
        exact hfollows.removeUser fun _ _ => rfl
      | some user =>
        unfold Follows
        rw [find_removeUser, if_pos rfl]
        unfold PresenceManager.removeUser
        rw [hu]
        exact told_queueLeave fun _ _ _ => rfl
    · exact (hm.follows key).removeUser fun he => absurd he.symm hkey

end RemoveUser
end PresenceManager

namespace PresenceSystem

variable {V : Type} {s : PresenceSchema V} {sys : PresenceSystem V}

/-- Every subscriber knows of the present users once the queue has been told. -/
structure Heard (s : PresenceSchema V) (sys : PresenceSystem V) : Prop where
  manager : sys.manager.Orderly s
  subscribed : ∀ w ∈ sys.watchers, (w.namespaceId, w.subscriber) ∈ sys.manager.userSubscribers
  follows : ∀ w ∈ sys.watchers, ∀ userId, sys.manager.Follows (w.namespaceId, userId) (w.users userId).isSome

lemma Heard.setUser (h : sys.Heard s) (namespaceId : ℤ) (userId : DocId)
    {patch : PresencePatch V} (now : ℤ) (hvalid : validatePayload s patch) :
    (step s sys (.setUser namespaceId userId patch now)).Heard s where
  manager := h.manager.setUser hvalid
  subscribed w hw := by
    dsimp only [step]
    rw [userSubscribers_setUser]
    exact h.subscribed w hw
  follows w hw u := (h.follows w hw u).setUser h.manager hvalid

lemma Heard.removeUser (h : sys.Heard s) (namespaceId : ℤ) (userId : DocId) (now : ℤ)
    (hjoin : sys.manager.JoinQueued (namespaceId, userId) →
      ∀ w ∈ sys.watchers, w.namespaceId = namespaceId → w.users userId = none) :
    (step s sys (.removeUser namespaceId userId now)).Heard s where
  manager := h.manager.removeUser
  subscribed w hw := by
    dsimp only [step]
    rw [userSubscribers_removeUser]
    exact h.subscribed w hw
  follows w hw u := by
    refine (h.follows w hw u).removeUser fun hkey hq => ?_
    obtain ⟨hns, rfl⟩ := Prod.mk.inj hkey
    rw [hkey] at hq
    rw [hjoin hq w hw hns]
    rfl

lemma Heard.subscribe (h : sys.Heard s) (namespaceId : ℤ) (subscriber : PresenceSubscriber) :
    (step s sys (.subscribe namespaceId subscriber)).Heard s where
  manager := h.manager.of_eq rfl rfl
  subscribed w hw := by
    cases mem_append.mp hw with
    | inl hw => exact mem_append_left _ (h.subscribed w hw)
    | inr hw =>
      cases mem_singleton.mp hw
      exact mem_append_right _ (mem_singleton_self _)
  follows w hw userId := by
    cases mem_append.mp hw with
    | inl hw => exact (h.follows w hw userId).of_eq rfl rfl
    | inr hw =>
      cases mem_singleton.mp hw
      have hsnapshot := populate_snapshot h.manager.users namespaceId userId
      have hknown : (populateUserCacheFromSnapshot (sys.manager.snapshot namespaceId) userId).isSome =
          (find eqKey (namespaceId, userId) sys.manager.userState).isSome := by
        rw [hsnapshot]
        exact Option.isSome_map
      change PresenceManager.Follows _ (namespaceId, userId)
        (populateUserCacheFromSnapshot (sys.manager.snapshot namespaceId) userId).isSome
      rw [hknown]
      exact (h.manager.follows (namespaceId, userId)).of_eq rfl rfl

lemma Heard.unsubscribe (h : sys.Heard s) (namespaceId : ℤ) (connId : ℕ) :
    (step s sys (.unsubscribe namespaceId connId)).Heard s where
  manager := h.manager.of_eq rfl rfl
  subscribed w hw := by
    obtain ⟨hw, hkept⟩ := mem_filter.mp hw
    exact mem_filter.mpr ⟨h.subscribed w hw, hkept⟩
  follows w hw u := (h.follows w (mem_filter.mp hw).1 u).of_eq rfl rfl

lemma Heard.removeAllForConnection (h : sys.Heard s) (namespaceId : ℤ) (userId : DocId) (connId : ℕ) (now : ℤ)
    (hjoin : sys.manager.JoinQueued (namespaceId, userId) →
      ∀ w ∈ sys.unwatch namespaceId connId, w.namespaceId = namespaceId → w.users userId = none) :
    (step s sys (.removeAllForConnection namespaceId userId connId now)).Heard s := by
  rw [step_removeAllForConnection]
  exact (h.unsubscribe namespaceId connId).removeUser namespaceId userId now hjoin

lemma Heard.evict (h : sys.Heard s) (now : ℤ) : (step s sys (.evictExpiredGracePeriods now)).Heard s where
  manager := h.manager.of_eq rfl rfl
  subscribed := h.subscribed
  follows w hw u := (h.follows w hw u).of_eq rfl rfl

lemma Heard.afterDrain (h : sys.Heard s) {w : Watcher V} (hw : w ∈ (step s sys .drain).watchers)
    (userId : DocId) : (w.users userId).isSome =
      (find eqKey (w.namespaceId, userId) sys.manager.userState).isSome := by
  obtain ⟨v, hv, rfl⟩ := mem_map.mp hw
  have hfollows := h.follows v hv userId
  have hreceived := users_receive_drain h.manager.pending h.manager.wellFormed
    s.topKey (h.subscribed v hv) userId
  unfold PresenceManager.Follows at hfollows
  change ((v.receive s.topKey sys.manager.drainPendingBatches.2).users userId).isSome =
    (find eqKey (v.namespaceId, userId) sys.manager.userState).isSome
  rw [hreceived, ← hfollows]
  cases find eqKey (v.namespaceId, userId) sys.manager.pendingUserUpdates with
  | none => rfl
  | some u => exact isSome_applyBroadcastEntry s.topKey u _

lemma Heard.drain (h : sys.Heard s) : (step s sys .drain).Heard s where
  manager := ⟨h.manager.users, List.Pairwise.nil, fun _ _ hu => (nomatch hu), h.manager.lengths, fun _ => rfl⟩
  subscribed w' hw' := by
    obtain ⟨w, hw, rfl⟩ := mem_map.mp hw'
    exact h.subscribed w hw
  follows w hw userId := h.afterDrain hw userId

end PresenceSystem

namespace SeatedPresence

variable {V : Type} {s : PresenceSchema V} {st : SeatedPresence V}

/-- No other connection owns the presence that is removed, and the subscribers that stay do not know
the user when its join is still queued. -/
def LeavesClean (st : SeatedPresence V) (connId : ℕ) (seat : PresenceSeat)
    (watchers : List (Watcher V)) : Prop :=
  (∀ c other, c ≠ connId → st.seat c = some other → other.owns → other.key ≠ seat.key) ∧
  (st.system.manager.JoinQueued seat.key →
    ∀ w ∈ watchers, w.namespaceId = seat.namespaceId → w.users seat.userId = none)

/-- Nobody removes what another connection owns, and no queued join is withdrawn from subscribers
that know the user. -/
def Clean (st : SeatedPresence V) : SeatEvent V → Prop
  | .presenceSetNamespace connId _ | .disconnect connId _ => ∀ seat, st.seat connId = some seat →
    st.LeavesClean connId seat (st.system.unwatch seat.namespaceId connId)
  | .presenceRemove connId _ => ∀ seat, st.seat connId = some seat →
    st.LeavesClean connId seat st.system.watchers
  | _ => True

/-- Users are present as long as a connection owns their presence. -/
structure Sound (s : PresenceSchema V) (st : SeatedPresence V) : Prop where
  heard : st.system.Heard s
  owned : ∀ key, st.Present key ↔ st.Owned key

section Seats

variable {st' : SeatedPresence V} {connId : ℕ} {seat : PresenceSeat} {key : ℤ × DocId}

lemma owned_drop (hseat : st.seat connId = some seat)
    (hother : ∀ c other, c ≠ connId → st.seat c = some other → other.owns → other.key ≠ seat.key)
    (hsame : ∀ c, connId ≠ c → st'.seat c = st.seat c)
    (hdrop : ∀ x, st'.seat connId = some x → x.owns = false) :
    st'.Owned key ↔ st.Owned key ∧ seat.key ≠ key := by
  constructor
  · rintro ⟨c, x, hx, rfl, ho⟩
    have hc : connId ≠ c := by
      rintro rfl
      rw [hdrop x hx] at ho
      cases ho
    rw [hsame c hc] at hx
    exact ⟨⟨c, x, hx, rfl, ho⟩, (hother c x hc.symm hx ho).symm⟩
  · rintro ⟨⟨c, x, hx, rfl, ho⟩, hne⟩
    have hc : connId ≠ c := by
      rintro rfl
      rw [hseat] at hx
      cases hx
      exact hne rfl
    exact ⟨c, x, (hsame c hc).trans hx, rfl, ho⟩

lemma owned_take (hseat : st.seat connId = some seat) (hsame : ∀ c, connId ≠ c → st'.seat c = st.seat c)
    (htake : st'.seat connId = some { seat with owns := true }) :
    st'.Owned key ↔ st.Owned key ∨ seat.key = key := by
  constructor
  · rintro ⟨c, x, hx, rfl, ho⟩
    by_cases hc : connId = c
    · subst hc
      rw [htake] at hx
      cases hx
      exact .inr rfl
    · rw [hsame c hc] at hx
      exact .inl ⟨c, x, hx, rfl, ho⟩
  · rintro (⟨c, x, hx, rfl, ho⟩ | rfl)
    · by_cases hc : connId = c
      · subst hc
        rw [hseat] at hx
        cases hx
        exact ⟨connId, _, htake, rfl, rfl⟩
      · exact ⟨c, x, (hsame c hc).trans hx, rfl, ho⟩
    · exact ⟨connId, _, htake, rfl, rfl⟩

lemma owned_enter (hseat : st.seat connId = none) (hsame : ∀ c, connId ≠ c → st'.seat c = st.seat c)
    (hnew : ∀ x, st'.seat connId = some x → x.owns = false) : st'.Owned key ↔ st.Owned key := by
  constructor
  · rintro ⟨c, x, hx, rfl, ho⟩
    have hc : connId ≠ c := by
      rintro rfl
      rw [hnew x hx] at ho
      cases ho
    exact ⟨c, x, (hsame c hc).symm.trans hx, rfl, ho⟩
  · rintro ⟨c, x, hx, rfl, ho⟩
    have hc : connId ≠ c := by
      rintro rfl
      rw [hseat] at hx
      cases hx
    exact ⟨c, x, (hsame c hc).trans hx, rfl, ho⟩

lemma seat_put (connId c : ℕ) (seat : PresenceSeat) (system : PresenceSystem V) :
    SeatedPresence.seat c ⟨system, put eqKey connId seat st.seats⟩ =
      if connId = c then some seat else st.seat c := by
  unfold SeatedPresence.seat
  rw [find_put]
  simp only [eqKey_iff]

lemma seat_remove (connId c : ℕ) (system : PresenceSystem V) :
    SeatedPresence.seat c ⟨system, AssocMap.remove eqKey connId st.seats⟩ =
      if connId = c then none else st.seat c := by
  unfold SeatedPresence.seat
  rw [find_remove]
  simp only [eqKey_iff]

end Seats

lemma present_drop {st' : SeatedPresence V} (h : st.Sound s) {connId : ℕ} {seat : PresenceSeat}
    (hseat : st.seat connId = some seat) {watchers : List (Watcher V)}
    (hclean : st.LeavesClean connId seat watchers) (hsame : ∀ c, connId ≠ c → st'.seat c = st.seat c)
    (hdrop : ∀ x, st'.seat connId = some x → x.owns = false)
    (hpresent : ∀ key, find eqKey key st'.system.manager.userState =
      if seat.key = key then none else find eqKey key st.system.manager.userState)
    (key : ℤ × DocId) : st'.Present key ↔ st'.Owned key := by
  rw [owned_drop hseat hclean.1 hsame hdrop, ← h.owned key]
  unfold Present
  rw [hpresent]
  split_ifs with hkey
  · simp [hkey]
  · simp [hkey]

lemma Sound.leave (h : st.Sound s) (connId : ℕ) (now : ℤ)
    (hclean : ∀ seat, st.seat connId = some seat →
      st.LeavesClean connId seat (st.system.unwatch seat.namespaceId connId)) :
    (st.leave s connId now).Sound s := by
  unfold SeatedPresence.leave
  cases hseat : st.seat connId with
  | none => exact h
  | some seat =>
    have hleft := hclean seat hseat
    refine ⟨h.heard.removeAllForConnection _ _ _ _ hleft.2,
      present_drop h hseat hleft (fun c hc => ?_) (fun x hx => ?_) fun key => ?_⟩
    · exact (seat_remove connId c _).trans (if_neg hc)
    · rw [seat_remove connId connId, if_pos rfl] at hx
      cases hx
    · exact find_removeUser key

lemma Sound.presenceRemove (h : st.Sound s) (connId : ℕ) (now : ℤ)
    (hclean : ∀ seat, st.seat connId = some seat →
      st.LeavesClean connId seat st.system.watchers) : (st.presenceRemove s connId now).Sound s := by
  unfold SeatedPresence.presenceRemove
  cases hseat : st.seat connId with
  | none => exact h
  | some seat =>
    have hleft := hclean seat hseat
    refine ⟨h.heard.removeUser _ _ _ hleft.2,
      present_drop h hseat hleft (fun c hc => ?_) (fun x hx => ?_) fun key => ?_⟩
    · exact (seat_put connId c _ _).trans (if_neg hc)
    · rw [seat_put connId connId, if_pos rfl] at hx
      cases hx
      rfl
    · exact find_removeUser key

lemma Sound.presenceSet (h : st.Sound s) (connId : ℕ) (patch : PresencePatch V) (now : ℤ) :
    (st.presenceSet s connId patch now).Sound s := by
  unfold SeatedPresence.presenceSet
  cases hseat : st.seat connId with
  | none => exact h
  | some seat =>
    dsimp only
    split_ifs with hvalid
    · refine ⟨h.heard.setUser _ _ _ hvalid, fun key => ?_⟩
      have hseats : ∀ c, SeatedPresence.seat c
          ⟨(st.run s (.setUser seat.namespaceId seat.userId patch now)).system,
            put eqKey connId { seat with owns := true } st.seats⟩ =
              if connId = c then some { seat with owns := true } else st.seat c :=
        fun c => seat_put connId c _ _
      rw [owned_take hseat (fun c hc => (hseats c).trans (if_neg hc))
        ((hseats connId).trans (if_pos rfl)), ← h.owned key]
      obtain ⟨user, u, -, -, -, husers, -⟩ := @PresenceManager.setUser_valid V s _ seat.namespaceId
        seat.userId patch now h.heard.manager hvalid
      unfold Present
      change (find eqKey key (st.system.manager.setUser s seat.namespaceId seat.userId patch
        now).userState).isSome ↔ _
      rw [husers, find_put]
      change _ ↔ _ ∨ (seat.namespaceId, seat.userId) = key
      split_ifs with hkey
      · simp [(eqKey_iff _ _).mp hkey]
      · have hne : (seat.namespaceId, seat.userId) ≠ key := fun he => hkey ((eqKey_iff _ _).mpr he)
        simp [hne]
    · exact h

lemma Sound.of_heard (h : st.Sound s) {system : PresenceSystem V} (hsystem : system.Heard s)
    (husers : system.manager.userState = st.system.manager.userState) : Sound s ⟨system, st.seats⟩ := by
  refine ⟨hsystem, fun key => ?_⟩
  have howned := h.owned key
  unfold Present at howned ⊢
  rw [husers]
  exact howned

lemma Sound.step (h : st.Sound s) (e : SeatEvent V) (hclean : st.Clean e) : (st.step s e).Sound s := by
  cases e with
  | scopeResolved connId namespaceId userId =>
    unfold SeatedPresence.step
    dsimp only
    cases hseat : st.seat connId with
    | some seat => exact h
    | none =>
      refine ⟨h.heard, fun key => (h.owned key).trans (owned_enter hseat (fun c hc => ?_) ?_).symm⟩
      · exact (seat_put connId c _ _).trans (if_neg hc)
      · rw [seat_put connId connId, if_pos rfl]
        rintro x ⟨⟩
        rfl
  | presenceSetNamespace connId now => exact h.leave connId now hclean
  | presenceSet connId patch now => exact h.presenceSet connId patch now
  | presenceRemove connId now => exact h.presenceRemove connId now hclean
  | presenceSubscribe connId subId =>
    unfold SeatedPresence.step
    dsimp only
    cases st.seat connId with
    | none => exact h
    | some seat => exact h.of_heard (h.heard.subscribe _ _) rfl
  | presenceUnsubscribe connId =>
    unfold SeatedPresence.step
    dsimp only
    cases st.seat connId with
    | none => exact h
    | some seat => exact h.of_heard (h.heard.unsubscribe _ _) rfl
  | disconnect connId now => exact h.leave connId now hclean
  | evictExpiredGracePeriods now => exact h.of_heard (h.heard.evict now) rfl
  | drain => exact h.of_heard h.heard.drain rfl

lemma sound_empty : ({} : SeatedPresence V).Sound s where
  heard := ⟨⟨List.Pairwise.nil, List.Pairwise.nil, fun _ _ hu => (nomatch hu),
    fun _ _ hu => (nomatch hu), fun _ => rfl⟩, fun _ hw => (nomatch hw), fun _ hw => (nomatch hw)⟩
  owned _ := ⟨fun h => (nomatch h), fun ⟨_, _, hx, _⟩ => (nomatch hx)⟩

lemma Sound.leaveTold (h : st.Sound s) {w : Watcher V} (hw : w ∈ st.system.watchers)
    {userId : DocId} (hgone : ¬ st.Owned (w.namespaceId, userId)) (hknown : (w.users userId).isSome) :
    st.LeaveTold w userId := by
  have hfollows := h.heard.follows w hw userId
  have habsent : (find eqKey (w.namespaceId, userId) st.system.manager.userState).isSome = false := by
    rw [← Bool.not_eq_true]
    exact fun hpresent => hgone ((h.owned _).mp hpresent)
  unfold PresenceManager.Follows at hfollows
  rw [habsent, hknown] at hfollows
  obtain ⟨updates, htold, -, hfind⟩ := told_drain h.heard.manager.pending
    h.heard.manager.wellFormed (h.heard.subscribed w hw)
  cases hq : find eqKey (w.namespaceId, userId) st.system.manager.pendingUserUpdates with
  | none =>
    rw [hq] at hfollows
    cases hfollows
  | some u =>
    rw [hq] at hfollows
    obtain ⟨k, hk, hmem⟩ := mem_of_find eqKey ((hfind userId).trans hq)
    rw [eqKey_iff] at hk
    subst hk
    exact ⟨u, htold ▸ hmem, by simpa using hfollows⟩

/-- In every state of a run in which nobody removes what another connection owns, a user is present
exactly as long as one of its connections has set its presence and not removed it, and subscribers
that know of a user who is gone are told by the next drain. -/
theorem presence_owned (s : PresenceSchema V) (events : List (SeatEvent V))
    (h : Along (step s) Clean {} events) :
    (∀ key, (events.foldl (step s) {}).Present key ↔ (events.foldl (step s) {}).Owned key) ∧
    ∀ w ∈ (events.foldl (step s) {}).system.watchers, ∀ userId,
      ¬ (events.foldl (step s) {}).Owned (w.namespaceId, userId) → (w.users userId).isSome →
      (events.foldl (step s) {}).LeaveTold w userId := by
  have hsound : ((events.foldl (step s) {}).Sound s) :=
    h.invariant (fun _ e hs hclean => Sound.step hs e hclean) sound_empty
  exact ⟨hsound.owned, fun w hw userId => hsound.leaveTold hw⟩

end SeatedPresence

namespace OwnershipExample

open PresenceExample

/-- Two connections of user 7 set its presence, and one of them closes. -/
def oneCloses : List (SeatEvent ℕ) :=
  [.scopeResolved 1 1 7, .scopeResolved 2 1 7, .presenceSet 1 [(0, 3)] 10, .presenceSet 2 [(1, 4)] 20,
    .disconnect 1 30]

/-- A connection subscribes while the join of user 7 is queued, and the user leaves before the next
broadcast. -/
def leavesUntold : List (SeatEvent ℕ) :=
  [.scopeResolved 1 1 7, .scopeResolved 2 1 8, .presenceSet 1 [(0, 3)] 10, .presenceSubscribe 2 1,
    .presenceRemove 1 20]

/-- The user is gone although a connection of it that has set its presence is still there; and nobody
tells a subscriber that knows of a user that it has left. -/
theorem presence_removed :
    ((oneCloses.foldl (SeatedPresence.step cursor) {}).Owned (1, 7) ∧
      ¬ (oneCloses.foldl (SeatedPresence.step cursor) {}).Present (1, 7)) ∧
    ¬ (leavesUntold.foldl (SeatedPresence.step cursor) {}).Present (1, 7) ∧
      ∃ w ∈ (leavesUntold.foldl (SeatedPresence.step cursor) {}).system.watchers,
        (w.users 7).isSome ∧ ¬ (leavesUntold.foldl (SeatedPresence.step cursor) {}).LeaveTold w 7 := by
  refine ⟨⟨⟨2, ⟨1, 7, true⟩, rfl, rfl, rfl⟩, fun h => ?_⟩, fun h => ?_, _, List.mem_cons_self, rfl, ?_⟩
  · exact absurd (show false = true from h) Bool.false_ne_true
  · exact absurd (show false = true from h) Bool.false_ne_true
  · rintro ⟨u, hu, -⟩
    cases hu

def handedOver : List (SeatEvent ℕ) :=
  [.scopeResolved 1 1 7, .scopeResolved 2 1 7, .presenceSet 1 [(0, 3)] 10, .drain,
    .presenceRemove 1 20, .presenceSet 2 [(1, 4)] 30]

theorem presence_owned_handedOver :
    (∀ key, (handedOver.foldl (SeatedPresence.step cursor) {}).Present key ↔
      (handedOver.foldl (SeatedPresence.step cursor) {}).Owned key) ∧
    ∀ w ∈ (handedOver.foldl (SeatedPresence.step cursor) {}).system.watchers, ∀ userId,
      ¬ (handedOver.foldl (SeatedPresence.step cursor) {}).Owned (w.namespaceId, userId) →
      (w.users userId).isSome → (handedOver.foldl (SeatedPresence.step cursor) {}).LeaveTold w userId := by
  refine SeatedPresence.presence_owned cursor handedOver
    ⟨trivial, trivial, trivial, trivial, fun seat hseat => ⟨fun c other hc hother ho => ?_, ?_⟩,
      trivial, trivial⟩
  · -- the other connection has not set its presence yet
    exfalso
    by_cases h2 : c = 2
    · subst h2
      cases hother
      cases ho
    · have hnone : find eqKey c [(1, (⟨1, 7, true⟩ : PresenceSeat)), (2, ⟨1, 7, false⟩)] = some other :=
        hother
      simp [find, Ne.symm hc, Ne.symm h2] at hnone
  · rintro ⟨u, hu, -⟩
    cases hu

end OwnershipExample
end ZyncBase
