import ZyncBase.Lib.Machine
import ZyncBase.Presence.Settling

/-! Convergence of presence: every subscriber is its queued updates away from the users of its
namespace, so after a drain it knows these users. -/
namespace ZyncBase

open AssocMap List Machine PendingUserUpdate PresenceRecord PresenceManager PresenceSystem

variable {V : Type} {s : PresenceSchema V}

variable {namespaceId : ℤ} {userId : DocId}

namespace PresenceManager

/-- The user as a snapshot shows it. -/
def seen (m : PresenceManager V) (key : ℤ × DocId) : Option (PresenceEntry V) :=
  (find eqKey key m.userState).map PresenceUser.entry

/-- The queued update brings what is known of the user to what a snapshot shows. -/
def Tracks (m : PresenceManager V) (key : ℤ × DocId) (known : Option (PresenceEntry V)) : Prop :=
  settleQueued (find eqKey key m.pendingUserUpdates) known = m.seen key

/-- What is queued is well formed, and changes nothing for one who has just subscribed. -/
structure Sound (m : PresenceManager V) : Prop where
  users : Distinct eqKey m.userState
  pending : Distinct eqKey m.pendingUserUpdates
  wellFormed : ∀ key u, find eqKey key m.pendingUserUpdates = some u → u.WellFormed
  settled : ∀ key, m.Tracks key (m.seen key)

def NamesOnce (m : PresenceManager V) (key : ℤ × DocId) (patch : PresencePatch V) : Prop :=
  ∀ u queued, find eqKey key m.pendingUserUpdates = some u → u.patch = some queued →
    ∀ k ∈ patch.map Prod.fst, (queued.map Prod.fst).count k ≤ 1

def JoinQueued (m : PresenceManager V) (key : ℤ × DocId) : Prop :=
  ∃ u, find eqKey key m.pendingUserUpdates = some u ∧ u.isNewUser

variable {m : PresenceManager V} {key : ℤ × DocId} {known : Option (PresenceEntry V)}

lemma Tracks.seen (h : m.Tracks key known) : m.Tracks key (m.seen key) := by
  unfold Tracks at h ⊢
  rw [← h, settleQueued_settleQueued]

variable {now : ℤ}

lemma Tracks.setUser {patch : PresencePatch V} (h : m.Tracks key known) (hm : m.Sound)
    (hnamed : validatePayload s patch → m.NamesOnce (namespaceId, userId) patch) :
    (m.setUser s namespaceId userId patch now).Tracks key known := by
  unfold PresenceManager.setUser
  dsimp only
  cases hmerge : mergeFromPayload s patch
      ((find eqKey (namespaceId, userId) m.userState).getD
        ⟨List.replicate s.fieldCount none, now⟩).data with
  | none => exact h
  | some data =>
    have hvalid : validatePayload s patch := by
      unfold mergeFromPayload at hmerge
      split_ifs at hmerge with hboth
      exact (Bool.and_eq_true _ _ ▸ hboth).1
    unfold Tracks PresenceManager.seen
    dsimp only
    rw [find_put, find_put]
    by_cases hkey : (namespaceId, userId) = key
    · subst hkey
      rw [if_pos (KeyTest.self eqKey _), if_pos (KeyTest.self eqKey _)]
      exact settle_queue (hm.wellFormed _) (hnamed hvalid) h hmerge
    · rw [if_neg (by simpa using hkey), if_neg (by simpa using hkey)]
      exact h

lemma Sound.setUser (hm : m.Sound) {patch : PresencePatch V}
    (hnamed : validatePayload s patch → m.NamesOnce (namespaceId, userId) patch) :
    (m.setUser s namespaceId userId patch now).Sound := by
  have hsettled : ∀ key, (m.setUser s namespaceId userId patch now).Tracks key
      ((m.setUser s namespaceId userId patch now).seen key) :=
    fun key => ((hm.settled key).setUser hm hnamed).seen
  unfold PresenceManager.setUser at hsettled ⊢
  dsimp only at hsettled ⊢
  cases hmerge : mergeFromPayload s patch
      ((find eqKey (namespaceId, userId) m.userState).getD
        ⟨List.replicate s.fieldCount none, now⟩).data with
  | none => exact hm
  | some data =>
    rw [hmerge] at hsettled
    refine ⟨distinct_put eqKey hm.users, distinct_put eqKey hm.pending, fun key u hu => ?_, hsettled⟩
    dsimp only at hu
    rw [find_put] at hu
    split_ifs at hu with hkey
    · cases hu
      exact wellFormed_queue _ _
    · exact hm.wellFormed key u hu

lemma find_queueLeave {k : ℤ × DocId} (hne : key ≠ k) (pending : List ((ℤ × DocId) × PendingUserUpdate V)) :
    find eqKey k (queueLeave key pending) = find eqKey k pending := by
  have hne : ¬ eqKey key k = true := by simpa using hne
  unfold queueLeave
  split
  · rw [find_put, if_neg hne]
  · split_ifs
    · rfl
    · rw [find_remove, if_neg hne]
    · rw [find_put, if_neg hne]

variable {pending : List ((ℤ × DocId) × PendingUserUpdate V)}

lemma distinct_queueLeave (h : Distinct eqKey pending) : Distinct eqKey (queueLeave key pending) := by
  unfold queueLeave
  split
  · exact distinct_put eqKey h
  · split_ifs
    · exact h
    · exact distinct_remove eqKey h
    · exact distinct_put eqKey h

lemma wellFormed_queueLeave {k : ℤ × DocId}
    (h : ∀ u, find eqKey k pending = some u → u.WellFormed) {u : PendingUserUpdate V}
    (hu : find eqKey k (queueLeave key pending) = some u) : u.WellFormed := by
  unfold queueLeave at hu
  split at hu
  · rw [find_put] at hu
    split_ifs at hu
    · cases hu
      exact ⟨rfl, fun _ => rfl⟩
    · exact h u hu
  · split_ifs at hu
    · exact h u hu
    · rw [find_remove] at hu
      split_ifs at hu
      exact h u hu
    · rw [find_put] at hu
      split_ifs at hu
      · cases hu
        exact ⟨rfl, fun _ => rfl⟩
      · exact h u hu

lemma Tracks.removeUser (h : m.Tracks key known)
    (hjoin : key = (namespaceId, userId) → m.JoinQueued key → known = none) :
    (m.removeUser namespaceId userId now).Tracks key known := by
  unfold PresenceManager.removeUser
  cases find eqKey (namespaceId, userId) m.userState with
  | none => exact h
  | some user =>
    unfold Tracks PresenceManager.seen
    dsimp only
    rw [find_remove]
    by_cases hkey : (namespaceId, userId) = key
    · subst hkey
      rw [if_pos (KeyTest.self eqKey _)]
      exact settle_queueLeave fun u hu hn => hjoin rfl ⟨u, hu, hn⟩
    · rw [if_neg (by simpa using hkey), find_queueLeave hkey]
      exact h

lemma Sound.removeUser (hm : m.Sound) : (m.removeUser namespaceId userId now).Sound := by
  unfold PresenceManager.removeUser
  cases find eqKey (namespaceId, userId) m.userState with
  | none => exact hm
  | some user =>
    refine ⟨distinct_remove eqKey hm.users, distinct_queueLeave hm.pending,
      fun key u hu => wellFormed_queueLeave (hm.wellFormed key) hu, fun key => ?_⟩
    unfold Tracks seen
    dsimp only
    rw [find_remove]
    by_cases hkey : (namespaceId, userId) = key
    · subst hkey
      rw [if_pos (KeyTest.self eqKey _)]
      exact settle_queueLeave fun _ _ _ => rfl
    · rw [if_neg (by simpa using hkey), find_queueLeave hkey]
      exact hm.settled key

lemma userSubscribers_setUser (namespaceId : ℤ) (userId : DocId) (patch : PresencePatch V) (now : ℤ) :
    (m.setUser s namespaceId userId patch now).userSubscribers = m.userSubscribers := by
  unfold setUser
  dsimp only
  split
  · rfl
  · rfl

lemma userSubscribers_removeUser (namespaceId : ℤ) (userId : DocId) (now : ℤ) :
    (m.removeUser namespaceId userId now).userSubscribers = m.userSubscribers := by
  unfold removeUser
  split
  · rfl
  · rfl

lemma removeUser_onUnsubscribeUser (namespaceId ns : ℤ) (userId : DocId) (connId : ℕ) (now : ℤ) :
    (m.onUnsubscribeUser ns connId).removeUser namespaceId userId now =
      (m.removeUser namespaceId userId now).onUnsubscribeUser ns connId := by
  unfold removeUser onUnsubscribeUser
  dsimp only
  split
  · rfl
  · rfl

lemma Sound.of_eq {m' : PresenceManager V} (hm : m.Sound) (hu : m'.userState = m.userState)
    (hp : m'.pendingUserUpdates = m.pendingUserUpdates) : m'.Sound := by
  obtain ⟨users, pending, subscribers, emptyAt⟩ := m
  obtain ⟨users', pending', subscribers', emptyAt'⟩ := m'
  cases hu
  cases hp
  exact ⟨hm.users, hm.pending, hm.wellFormed, hm.settled⟩

lemma Tracks.of_eq {m' : PresenceManager V} (h : m.Tracks key known)
    (hu : m'.userState = m.userState) (hp : m'.pendingUserUpdates = m.pendingUserUpdates) :
    m'.Tracks key known := by
  unfold Tracks PresenceManager.seen
  rw [hu, hp]
  exact h

lemma populate_snapshot (hd : Distinct eqKey m.userState) (namespaceId : ℤ) (userId : DocId) :
    populateUserCacheFromSnapshot (m.snapshot namespaceId) userId = m.seen (namespaceId, userId) := by
  have hfold := foldl_update
    (fun (user : PresenceUser V) (_ : Option (PresenceEntry V)) =>
      some ⟨decodePresenceUserValue (encodePresenceRecord user.data), user.joinedAt⟩)
    (distinct_slice namespaceId hd) (fun _ => none) userId
  refine hfold.trans ?_
  unfold seen
  rw [find_slice]
  cases find eqKey (namespaceId, userId) m.userState with
  | none => rfl
  | some user =>
    rw [Option.elim_some, Option.map_some, Option.some.injEq]
    exact PresenceEntry.ext (funext (decode_encode _)) rfl

section Drain

variable {subscribers : List (ℤ × PresenceSubscriber)}

lemma subscribers_of_mem_groupIntoBatches
    {b : UserUpdateBatch V} (h : b ∈ groupIntoBatches subscribers pending) :
    b.subscribers = (subscribers.filter fun p => p.1 = b.namespaceId).map Prod.snd := by
  induction pending generalizing b with
  | nil => cases h
  | cons e es ih =>
    rw [groupIntoBatches] at h
    cases hes : groupIntoBatches subscribers es with
    | nil =>
      rw [hes, mem_singleton] at h
      rw [h]
    | cons c cs =>
      rw [hes] at h ih
      dsimp only at h
      split_ifs at h with hc
      · cases mem_cons.mp h with
        | inl hb =>
          have hhead : c.subscribers = _ := ih mem_cons_self
          rw [hb]
          exact hhead
        | inr hb => exact ih (mem_cons_of_mem _ hb)
      · cases mem_cons.mp h with
        | inl hb => rw [hb]
        | inr hb => exact ih hb

def told (namespaceId : ℤ) (subscriber : PresenceSubscriber) (batches : List (UserUpdateBatch V)) :
    List (DocId × PendingUserUpdate V) :=
  batches.flatMap fun b =>
    if b.namespaceId = namespaceId ∧ subscriber ∈ b.subscribers then b.updates else []

lemma told_cons (namespaceId : ℤ) (subscriber : PresenceSubscriber) (b : UserUpdateBatch V)
    (bs : List (UserUpdateBatch V)) :
    told namespaceId subscriber (b :: bs) =
      (if b.namespaceId = namespaceId ∧ subscriber ∈ b.subscribers then b.updates else []) ++
        told namespaceId subscriber bs := flatMap_cons

lemma told_groupIntoBatches {subscriber : PresenceSubscriber} (h : (namespaceId, subscriber) ∈ subscribers)
    (pending : List ((ℤ × DocId) × PendingUserUpdate V)) :
    told namespaceId subscriber (groupIntoBatches subscribers pending) = slice namespaceId pending := by
  have hmem : ∀ ns, ns = namespaceId → subscriber ∈ (subscribers.filter fun p => p.1 = ns).map Prod.snd :=
    fun ns hns => mem_map.mpr ⟨_, mem_filter.mpr ⟨h, by simp [hns]⟩, rfl⟩
  induction pending with
  | nil => rfl
  | cons e es ih =>
    have hsubs : ∀ b ∈ groupIntoBatches subscribers es, b.namespaceId = namespaceId →
        subscriber ∈ b.subscribers := fun b hb hns =>
      subscribers_of_mem_groupIntoBatches hb ▸ hmem _ hns
    rw [groupIntoBatches, slice_cons, ← ih]
    cases hes : groupIntoBatches subscribers es with
    | nil =>
      rw [told_cons]
      by_cases hns : e.1.1 = namespaceId
      · rw [if_pos ⟨hns, hmem _ hns⟩, if_pos hns]
        rfl
      · rw [if_neg fun hb => hns hb.1, if_neg hns]
        rfl
    | cons b bs =>
      dsimp only
      split_ifs with hb hns hns
      · have hbns : b.namespaceId = namespaceId := hb.trans hns
        have hsub := hsubs b (hes ▸ mem_cons_self) hbns
        rw [told_cons, told_cons, if_pos ⟨hbns, hsub⟩, if_pos ⟨hbns, hsub⟩]
        rfl
      · have hbns : b.namespaceId ≠ namespaceId := fun h => hns (hb.symm.trans h)
        rw [told_cons, told_cons, if_neg fun h => hbns h.1, if_neg fun h => hbns h.1]
      · rw [told_cons, if_pos ⟨hns, hmem _ hns⟩]
        rfl
      · rw [told_cons, if_neg fun h => hns h.1]
        rfl

lemma users_receive (topKey : ℕ → ℕ) (batches : List (UserUpdateBatch V)) (w : Watcher V) :
    (w.receive topKey batches).users =
      handlePresenceBroadcast topKey (told w.namespaceId w.subscriber batches) w.users := by
  unfold Watcher.receive
  dsimp only
  generalize w.users = users
  induction batches generalizing users with
  | nil => rfl
  | cons b bs ih =>
    rw [foldl_cons, told_cons]
    split_ifs
    · rw [ih, handlePresenceBroadcast, handlePresenceBroadcast, handlePresenceBroadcast, foldl_append]
    · exact ih users

lemma filter_droppable (hd : Distinct eqKey m.pendingUserUpdates)
    (hwf : ∀ key u, find eqKey key m.pendingUserUpdates = some u → u.WellFormed) :
    m.pendingUserUpdates.filter (fun e => !e.2.isDroppable) = m.pendingUserUpdates := by
  rw [filter_eq_self]
  intro e he
  rw [isDroppable, (hwf e.1 e.2 (find_of_mem eqKey hd he (KeyTest.self eqKey _))).leave, Bool.and_not_self]
  rfl

lemma told_drain (hd : Distinct eqKey m.pendingUserUpdates)
    (hwf : ∀ key u, find eqKey key m.pendingUserUpdates = some u → u.WellFormed)
    {subscriber : PresenceSubscriber}
    (hw : (namespaceId, subscriber) ∈ m.userSubscribers) :
    ∃ updates, told namespaceId subscriber m.drainPendingBatches.2 = updates ∧ Distinct eqKey updates ∧
      ∀ userId, find eqKey userId updates = find eqKey (namespaceId, userId) m.pendingUserUpdates := by
  have hsorted := (perm_insertionSort (fun a b => a.1.1 ≤ b.1.1) m.pendingUserUpdates).symm
  refine ⟨_, ?_, distinct_slice namespaceId (distinct_perm eqKey hd hsorted), fun userId => ?_⟩
  · rw [drainPendingBatches]
    dsimp only
    rw [filter_droppable hd hwf, told_groupIntoBatches hw]
  · rw [find_slice, ← find_perm eqKey hd hsorted]

lemma users_receive_drain (hd : Distinct eqKey m.pendingUserUpdates)
    (hwf : ∀ key u, find eqKey key m.pendingUserUpdates = some u → u.WellFormed)
    (topKey : ℕ → ℕ) {w : Watcher V}
    (hw : (w.namespaceId, w.subscriber) ∈ m.userSubscribers) (userId : DocId) :
    (w.receive topKey m.drainPendingBatches.2).users userId =
      (find eqKey (w.namespaceId, userId) m.pendingUserUpdates).elim (w.users userId)
        fun u => applyBroadcastEntry topKey u (w.users userId) := by
  obtain ⟨updates, htold, hdistinct, hfind⟩ := told_drain hd hwf hw
  rw [users_receive, htold, ← hfind]
  exact foldl_update (applyBroadcastEntry topKey) hdistinct _ _

end Drain
end PresenceManager

namespace PresenceSystem

/-- No step loses anything: a patch is not coalesced into one that names its fields twice, a queued
join is not withdrawn from subscribers that know the user, and no update names a nested property of
a user in part. -/
def Clean (s : PresenceSchema V) (sys : PresenceSystem V) : PresenceEvent V → Prop
  | .setUser namespaceId userId patch _ =>
    PresenceRecord.validatePayload s patch → sys.manager.NamesOnce (namespaceId, userId) patch
  | .removeUser namespaceId userId _ =>
    sys.manager.JoinQueued (namespaceId, userId) →
      ∀ w ∈ sys.watchers, w.namespaceId = namespaceId → w.users userId = none
  | .removeAllForConnection namespaceId userId connId _ =>
    sys.manager.JoinQueued (namespaceId, userId) →
      ∀ w ∈ sys.unwatch namespaceId connId, w.namespaceId = namespaceId → w.users userId = none
  | .drain =>
    ∀ w ∈ sys.watchers, ∀ userId u user,
      find eqKey (w.namespaceId, userId) sys.manager.pendingUserUpdates = some u →
      find eqKey (w.namespaceId, userId) sys.manager.userState = some user →
      u.isLeave = false → u.isNewUser = false →
      NamesWhole s.topKey (u.patch.getD []) user.data.slot
  | _ => True

/-- Every subscriber is its queued updates away from the users of its namespace. -/
structure Sound (sys : PresenceSystem V) : Prop where
  manager : sys.manager.Sound
  subscribed : ∀ w ∈ sys.watchers, (w.namespaceId, w.subscriber) ∈ sys.manager.userSubscribers
  tracks : ∀ w ∈ sys.watchers, ∀ userId, sys.manager.Tracks (w.namespaceId, userId) (w.users userId)

/-- Every subscriber knows exactly the users of its namespace. -/
def Converged (sys : PresenceSystem V) : Prop :=
  ∀ w ∈ sys.watchers, ∀ userId,
    w.users userId = (find eqKey (w.namespaceId, userId) sys.manager.userState).map PresenceUser.entry

variable {sys : PresenceSystem V}

lemma Sound.subscribe (h : sys.Sound) (namespaceId : ℤ) (subscriber : PresenceSubscriber) :
    (step s sys (.subscribe namespaceId subscriber)).Sound := by
  have hm : (sys.manager.onSubscribeUser namespaceId subscriber).1.Sound :=
    h.manager.of_eq rfl rfl
  refine ⟨hm, fun w hw => ?_, fun w hw userId => ?_⟩
  · cases mem_append.mp hw with
    | inl hw => exact mem_append_left _ (h.subscribed w hw)
    | inr hw =>
      cases mem_singleton.mp hw
      exact mem_append_right _ (mem_singleton_self _)
  · cases mem_append.mp hw with
    | inl hw => exact (h.tracks w hw userId).of_eq rfl rfl
    | inr hw =>
      cases mem_singleton.mp hw
      have hsnapshot : populateUserCacheFromSnapshot
          (sys.manager.onSubscribeUser namespaceId subscriber).2 userId =
            sys.manager.seen (namespaceId, userId) :=
        populate_snapshot h.manager.users namespaceId userId
      dsimp only
      rw [hsnapshot]
      exact hm.settled _

lemma Sound.unsubscribe (h : sys.Sound) (namespaceId : ℤ) (connId : ℕ) :
    (step s sys (.unsubscribe namespaceId connId)).Sound := by
  refine ⟨h.manager.of_eq rfl rfl, fun w hw => ?_, fun w hw userId => ?_⟩
  · obtain ⟨hw, hkept⟩ := mem_filter.mp hw
    exact mem_filter.mpr ⟨h.subscribed w hw, hkept⟩
  · exact (h.tracks w (mem_filter.mp hw).1 userId).of_eq rfl rfl

lemma drain_converged (h : sys.Sound) (hclean : Clean s sys .drain) : (step s sys .drain).Converged := by
  intro w' hw' userId
  obtain ⟨w, hw, rfl⟩ := mem_map.mp hw'
  have htracks := h.tracks w hw userId
  refine (users_receive_drain h.manager.pending h.manager.wellFormed s.topKey
    (h.subscribed w hw) userId).trans ?_
  change _ = sys.manager.seen (w.namespaceId, userId)
  unfold Tracks at htracks
  cases hq : find eqKey (w.namespaceId, userId) sys.manager.pendingUserUpdates with
  | none =>
    rw [hq] at htracks
    exact htracks
  | some u =>
    rw [hq] at htracks
    rw [Option.elim_some, applyBroadcastEntry_eq_settle htracks]
    · exact htracks
    · exact fun hl hn user hu => hclean w hw userId u user hq hu hl hn

lemma Sound.drain (h : sys.Sound) (hclean : Clean s sys .drain) : (step s sys .drain).Sound where
  manager := ⟨h.manager.users, List.Pairwise.nil, fun _ _ hu => (nomatch hu), fun _ => rfl⟩
  subscribed := by
    intro w' hw'
    obtain ⟨w, hw, rfl⟩ := mem_map.mp hw'
    exact h.subscribed w hw
  tracks := drain_converged h hclean

lemma Sound.removeUser (h : sys.Sound) (namespaceId : ℤ) (userId : DocId) (now : ℤ)
    (hclean : Clean s sys (.removeUser namespaceId userId now)) :
    (step s sys (.removeUser namespaceId userId now)).Sound := by
  refine ⟨h.manager.removeUser, fun w hw => ?_, fun w hw u => ?_⟩
  · dsimp only [step]
    rw [userSubscribers_removeUser]
    exact h.subscribed w hw
  · refine (h.tracks w hw u).removeUser fun hkey hjoin => ?_
    obtain ⟨hns, rfl⟩ := Prod.mk.inj hkey
    rw [hkey] at hjoin
    exact hclean hjoin w hw hns

lemma step_removeAllForConnection (namespaceId : ℤ) (userId : DocId) (connId : ℕ) (now : ℤ) :
    step s sys (.removeAllForConnection namespaceId userId connId now) =
      step s (step s sys (.unsubscribe namespaceId connId)) (.removeUser namespaceId userId now) := by
  unfold step
  dsimp only
  rw [removeUser_onUnsubscribeUser]
  rfl

lemma Sound.removeAllForConnection (h : sys.Sound) (namespaceId : ℤ) (userId : DocId) (connId : ℕ) (now : ℤ)
    (hclean : Clean s sys (.removeAllForConnection namespaceId userId connId now)) :
    (step s sys (.removeAllForConnection namespaceId userId connId now)).Sound := by
  rw [step_removeAllForConnection]
  exact (h.unsubscribe namespaceId connId).removeUser namespaceId userId now hclean

lemma Sound.step (h : sys.Sound) (e : PresenceEvent V) (hclean : Clean s sys e) :
    (step s sys e).Sound := by
  cases e with
  | setUser namespaceId userId patch now =>
    exact ⟨h.manager.setUser hclean, fun w hw => by
        dsimp only [PresenceSystem.step]
        rw [userSubscribers_setUser]
        exact h.subscribed w hw,
      fun w hw u => (h.tracks w hw u).setUser h.manager hclean⟩
  | removeUser namespaceId userId now => exact h.removeUser namespaceId userId now hclean
  | subscribe namespaceId subscriber => exact h.subscribe namespaceId subscriber
  | unsubscribe namespaceId connId => exact h.unsubscribe namespaceId connId
  | removeAllForConnection namespaceId userId connId now =>
    exact h.removeAllForConnection namespaceId userId connId now hclean
  | evictExpiredGracePeriods now =>
    exact ⟨h.manager.of_eq rfl rfl, h.subscribed, fun w hw u => (h.tracks w hw u).of_eq rfl rfl⟩
  | drain => exact h.drain hclean

lemma sound_empty : ({} : PresenceSystem V).Sound where
  manager := ⟨List.Pairwise.nil, List.Pairwise.nil, fun _ _ hu => (nomatch hu), fun _ => rfl⟩
  subscribed := fun _ hw => nomatch hw
  tracks := fun _ hw => nomatch hw

/-- After every drain of a run that loses nothing, every subscriber knows exactly the users of its
namespace. -/
theorem presence_converges (s : PresenceSchema V) (events : List (PresenceEvent V))
    (h : Along (step s) (Clean s) {} (events ++ [PresenceEvent.drain])) :
    ((events ++ [PresenceEvent.drain]).foldl (step s) {}).Converged := by
  obtain ⟨hevents, hdrain⟩ := along_append.mp h
  have hsound := hevents.invariant (fun _ e hs hclean => Sound.step hs e hclean) sound_empty
  rw [foldl_append]
  exact drain_converged hsound hdrain.1

section Batching

variable {a b : PresenceSystem V}

def place (w : Watcher V) : ℤ × PresenceSubscriber := (w.namespaceId, w.subscriber)

/-- The same users, and the same subscribers to them. -/
def Alike (a b : PresenceSystem V) : Prop :=
  a.manager.userState = b.manager.userState ∧ a.watchers.map place = b.watchers.map place

lemma Alike.unwatch (h : Alike a b) (namespaceId : ℤ) (connId : ℕ) :
    (a.unwatch namespaceId connId).map place = (b.unwatch namespaceId connId).map place := by
  have hfilter (sys : PresenceSystem V) : (sys.unwatch namespaceId connId).map place =
      (sys.watchers.map place).filter fun p => !(p.1 = namespaceId && p.2.connId = connId) := by
    rw [filter_map]
    rfl
  rw [hfilter, hfilter, h.2]

lemma Alike.removeUser (h : Alike a b) (namespaceId : ℤ) (userId : DocId) (now : ℤ) :
    Alike (step s a (.removeUser namespaceId userId now)) (step s b (.removeUser namespaceId userId now)) := by
  refine ⟨?_, h.2⟩
  dsimp only [step]
  unfold PresenceManager.removeUser
  rw [h.1]
  split
  · exact h.1
  · rfl

lemma Alike.step (h : Alike a b) (e : PresenceEvent V) : Alike (step s a e) (step s b e) := by
  have husers := h.1
  cases e with
  | setUser namespaceId userId patch now =>
    refine ⟨?_, h.2⟩
    dsimp only [PresenceSystem.step]
    unfold setUser
    dsimp only
    rw [husers]
    split
    · exact husers
    · rfl
  | removeUser namespaceId userId now => exact h.removeUser namespaceId userId now
  | subscribe namespaceId subscriber =>
    refine ⟨husers, ?_⟩
    dsimp only [PresenceSystem.step]
    rw [map_append, map_append, h.2]
    rfl
  | unsubscribe namespaceId connId => exact ⟨husers, h.unwatch namespaceId connId⟩
  | removeAllForConnection namespaceId userId connId now =>
    rw [step_removeAllForConnection, step_removeAllForConnection]
    refine Alike.removeUser ?_ namespaceId userId now
    exact ⟨husers, h.unwatch namespaceId connId⟩
  | evictExpiredGracePeriods now => exact ⟨husers, h.2⟩
  | drain =>
    refine ⟨husers, ?_⟩
    dsimp only [PresenceSystem.step]
    rw [map_map, map_map]
    exact h.2

def isDrain : PresenceEvent V → Bool
  | .drain => true
  | _ => false

lemma Alike.without_drains (h : Alike a b) (events : List (PresenceEvent V)) :
    Alike (events.foldl (PresenceSystem.step s) a)
      ((events.filter fun e => !isDrain e).foldl (PresenceSystem.step s) b) := by
  induction events generalizing a b with
  | nil => exact h
  | cons e events ih =>
    cases e with
    | drain =>
      refine ih ⟨h.1, ?_⟩
      dsimp only [PresenceSystem.step]
      rw [map_map]
      exact h.2
    | _ => exact ih (h.step _)

lemma Converged.watchers_eq (h : a.Converged) : a.watchers = (a.watchers.map place).map fun p =>
    ⟨p.1, p.2, fun userId => (find eqKey (p.1, userId) a.manager.userState).map PresenceUser.entry⟩ := by
  rw [map_map]
  conv_lhs => rw [← map_id a.watchers]
  refine map_congr_left fun w hw => ?_
  dsimp only [id, Function.comp, place]
  rw [← funext (h w hw)]

end Batching

/-- Where the broadcasts fall in a run that loses nothing makes no difference: after a last drain, the
subscribers know the same. -/
theorem drains_anywhere (s : PresenceSchema V) (events events' : List (PresenceEvent V))
    (hsame : events.filter (!isDrain ·) = events'.filter (!isDrain ·))
    (h : Along (step s) (Clean s) {} (events ++ [PresenceEvent.drain]))
    (h' : Along (step s) (Clean s) {} (events' ++ [PresenceEvent.drain])) :
    ((events ++ [PresenceEvent.drain]).foldl (step s) {}).watchers = ((events' ++ [PresenceEvent.drain]).foldl (step s) {}).watchers := by
  have hconverged (events : List (PresenceEvent V)) (h : Along (step s) (Clean s) {} (events ++ [PresenceEvent.drain])) :
      ((events ++ [PresenceEvent.drain]).foldl (step s) {}).Converged := by
    obtain ⟨hevents, hdrain⟩ := along_append.mp h
    rw [foldl_append]
    exact drain_converged (hevents.invariant (fun _ e hs hclean => Sound.step hs e hclean) sound_empty) hdrain.1
  have halike (events : List (PresenceEvent V)) := Alike.without_drains (s := s) (a := {}) ⟨rfl, rfl⟩
    (events ++ [PresenceEvent.drain])
  obtain ⟨husers, hplaces⟩ := halike events
  obtain ⟨husers', hplaces'⟩ := halike events'
  rw [filter_append, hsame, ← filter_append] at husers hplaces
  rw [(hconverged events h).watchers_eq, (hconverged events' h').watchers_eq, hplaces, hplaces', husers,
    husers']

end PresenceSystem

namespace PresenceExample

/-- Two fields, both kept under one property. -/
def cursor : PresenceSchema ℕ := ⟨2, fun _ _ => true, fun _ => 0⟩

/-- A connection subscribes while the join of the user is queued, and the user leaves before the
next broadcast. -/
def leftBehind : List (PresenceEvent ℕ) :=
  [.setUser 1 7 [(0, 3)] 10, .subscribe 1 ⟨5, 1⟩, .removeUser 1 7 20, .drain]

/-- A queued patch that names a field twice takes in a third value. -/
def namedTwice : List (PresenceEvent ℕ) :=
  [.subscribe 1 ⟨5, 1⟩, .setUser 1 7 [(0, 3), (0, 4)] 10, .setUser 1 7 [(0, 5)] 20, .drain]

/-- The second coordinate of the cursor changes after the first has been broadcast. -/
def halfMoved : List (PresenceEvent ℕ) :=
  [.subscribe 1 ⟨5, 1⟩, .setUser 1 7 [(0, 3)] 10, .drain, .setUser 1 7 [(1, 4)] 20, .drain]

/-- The subscriber keeps a user that has left, the older value of a field, and an entry without the
first coordinate. -/
theorem subscriber_diverges : ¬ (leftBehind.foldl (step cursor) {}).Converged ∧
    ¬ (namedTwice.foldl (step cursor) {}).Converged ∧
    ¬ (halfMoved.foldl (step cursor) {}).Converged := by
  refine ⟨fun h => ?_, fun h => ?_, fun h => ?_⟩
  · have hghost : some (some 3) = (none : Option (Option ℕ)) :=
      congrArg (Option.map fun e : PresenceEntry ℕ => e.data 0) (h _ (mem_cons_self ..) 7)
    cases hghost
  · have hvalue : some (some 4) = some (some 5) :=
      congrArg (Option.map fun e : PresenceEntry ℕ => e.data 0) (h _ (mem_cons_self ..) 7)
    cases hvalue
  · have hfirst : some none = some (some 3) :=
      congrArg (Option.map fun e : PresenceEntry ℕ => e.data 0) (h _ (mem_cons_self ..) 7)
    cases hfirst

/-- A connection subscribes between two updates of one broadcast. -/
theorem presence_converges_amid :
    ((([.setUser 1 7 [(0, 3)] 10, .subscribe 1 ⟨5, 1⟩, .setUser 1 7 [(1, 4)] 20] ++ [.drain] :
      List (PresenceEvent ℕ))).foldl (step cursor) {}).Converged := by
  refine presence_converges cursor
    [.setUser 1 7 [(0, 3)] 10, .subscribe 1 ⟨5, 1⟩, .setUser 1 7 [(1, 4)] 20]
    ⟨fun _ u queued hu => (nomatch hu), trivial, ?_, ?_, trivial⟩
  · intro _ u queued hu hqueued k hk
    cases hu
    cases hqueued
    cases mem_singleton.mp hk
    decide
  · intro w hw userId u user hu huser hl hn
    cases mem_singleton.mp hw
    obtain ⟨k, hk, hmem⟩ := mem_of_find eqKey hu
    cases mem_singleton.mp hmem
    cases hn

def joins : List (PresenceEvent ℕ) := [.subscribe 1 ⟨5, 1⟩, .setUser 1 7 [(0, 3), (1, 4)] 10]

/-- A broadcast that finds nothing queued comes first. -/
def drainedEarly : List (PresenceEvent ℕ) := [.subscribe 1 ⟨5, 1⟩, .drain, .setUser 1 7 [(0, 3), (1, 4)] 10]

theorem drains_anywhere_early : ((joins ++ [PresenceEvent.drain]).foldl (step cursor) {}).watchers =
    ((drainedEarly ++ [PresenceEvent.drain]).foldl (step cursor) {}).watchers := by
  have hjoin {sys : PresenceSystem ℕ} (hsys : sys.manager.pendingUserUpdates =
      [((1, 7), ⟨some [(0, 3), (1, 4)], true, 10, false⟩)]) : Clean cursor sys .drain := by
    intro w hw userId u user hu huser hl hn
    rw [hsys] at hu
    obtain ⟨k, hk, hmem⟩ := mem_of_find eqKey hu
    cases mem_singleton.mp hmem
    cases hn
  refine drains_anywhere cursor _ _ rfl ?_ ?_
  · exact ⟨trivial, fun _ _ _ hu => (by cases hu), hjoin rfl, trivial⟩
  · exact ⟨trivial, fun _ _ _ _ _ hu => (by cases hu), fun _ _ _ hu => (by cases hu), hjoin rfl, trivial⟩

end PresenceExample
end ZyncBase
