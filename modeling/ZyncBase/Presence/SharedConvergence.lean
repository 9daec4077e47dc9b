import ZyncBase.Presence.Convergence

/-! The shared tier of presence, one record for each namespace that is evicted some time after the
last user has left, and its convergence: every copy is its queued update away from the shared record,
and after a flush that evicts no record of which there are copies it is that record. -/
namespace ZyncBase

open AssocMap List Machine PresenceRecord PendingUserUpdate

structure PendingSharedUpdate (V : Type) where
  patch : PresencePatch V
  sourceConn : ℕ

structure SharedUpdateBatch (V : Type) where
  namespaceId : ℤ
  updates : List (PendingSharedUpdate V)
  subscribers : List PresenceSubscriber

/-- The shared records beside the users of the namespaces, and the queued updates, one for each
namespace. -/
structure SharedPresenceManager (V : Type) where
  users : PresenceManager V := {}
  sharedState : List (ℤ × PresenceRecord V) := []
  pendingSharedUpdates : List (ℤ × PendingSharedUpdate V) := []
  sharedSubscribers : List (ℤ × PresenceSubscriber) := []

/-- The grace period of the namespace is over. -/
def PresenceManager.graceExpired {V : Type} (now : ℤ) (namespaceId : ℤ) (m : PresenceManager V) :
    Bool :=
  (find eqKey namespaceId m.namespaceEmptyAt).any fun emptyAt => 5000 ≤ now - emptyAt

/-- What is queued for a namespace that is set, after what was queued before. -/
def PendingSharedUpdate.queue {V : Type} (queued : Option (PendingSharedUpdate V))
    (patch : PresencePatch V) (sourceConn : ℕ) : PendingSharedUpdate V :=
  match queued with
  | some existing => ⟨mergePayloadArrays existing.patch patch, sourceConn⟩
  | none => ⟨patch, sourceConn⟩

namespace SharedPresenceManager

variable {V : Type} (shared : PresenceSchema V)

def setShared (namespaceId : ℤ) (patch : PresencePatch V) (sourceConn : ℕ)
    (m : SharedPresenceManager V) : SharedPresenceManager V :=
  let record := (find eqKey namespaceId m.sharedState).getD (List.replicate shared.fieldCount none)
  match PresenceRecord.mergeFromPayload shared patch record with
  | none => m
  | some record =>
    let pending :=
      PendingSharedUpdate.queue (find eqKey namespaceId m.pendingSharedUpdates) patch sourceConn
    { m with
      sharedState := put eqKey namespaceId record m.sharedState
      pendingSharedUpdates := put eqKey namespaceId pending m.pendingSharedUpdates }

def onSubscribeShared (namespaceId : ℤ) (subscriber : PresenceSubscriber)
    (m : SharedPresenceManager V) : SharedPresenceManager V × Option (PresenceRecord V) :=
  ({ m with sharedSubscribers := m.sharedSubscribers ++ [(namespaceId, subscriber)] },
    find eqKey namespaceId m.sharedState)

def onUnsubscribeShared (namespaceId : ℤ) (connId : ℕ) (m : SharedPresenceManager V) :
    SharedPresenceManager V :=
  { m with
    sharedSubscribers := m.sharedSubscribers.filter fun e =>
      !(e.1 = namespaceId && e.2.connId = connId) }

def removeAllForConnection (namespaceId : ℤ) (userId : DocId) (connId : ℕ) (now : ℤ)
    (m : SharedPresenceManager V) : SharedPresenceManager V :=
  { m with users := m.users.removeAllForConnection namespaceId userId connId now }.onUnsubscribeShared
    namespaceId connId

/-- The shared record of a namespace without users is dropped. What is queued for it stays. -/
def evictExpiredGracePeriods (now : ℤ) (m : SharedPresenceManager V) : SharedPresenceManager V :=
  { m with
    sharedState := m.sharedState.filter fun e => !m.users.graceExpired now e.1
    users := m.users.evictExpiredGracePeriods now }

/-- One update is queued for each namespace, and makes a batch. -/
def drainPendingBatches (m : SharedPresenceManager V) : SharedPresenceManager V × List (SharedUpdateBatch V) :=
  let sorted := m.pendingSharedUpdates.insertionSort fun a b => a.1 ≤ b.1
  ({ m with users := m.users.drainPendingBatches.1, pendingSharedUpdates := [] }, sorted.map fun e =>
      ⟨e.1, [e.2], (m.sharedSubscribers.filter fun p => p.1 = e.1).map Prod.snd⟩)

end SharedPresenceManager

open SharedPresenceManager

/-- A client's copy of the shared record, as the object that it reads, or null. -/
abbrev SharedView (V : Type) := Option (ℕ → Option V)

def applySharedUpdate {V : Type} (topKey : ℕ → ℕ) (u : PendingSharedUpdate V)
    (cache : SharedView V) : SharedView V :=
  some (spread topKey u.patch (cache.getD fun _ => none))

/-- A subscriber of a namespace with its copy. -/
structure SharedWatcher (V : Type) where
  namespaceId : ℤ
  subscriber : PresenceSubscriber
  cache : SharedView V

/-- The subscriber applies the broadcasts that are sent to it, in order. -/
def SharedWatcher.receive {V : Type} (topKey : ℕ → ℕ) (batches : List (SharedUpdateBatch V))
    (w : SharedWatcher V) : SharedWatcher V :=
  { w with
    cache := batches.foldl
      (fun cache b =>
        if b.namespaceId = w.namespaceId ∧ w.subscriber ∈ b.subscribers then
          b.updates.foldl (fun cache u => applySharedUpdate topKey u cache) cache
        else cache) w.cache }

/-- The presence worker with the subscribers of the shared tier. -/
structure SharedPresenceSystem (V : Type) where
  manager : SharedPresenceManager V := {}
  watchers : List (SharedWatcher V) := []

inductive SharedPresenceEvent (V : Type) where
  | setUser (namespaceId : ℤ) (userId : DocId) (patch : PresencePatch V) (now : ℤ)
  | removeUser (namespaceId : ℤ) (userId : DocId) (now : ℤ)
  | setShared (namespaceId : ℤ) (patch : PresencePatch V) (sourceConn : ℕ)
  | subscribeShared (namespaceId : ℤ) (subscriber : PresenceSubscriber)
  | unsubscribeShared (namespaceId : ℤ) (connId : ℕ)
  | removeAllForConnection (namespaceId : ℤ) (userId : DocId) (connId : ℕ) (now : ℤ)
  | flush (now : ℤ)

namespace SharedPresenceSystem

variable {V : Type} (user shared : PresenceSchema V)

def unwatch (namespaceId : ℤ) (connId : ℕ) (sys : SharedPresenceSystem V) : List (SharedWatcher V) :=
  sys.watchers.filter fun w => !(w.namespaceId = namespaceId && w.subscriber.connId = connId)

/-- The worker evicts, drains and dispatches in one go. -/
def flush (now : ℤ) (sys : SharedPresenceSystem V) : SharedPresenceSystem V :=
  let drained := (sys.manager.evictExpiredGracePeriods now).drainPendingBatches
  { manager := drained.1
    watchers := sys.watchers.map (SharedWatcher.receive shared.topKey drained.2) }

def step (sys : SharedPresenceSystem V) : SharedPresenceEvent V → SharedPresenceSystem V
  | .setUser namespaceId userId patch now =>
    let users := sys.manager.users.setUser user namespaceId userId patch now
    { sys with manager := { sys.manager with users } }
  | .removeUser namespaceId userId now =>
    let users := sys.manager.users.removeUser namespaceId userId now
    { sys with manager := { sys.manager with users } }
  | .setShared namespaceId patch sourceConn =>
    { sys with manager := sys.manager.setShared shared namespaceId patch sourceConn }
  | .subscribeShared namespaceId subscriber =>
    let subscribed := sys.manager.onSubscribeShared namespaceId subscriber
    { manager := subscribed.1
      watchers := sys.watchers ++ [⟨namespaceId, subscriber,
        subscribed.2.map fun record => decodePresenceUserValue (encodePresenceRecord record)⟩] }
  | .unsubscribeShared namespaceId connId =>
    { manager := sys.manager.onUnsubscribeShared namespaceId connId
      watchers := sys.unwatch namespaceId connId }
  | .removeAllForConnection namespaceId userId connId now =>
    { manager := sys.manager.removeAllForConnection namespaceId userId connId now
      watchers := sys.unwatch namespaceId connId }
  | .flush now => sys.flush shared now

end SharedPresenceSystem

open SharedPresenceSystem

variable {V : Type} {user shared : PresenceSchema V}
namespace PendingSharedUpdate

/-- What is queued for a namespace, applied to a copy with the patch merged field by field. -/
def settleQueued (queued : Option (PendingSharedUpdate V)) (known : SharedView V) : SharedView V :=
  queued.elim known fun u => applySharedUpdate id u known

variable {queued : Option (PendingSharedUpdate V)} {known : SharedView V}

lemma settleQueued_settleQueued :
    settleQueued queued (settleQueued queued known) = settleQueued queued known := by
  cases queued with
  | none => rfl
  | some u =>
    change applySharedUpdate id u (applySharedUpdate id u known) = applySharedUpdate id u known
    unfold applySharedUpdate
    rw [Option.some.injEq]
    funext i
    rw [Option.getD_some, spread_id, spread_id,
      ← Option.or_assoc, Option.or_self]

/-- After the record is set, the queued update brings a copy from what it was to the new record. -/
lemma settle_queue {patch : PresencePatch V} {sourceConn : ℕ}
    {record : Option (PresenceRecord V)} {merged : PresenceRecord V}
    (hnamed : ∀ u, queued = some u →
      ∀ k ∈ patch.map Prod.fst, (u.patch.map Prod.fst).count k ≤ 1)
    (hknown : settleQueued queued known = record.map PresenceRecord.slot)
    (hmerge : mergeFromPayload shared patch
      (record.getD (List.replicate shared.fieldCount none)) = some merged) :
    applySharedUpdate id (queue queued patch sourceConn) known = some merged.slot := by
  unfold applySharedUpdate
  rw [Option.some.injEq]
  funext i
  have hslot := slot_mergeFromPayload hmerge i
  rw [spread_id, hslot]
  cases queued with
  | none =>
    change known = _ at hknown
    subst hknown
    cases record with
    | none =>
      rw [Option.getD_none, slot_replicate]
      rfl
    | some r => rfl
  | some u =>
    cases record with
    | none => cases hknown
    | some r =>
      have hr := congrFun (Option.some.inj hknown) i
      rw [spread_id] at hr
      have hmerged := decode_mergePayloadArrays (hnamed u rfl) i
      rw [Option.getD_some, ← hr, ← Option.or_assoc, ← hmerged]
      rfl

end PendingSharedUpdate

namespace SharedPresenceManager

/-- The record as a snapshot shows it. -/
def seen (m : SharedPresenceManager V) (namespaceId : ℤ) : SharedView V :=
  (find eqKey namespaceId m.sharedState).map PresenceRecord.slot

/-- The queued update brings the copy to the record. -/
def Tracks (m : SharedPresenceManager V) (namespaceId : ℤ) (known : SharedView V) : Prop :=
  PendingSharedUpdate.settleQueued (find eqKey namespaceId m.pendingSharedUpdates) known = m.seen namespaceId

/-- What is queued changes nothing for one who has just subscribed. -/
structure Sound (m : SharedPresenceManager V) : Prop where
  pending : Distinct eqKey m.pendingSharedUpdates
  settled : ∀ namespaceId, m.Tracks namespaceId (m.seen namespaceId)

variable {m : SharedPresenceManager V} {ns : ℤ} {known : SharedView V}

lemma Tracks.seen (h : m.Tracks ns known) : m.Tracks ns (m.seen ns) := by
  unfold Tracks at h ⊢
  rw [← h, PendingSharedUpdate.settleQueued_settleQueued]

lemma Tracks.of_eq {m' : SharedPresenceManager V} (h : m.Tracks ns known) (hs : m'.sharedState = m.sharedState)
    (hp : m'.pendingSharedUpdates = m.pendingSharedUpdates) : m'.Tracks ns known := by
  unfold Tracks SharedPresenceManager.seen
  rw [hs, hp]
  exact h

lemma Sound.of_eq {m' : SharedPresenceManager V} (hm : m.Sound) (hs : m'.sharedState = m.sharedState)
    (hp : m'.pendingSharedUpdates = m.pendingSharedUpdates) : m'.Sound where
  pending := hp ▸ hm.pending
  settled namespaceId := by
    have hseen : m'.seen namespaceId = m.seen namespaceId := by
      unfold seen
      rw [hs]
    rw [hseen]
    exact (hm.settled namespaceId).of_eq hs hp

/-- The queued patch of the namespace does not name a field of the new patch twice. -/
def NamesOnce (m : SharedPresenceManager V) (namespaceId : ℤ) (patch : PresencePatch V) : Prop :=
  ∀ u, find eqKey namespaceId m.pendingSharedUpdates = some u →
    ∀ k ∈ patch.map Prod.fst, (u.patch.map Prod.fst).count k ≤ 1

variable {namespaceId : ℤ} {patch : PresencePatch V} {sourceConn : ℕ}

lemma Tracks.setShared (h : m.Tracks ns known)
    (hnamed : validatePayload shared patch → m.NamesOnce namespaceId patch) :
    (m.setShared shared namespaceId patch sourceConn).Tracks ns known := by
  unfold SharedPresenceManager.setShared
  dsimp only
  cases hmerge : mergeFromPayload shared patch
      ((find eqKey namespaceId m.sharedState).getD (List.replicate shared.fieldCount none)) with
  | none => exact h
  | some merged =>
    have hvalid : validatePayload shared patch := by
      unfold mergeFromPayload at hmerge
      split_ifs at hmerge with hboth
      exact (Bool.and_eq_true _ _ ▸ hboth).1
    unfold Tracks SharedPresenceManager.seen
    dsimp only
    rw [find_put, find_put]
    by_cases hns : namespaceId = ns
    · subst hns
      rw [if_pos (KeyTest.self eqKey _), if_pos (KeyTest.self eqKey _)]
      exact PendingSharedUpdate.settle_queue (hnamed hvalid) h hmerge
    · rw [if_neg (by simpa using hns), if_neg (by simpa using hns)]
      exact h

lemma Sound.setShared (hm : m.Sound)
    (hnamed : validatePayload shared patch → m.NamesOnce namespaceId patch) :
    (m.setShared shared namespaceId patch sourceConn).Sound where
  pending := by
    unfold SharedPresenceManager.setShared
    dsimp only
    split
    · exact hm.pending
    · exact distinct_put eqKey hm.pending
  settled ns := ((hm.settled ns).setShared hnamed).seen

lemma seen_evict {now : ℤ} (h : m.users.graceExpired now ns → find eqKey ns m.sharedState = none) :
    (m.evictExpiredGracePeriods now).seen ns = m.seen ns := by
  unfold seen evictExpiredGracePeriods
  dsimp only
  have hkeys : ∀ a b : ℤ, eqKey a b → (!m.users.graceExpired now a) = !m.users.graceExpired now b :=
    fun a b hab => by rw [(eqKey_iff a b).mp hab]
  rw [find_filter eqKey (fun a => !m.users.graceExpired now a) hkeys]
  cases he : m.users.graceExpired now ns with
  | false => rfl
  | true => rw [h he]; rfl

lemma receive_drain (hpending : Distinct eqKey m.pendingSharedUpdates) (topKey : ℕ → ℕ)
    {w : SharedWatcher V} (hw : (w.namespaceId, w.subscriber) ∈ m.sharedSubscribers) :
    (w.receive topKey m.drainPendingBatches.2).cache =
      (find eqKey w.namespaceId m.pendingSharedUpdates).elim w.cache fun u =>
        applySharedUpdate topKey u w.cache := by
  have hsorted := (perm_insertionSort (fun a b => a.1 ≤ b.1) m.pendingSharedUpdates).symm
  have hdistinct := distinct_perm eqKey hpending hsorted
  rw [find_perm eqKey hpending hsorted, ← foldl_at (applySharedUpdate topKey) hdistinct]
  unfold SharedWatcher.receive drainPendingBatches
  dsimp only
  rw [foldl_map]
  congr 1
  funext cache e
  have hmem : e.1 = w.namespaceId →
      w.subscriber ∈ (m.sharedSubscribers.filter fun p => p.1 = e.1).map Prod.snd :=
    fun he => mem_map.mpr ⟨_, mem_filter.mpr ⟨hw, by simp [he]⟩, rfl⟩
  by_cases he : e.1 = w.namespaceId
  · rw [if_pos ⟨he, hmem he⟩, if_pos he]
    rfl
  · rw [if_neg fun h => he h.1, if_neg he]

end SharedPresenceManager

namespace SharedPresenceSystem

/-- No step loses anything: a patch is not coalesced into one that names its fields twice, no record
is evicted of which there are copies, and no update names a nested property of the record in
part. -/
def Clean (shared : PresenceSchema V) (sys : SharedPresenceSystem V) : SharedPresenceEvent V → Prop
  | .setShared namespaceId patch _ =>
    PresenceRecord.validatePayload shared patch → sys.manager.NamesOnce namespaceId patch
  | .flush now =>
    ∀ w ∈ sys.watchers, ∀ record, find eqKey w.namespaceId sys.manager.sharedState = some record →
      sys.manager.users.graceExpired now w.namespaceId = false ∧
      ∀ u, find eqKey w.namespaceId sys.manager.pendingSharedUpdates = some u →
        NamesWhole shared.topKey u.patch record.slot
  | _ => True

/-- Every copy is its queued update away from the record of its namespace. -/
structure Sound (sys : SharedPresenceSystem V) : Prop where
  manager : sys.manager.Sound
  subscribed : ∀ w ∈ sys.watchers, (w.namespaceId, w.subscriber) ∈ sys.manager.sharedSubscribers
  tracks : ∀ w ∈ sys.watchers, sys.manager.Tracks w.namespaceId w.cache

/-- Every copy is the record of its namespace, or null if there is none. -/
def Converged (sys : SharedPresenceSystem V) : Prop :=
  ∀ w ∈ sys.watchers, w.cache = (find eqKey w.namespaceId sys.manager.sharedState).map PresenceRecord.slot

variable {sys : SharedPresenceSystem V}

lemma Sound.of_users (h : sys.Sound) (users : PresenceManager V) :
    Sound { sys with manager := { sys.manager with users } } where
  manager := h.manager.of_eq rfl rfl
  subscribed := h.subscribed
  tracks := fun w hw => (h.tracks w hw).of_eq rfl rfl

lemma Sound.subscribeShared (h : sys.Sound) (namespaceId : ℤ) (subscriber : PresenceSubscriber) :
    (step user shared sys (.subscribeShared namespaceId subscriber)).Sound := by
  have hm : (sys.manager.onSubscribeShared namespaceId subscriber).1.Sound :=
    h.manager.of_eq rfl rfl
  refine ⟨hm, fun w hw => ?_, fun w hw => ?_⟩
  · cases mem_append.mp hw with
    | inl hw => exact mem_append_left _ (h.subscribed w hw)
    | inr hw =>
      cases mem_singleton.mp hw
      exact mem_append_right _ (mem_singleton_self _)
  · cases mem_append.mp hw with
    | inl hw => exact (h.tracks w hw).of_eq rfl rfl
    | inr hw =>
      cases mem_singleton.mp hw
      have hsnapshot : (find eqKey namespaceId sys.manager.sharedState).map
          (fun record => decodePresenceUserValue (encodePresenceRecord record)) =
            sys.manager.seen namespaceId := by
        unfold seen
        congr 1
        funext record i
        exact decode_encode record i
      change (sys.manager.onSubscribeShared namespaceId subscriber).1.Tracks namespaceId
        ((find eqKey namespaceId sys.manager.sharedState).map _)
      rw [hsnapshot]
      exact hm.settled namespaceId

lemma Sound.unsubscribeShared (h : sys.Sound) (namespaceId : ℤ) (connId : ℕ) :
    (step user shared sys (.unsubscribeShared namespaceId connId)).Sound := by
  refine ⟨h.manager.of_eq rfl rfl, fun w hw => ?_, fun w hw => ?_⟩
  · obtain ⟨hw, hkept⟩ := mem_filter.mp hw
    exact mem_filter.mpr ⟨h.subscribed w hw, hkept⟩
  · exact (h.tracks w (mem_filter.mp hw).1).of_eq rfl rfl

lemma flush_converged (h : sys.Sound) {now : ℤ} (hclean : Clean shared sys (.flush now)) :
    (sys.flush shared now).Converged := by
  intro w' hw'
  obtain ⟨w, hw, rfl⟩ := mem_map.mp hw'
  have htracks := h.tracks w hw
  have hseen : (sys.manager.evictExpiredGracePeriods now).seen w.namespaceId =
      sys.manager.seen w.namespaceId := by
    refine seen_evict fun hexpired => ?_
    cases hstate : find eqKey w.namespaceId sys.manager.sharedState with
    | none => rfl
    | some record =>
      rw [(hclean w hw record hstate).1] at hexpired
      cases hexpired
  change _ = (sys.manager.evictExpiredGracePeriods now).seen w.namespaceId
  rw [hseen]
  refine (receive_drain (m := sys.manager.evictExpiredGracePeriods now)
    h.manager.pending shared.topKey (h.subscribed w hw)).trans ?_
  unfold Tracks PendingSharedUpdate.settleQueued at htracks
  change (find eqKey w.namespaceId sys.manager.pendingSharedUpdates).elim _ _ = _
  rw [← htracks]
  cases hq : find eqKey w.namespaceId sys.manager.pendingSharedUpdates with
  | none => rfl
  | some u =>
    rw [hq] at htracks
    -- the copy has no other fields in the properties that the update names
    cases hstate : find eqKey w.namespaceId sys.manager.sharedState with
    | none =>
      unfold seen at htracks
      rw [hstate] at htracks
      cases htracks
    | some record =>
      have hwhole := (hclean w hw record hstate).2 u hq
      unfold seen at htracks
      rw [hstate] at htracks
      have hset : ∀ i, ((w.cache.getD fun _ => none) i).isSome → (record.slot i).isSome := by
        intro i hi
        have hi' := congrFun (Option.some.inj htracks) i
        rw [spread_id] at hi'
        rw [← hi', Option.isSome_or, Bool.or_eq_true]
        exact .inr hi
      exact congrArg some (spread_eq_spread_id fun i hi hk => hwhole i (hset i hi) hk)

lemma Sound.step (h : sys.Sound) (e : SharedPresenceEvent V) (hclean : Clean shared sys e) :
    (step user shared sys e).Sound := by
  cases e with
  | setUser namespaceId userId patch now => exact h.of_users _
  | removeUser namespaceId userId now => exact h.of_users _
  | setShared namespaceId patch sourceConn =>
    refine ⟨h.manager.setShared hclean, fun w hw => ?_, fun w hw => (h.tracks w hw).setShared hclean⟩
    have hsubscribers : (sys.manager.setShared shared namespaceId patch sourceConn).sharedSubscribers =
        sys.manager.sharedSubscribers := by
      unfold setShared
      dsimp only
      split
      · rfl
      · rfl
    dsimp only [SharedPresenceSystem.step]
    rw [hsubscribers]
    exact h.subscribed w hw
  | subscribeShared namespaceId subscriber => exact h.subscribeShared namespaceId subscriber
  | unsubscribeShared namespaceId connId => exact h.unsubscribeShared namespaceId connId
  | removeAllForConnection namespaceId userId connId now =>
    exact @Sound.unsubscribeShared V user shared _ (h.of_users _) namespaceId connId
  | flush now =>
    refine ⟨⟨List.Pairwise.nil, fun _ => rfl⟩, fun w' hw' => ?_, flush_converged h hclean⟩
    obtain ⟨w, hw, rfl⟩ := mem_map.mp hw'
    exact h.subscribed w hw

lemma sound_empty : ({} : SharedPresenceSystem V).Sound where
  manager := ⟨List.Pairwise.nil, fun _ => rfl⟩
  subscribed := fun _ hw => nomatch hw
  tracks := fun _ hw => nomatch hw

/-- After every flush of a run that loses nothing, every copy is the record of its namespace. -/
theorem shared_converges (user shared : PresenceSchema V) (events : List (SharedPresenceEvent V)) (now : ℤ)
    (h : Along (step user shared) (Clean shared) {} (events ++ [SharedPresenceEvent.flush now])) :
    ((events ++ [SharedPresenceEvent.flush now]).foldl (step user shared) {}).Converged := by
  obtain ⟨hevents, hflush⟩ := along_append.mp h
  have hsound := hevents.invariant (fun _ e hs hclean => Sound.step hs e hclean) sound_empty
  rw [List.foldl_append]
  exact flush_converged hsound hflush.1

end SharedPresenceSystem

namespace SharedPresenceExample

open PresenceExample

def slides : PresenceSchema ℕ := ⟨2, fun _ _ => true, id⟩

/-- A copy is taken, the only user leaves, and the record is evicted. -/
def evicted : List (SharedPresenceEvent ℕ) :=
  [.setShared 1 [(0, 3)] 5, .subscribeShared 1 ⟨5, 1⟩, .setUser 1 7 [] 0, .removeUser 1 7 10, .flush 6000]

/-- The record is evicted and written again before the next flush. -/
def rewritten : List (SharedPresenceEvent ℕ) := evicted ++ [.setShared 1 [(1, 4)] 5, .flush 6010]

/-- The record is evicted while an update of it is queued. -/
def evictedQueued : List (SharedPresenceEvent ℕ) :=
  [.subscribeShared 1 ⟨5, 1⟩, .setUser 1 7 [] 0, .removeUser 1 7 10, .setShared 1 [(0, 3)] 5, .flush 6000]

/-- The queued patch names a field twice when it takes in a third value. -/
def sharedTwice : List (SharedPresenceEvent ℕ) :=
  [.subscribeShared 1 ⟨5, 1⟩, .setShared 1 [(0, 3), (0, 4)] 5, .setShared 1 [(0, 5)] 5, .flush 10]

/-- The second coordinate changes after the first has been broadcast. -/
def sharedHalf : List (SharedPresenceEvent ℕ) :=
  [.subscribeShared 1 ⟨5, 1⟩, .setShared 1 [(0, 3)] 5, .flush 10, .setShared 1 [(1, 4)] 5, .flush 20]

/-- The value of a field in the copies, and in the records as subscribers should see them. -/
def copies (i : ℕ) (sys : SharedPresenceSystem ℕ) : List (Option (Option ℕ) × Option (Option ℕ)) :=
  sys.watchers.map fun w => (w.cache.map (· i),
    (find eqKey w.namespaceId sys.manager.sharedState).map fun record => record.slot i)

lemma copies_of_converged {sys : SharedPresenceSystem ℕ} (h : sys.Converged) (i : ℕ) :
    ∀ p ∈ copies i sys, p.1 = p.2 := by
  intro p hp
  obtain ⟨w, hw, rfl⟩ := mem_map.mp hp
  dsimp only
  rw [h w hw, Option.map_map]
  rfl

/-- The copy keeps the evicted record, or fields of it beside the new ones, or holds an update of a
record that is gone; it keeps the older value of a field, and loses the first coordinate. -/
theorem copy_diverges : ¬ (evicted.foldl (step cursor slides) {}).Converged ∧
    ¬ (rewritten.foldl (step cursor slides) {}).Converged ∧
    ¬ (evictedQueued.foldl (step cursor slides) {}).Converged ∧
    ¬ (sharedTwice.foldl (step cursor slides) {}).Converged ∧
    ¬ (sharedHalf.foldl (step cursor cursor) {}).Converged := by
  refine ⟨fun h => ?_, fun h => ?_, fun h => ?_, fun h => ?_, fun h => ?_⟩
  · exact absurd (copies_of_converged h 0) (by decide)
  · exact absurd (copies_of_converged h 0) (by decide)
  · exact absurd (copies_of_converged h 0) (by decide)
  · exact absurd (copies_of_converged h 0) (by decide)
  · exact absurd (copies_of_converged h 0) (by decide)

/-- A connection subscribes between two updates of one flush. -/
theorem shared_converges_amid :
    (([.setShared 1 [(0, 3)] 5, .subscribeShared 1 ⟨5, 1⟩, .setShared 1 [(1, 4)] 5] ++
      [.flush 10] : List (SharedPresenceEvent ℕ)).foldl
        (step cursor cursor) {}).Converged := by
  refine shared_converges cursor cursor
    [.setShared 1 [(0, 3)] 5, .subscribeShared 1 ⟨5, 1⟩, .setShared 1 [(1, 4)] 5] 10
    ⟨fun _ u hu => (nomatch hu), trivial, ?_, ?_, trivial⟩
  · intro _ u hu k hk
    cases hu
    cases List.mem_singleton.mp hk
    decide
  · intro w hw record hrecord
    cases List.mem_singleton.mp hw
    refine ⟨rfl, fun u hu => ?_⟩
    cases hrecord
    cases hu
    intro i hi _
    match i with
    | 0 => decide
    | 1 => decide
    | i + 2 => cases hi

end SharedPresenceExample
end ZyncBase
