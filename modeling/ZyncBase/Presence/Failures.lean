import ZyncBase.Lib.Outcome
import ZyncBase.Lib.Machine
import ZyncBase.Presence.Manager

/-! The presence worker with every allocation that its calls make, each of which may fail: what a call that
fails has undone and what it leaves behind. -/
namespace ZyncBase

open Attempt
namespace PresenceFailures

open AssocMap Machine

/-- Where a call allocates. What one pair of a patch or one batch needs counts as one allocation. -/
inductive AllocSite where
  | namespace
  | user
  | record
  | joinedNamespace
  | joined
  | decode (i : ℕ)
  | pair (i : ℕ)
  | grow
  | clone
  | append
  | grace
  | expired
  | userBatch (i : ℕ)
  | sharedBatch (i : ℕ)
  deriving DecidableEq, Repr

/-- The allocations that fail in one call. -/
abbrev Faults := AllocSite → Bool

/-- A queued update of a shared record. Its patch is gone once a batch has taken it. -/
structure SharedUpdate (V : Type) where
  patch : Option (PresencePatch V)
  sourceConn : ℕ

structure UserBatch (V : Type) where
  updates : List ((ℤ × DocId) × PendingUserUpdate V)
  subscribers : List PresenceSubscriber

structure SharedBatch (V : Type) where
  updates : List (ℤ × SharedUpdate V)
  subscribers : List PresenceSubscriber

/-- The maps of the presence manager, and the batches that it has handed out. -/
structure PresenceStore (V : Type) where
  userState : List (ℤ × List (DocId × PresenceRecord V)) := []
  userJoinedAt : List (ℤ × List (DocId × ℤ)) := []
  sharedState : List (ℤ × PresenceRecord V) := []
  namespaceEmptyAt : List (ℤ × ℤ) := []
  pendingUserUpdates : List ((ℤ × DocId) × PendingUserUpdate V) := []
  pendingSharedUpdates : List (ℤ × SharedUpdate V) := []
  userSubscribers : List (ℤ × PresenceSubscriber) := []
  sharedSubscribers : List (ℤ × PresenceSubscriber) := []
  userBatches : List (UserBatch V) := []
  sharedBatches : List (SharedBatch V) := []

section Model

variable {V : Type}

namespace PresenceStore

def userRecord (namespaceId : ℤ) (userId : DocId) (m : PresenceStore V) : Option (PresenceRecord V) :=
  (find eqKey namespaceId m.userState).bind (find eqKey userId)

def putUser (namespaceId : ℤ) (userId : DocId) (record : PresenceRecord V) (m : PresenceStore V) :
    PresenceStore V :=
  let users := (find eqKey namespaceId m.userState).getD []
  { m with userState := put eqKey namespaceId (put eqKey userId record users) m.userState }

/-- A user is taken out, with its namespace where that was made for the user. -/
def dropUser (namespaceId : ℤ) (userId : DocId) (nsCreated : Bool) (m : PresenceStore V) : PresenceStore V :=
  let users := AssocMap.remove eqKey userId ((find eqKey namespaceId m.userState).getD [])
  { m with
    userState :=
      if nsCreated && users.isEmpty then AssocMap.remove eqKey namespaceId m.userState
      else put eqKey namespaceId users m.userState }

def putJoined (namespaceId : ℤ) (userId : DocId) (now : ℤ) (m : PresenceStore V) : PresenceStore V :=
  let joined := (find eqKey namespaceId m.userJoinedAt).getD []
  { m with userJoinedAt := put eqKey namespaceId (put eqKey userId now joined) m.userJoinedAt }

def dropJoinedNamespace (namespaceId : ℤ) (m : PresenceStore V) : PresenceStore V :=
  { m with userJoinedAt := AssocMap.remove eqKey namespaceId m.userJoinedAt }

def dropJoined (namespaceId : ℤ) (userId : DocId) (m : PresenceStore V) : PresenceStore V :=
  match find eqKey namespaceId m.userJoinedAt with
  | none => m
  | some joined =>
    let rest := AssocMap.remove eqKey userId joined
    if rest.isEmpty then m.dropJoinedNamespace namespaceId
    else { m with userJoinedAt := put eqKey namespaceId rest m.userJoinedAt }

def onUnsubscribeUser (namespaceId : ℤ) (connId : ℕ) (m : PresenceStore V) : PresenceStore V :=
  { m with
    userSubscribers := m.userSubscribers.filter fun e =>
      !(e.1 = namespaceId && e.2.connId = connId) }

def onUnsubscribeShared (namespaceId : ℤ) (connId : ℕ) (m : PresenceStore V) : PresenceStore V :=
  { m with
    sharedSubscribers := m.sharedSubscribers.filter fun e =>
      !(e.1 = namespaceId && e.2.connId = connId) }

end PresenceStore

open PresenceStore

variable (fails : Faults)

def alloc (site : AllocSite) : Attempt (PresenceStore V) Unit := fun m =>
  (if fails site then none else some (), m)

/-- All values are decoded before the first slot changes. -/
def mergeFromPayload (s : PresenceSchema V) (patch : PresencePatch V) (record : PresenceRecord V) :
    Option (PresenceRecord V) :=
  if (List.range patch.length).any fun i => fails (.decode i) then none
  else record.mergeFromPayload s patch

def mergePairs (i : ℕ) (p : PresencePatch V × PresencePatch V) :
    PresencePatch V → Bool × (PresencePatch V × PresencePatch V)
  | [] => (true, p)
  | q :: source => if fails (.pair i) then (false, p) else mergePairs (i + 1) (mergePair p q) source

/-- The queued patch is changed in place, also where the merge fails; new pairs are added at the end. -/
def mergePayloadArrays (target source : PresencePatch V) : Bool × PresencePatch V :=
  let merged := mergePairs fails 0 (target, []) source
  if !merged.1 || (!merged.2.2.isEmpty && fails .grow) then (false, merged.2.1)
  else (true, merged.2.1 ++ merged.2.2)

section Users

variable (namespaceId : ℤ) (userId : DocId) (patch : PresencePatch V) (now : ℤ)

/-- The map of a namespace, and whether it was made for this call. -/
def getOrPutNamespace : Attempt (PresenceStore V) Bool := do
  let m ← read
  if (find eqKey namespaceId m.userState).isSome then return false
  else
    alloc fails .namespace
    change fun m => { m with userState := put eqKey namespaceId [] m.userState }
    return true

/-- Room for a user, and whether the user is new. -/
def getOrPutUser : Attempt (PresenceStore V) Bool := do
  let m ← read
  if (m.userRecord namespaceId userId).isSome then return false
  else
    alloc fails .user
    return true

def recordJoin : Attempt (PresenceStore V) Unit := do
  let m ← read
  if (find eqKey namespaceId m.userJoinedAt).isSome then alloc fails .joined
  else
    alloc fails .joinedNamespace
    change fun m => { m with userJoinedAt := put eqKey namespaceId [] m.userJoinedAt }
    (alloc fails .joined).onError (dropJoinedNamespace namespaceId)
  change (putJoined namespaceId userId now)

def initNewUserRecord (fieldCount : ℕ) (nsCreated : Bool) : Attempt (PresenceStore V) Unit :=
  (do
    alloc fails .record
    change (putUser namespaceId userId (List.replicate fieldCount none))
    recordJoin fails namespaceId userId now).onError
    (dropUser namespaceId userId nsCreated)

/-- The flags change once the patch has been merged or copied. -/
def coalescePendingUpdate (existing : PendingUserUpdate V) (isNewUser : Bool) :
    Attempt (PresenceStore V) Unit := do
  let update (u : PendingUserUpdate V) (m : PresenceStore V) : PresenceStore V :=
    { m with pendingUserUpdates := put eqKey (namespaceId, userId) u m.pendingUserUpdates }
  let merged ← match existing.patch with
    | some queued => do
      let merged := mergePayloadArrays fails queued patch
      change (update { existing with patch := some merged.2 })
      if merged.1 then pure merged.2 else fail
    | none => do
      alloc fails .clone
      pure patch
  change (update
    { patch := some merged
      isNewUser := existing.isNewUser || isNewUser
      joinedAt := if !existing.isNewUser && isNewUser then now else existing.joinedAt
      isLeave := false })

def queueUserUpdate (isNewUser : Bool) : Attempt (PresenceStore V) Unit := do
  let m ← read
  match find eqKey (namespaceId, userId) m.pendingUserUpdates with
  | some existing => coalescePendingUpdate fails namespaceId userId patch now existing isNewUser
  | none =>
    alloc fails .clone
    alloc fails .append
    change fun m =>
      { m with
        pendingUserUpdates := m.pendingUserUpdates ++
          [((namespaceId, userId), ⟨some patch, isNewUser, if isNewUser then now else 0, false⟩)] }

variable (s : PresenceSchema V)

def mergeUser : Attempt (PresenceStore V) Unit := do
  let m ← read
  match mergeFromPayload fails s patch ((m.userRecord namespaceId userId).getD []) with
  | none => fail
  | some record => change (putUser namespaceId userId record)

def cancelGrace : Attempt (PresenceStore V) Unit :=
  change fun m =>
    { m with namespaceEmptyAt := AssocMap.remove eqKey namespaceId m.namespaceEmptyAt }

def storeUser (isNewUser : Bool) : Attempt (PresenceStore V) Unit := do
  mergeUser fails namespaceId userId patch s
  cancelGrace namespaceId
  queueUserUpdate fails namespaceId userId patch now isNewUser

def userCleanup (nsCreated isNewUser : Bool) (m : PresenceStore V) : PresenceStore V :=
  if isNewUser then (m.dropUser namespaceId userId nsCreated).dropJoined namespaceId userId else m

def setUser : Attempt (PresenceStore V) Unit := do
  let nsCreated ← getOrPutNamespace fails namespaceId
  let isNewUser ← getOrPutUser fails namespaceId userId
  if isNewUser then initNewUserRecord fails namespaceId userId now s.fieldCount nsCreated
  (storeUser fails namespaceId userId patch now s isNewUser).onError
    (userCleanup namespaceId userId nsCreated isNewUser)

def queueLeave : Attempt (PresenceStore V) Unit := do
  let m ← read
  if (find eqKey (namespaceId, userId) m.pendingUserUpdates).isNone then alloc fails .append
  change fun m =>
    { m with
      pendingUserUpdates := PresenceManager.queueLeave (namespaceId, userId) m.pendingUserUpdates }

/-- The end of a call that has emptied the namespace. -/
def recordGrace (emptied : Bool) (m : PresenceStore V) : PresenceStore V :=
  if emptied && !fails .grace then
    { m with namespaceEmptyAt := put eqKey namespaceId now m.namespaceEmptyAt }
  else m

def removeUser : Attempt (PresenceStore V) Unit := do
  let m ← read
  if (m.userRecord namespaceId userId).isSome then
    let users := AssocMap.remove eqKey userId ((find eqKey namespaceId m.userState).getD [])
    change fun m => (m.dropUser namespaceId userId true).dropJoined namespaceId userId
    (queueLeave fails namespaceId userId).onError (recordGrace fails namespaceId now users.isEmpty)
    change (recordGrace fails namespaceId now users.isEmpty)

def removeAllForConnection (connId : ℕ) : Attempt (PresenceStore V) Unit := do
  removeUser fails namespaceId userId now
  change (onUnsubscribeUser namespaceId connId)
  change (onUnsubscribeShared namespaceId connId)

end Users

section Shared

variable (namespaceId : ℤ) (patch : PresencePatch V) (sourceConn : ℕ)

def coalesceShared (existing : SharedUpdate V) : Attempt (PresenceStore V) Unit := do
  let update (u : SharedUpdate V) (m : PresenceStore V) : PresenceStore V :=
    { m with pendingSharedUpdates := put eqKey namespaceId u m.pendingSharedUpdates }
  -- an update whose patch is gone does not get another one
  let merged ← match existing.patch with
    | some queued => do
      let merged := mergePayloadArrays fails queued patch
      change (update { existing with patch := some merged.2 })
      if merged.1 then pure (some merged.2) else fail
    | none => pure none
  change (update { patch := merged, sourceConn })

def queueSharedUpdate : Attempt (PresenceStore V) Unit := do
  let m ← read
  match find eqKey namespaceId m.pendingSharedUpdates with
  | some existing => coalesceShared fails namespaceId patch sourceConn existing
  | none =>
    alloc fails .clone
    alloc fails .append
    change fun m =>
      { m with pendingSharedUpdates := m.pendingSharedUpdates ++ [(namespaceId, ⟨some patch, sourceConn⟩)] }

def dropShared (isNew : Bool) (m : PresenceStore V) : PresenceStore V :=
  if isNew then { m with sharedState := AssocMap.remove eqKey namespaceId m.sharedState } else m

variable (s : PresenceSchema V)

def getOrPutShared : Attempt (PresenceStore V) Bool := do
  let m ← read
  if (find eqKey namespaceId m.sharedState).isSome then return false
  else
    alloc fails .namespace
    alloc fails .record
    change fun m =>
      { m with sharedState := put eqKey namespaceId (List.replicate s.fieldCount none) m.sharedState }
    return true

def mergeShared : Attempt (PresenceStore V) Unit := do
  let m ← read
  match mergeFromPayload fails s patch ((find eqKey namespaceId m.sharedState).getD []) with
  | none => fail
  | some record =>
    change fun m => { m with sharedState := put eqKey namespaceId record m.sharedState }

def storeShared : Attempt (PresenceStore V) Unit := do
  mergeShared fails namespaceId patch s
  queueSharedUpdate fails namespaceId patch sourceConn

def setShared : Attempt (PresenceStore V) Unit := do
  let isNew ← getOrPutShared fails namespaceId s
  (storeShared fails namespaceId patch sourceConn s).onError (dropShared namespaceId isNew)

end Shared

section Others

variable (namespaceId : ℤ) (subscriber : PresenceSubscriber)

def onSubscribeUser : Attempt (PresenceStore V) Unit := do
  alloc fails .clone
  alloc fails .append
  change fun m =>
    { m with userSubscribers := m.userSubscribers ++ [(namespaceId, subscriber)] }

def onSubscribeShared : Attempt (PresenceStore V) Unit := do
  alloc fails .clone
  alloc fails .append
  change fun m =>
    { m with sharedSubscribers := m.sharedSubscribers ++ [(namespaceId, subscriber)] }

/-- A namespace whose grace period is over loses its shared record. -/
def evictExpiredGracePeriods (now : ℤ) (m : PresenceStore V) : PresenceStore V :=
  if fails .expired then m
  else
    { m with
      sharedState := m.sharedState.filter fun e =>
        !(find eqKey e.1 m.namespaceEmptyAt).any fun emptyAt => 5000 ≤ now - emptyAt
      namespaceEmptyAt := m.namespaceEmptyAt.filter fun e => now - e.2 < 5000 }

/-- Neighbours of one namespace make a batch, which takes their patches. -/
def groupIntoBatches {T B : Type} (failsAt : ℕ → Bool) (taken : T → T) (batch : List T → B) (i : ℕ) :
    List (List T) → Bool × List T × List B
  | [] => (true, [], [])
  | group :: groups =>
    if failsAt i then (false, (group :: groups).flatten, [])
    else
      let rest := groupIntoBatches failsAt taken batch (i + 1) groups
      (rest.1, group.map taken ++ rest.2.1, batch group :: rest.2.2)

def subscribersOf (subscribers : List (ℤ × PresenceSubscriber)) (namespaceId : Option ℤ) :
    List PresenceSubscriber :=
  (subscribers.filter fun e => some e.1 = namespaceId).map Prod.snd

def batchUsers : Attempt (PresenceStore V) Unit := do
  let m ← read
  let grouped := groupIntoBatches (fun i => fails (.userBatch i)) (fun e => (e.1, { e.2 with patch := none }))
    (fun es => ⟨es, subscribersOf m.userSubscribers (es.head?.map fun e => e.1.1)⟩) 0
    (m.pendingUserUpdates.splitBy fun a b => a.1.1 = b.1.1)
  change fun m =>
    { m with pendingUserUpdates := grouped.2.1, userBatches := m.userBatches ++ grouped.2.2 }
  if grouped.1 then pure () else fail

def batchShared : Attempt (PresenceStore V) Unit := do
  let m ← read
  let grouped := groupIntoBatches (fun i => fails (.sharedBatch i)) (fun e => (e.1, { e.2 with patch := none }))
    (fun es => ⟨es, subscribersOf m.sharedSubscribers (es.head?.map Prod.fst)⟩) 0
    (m.pendingSharedUpdates.splitBy fun a b => a.1 = b.1)
  change fun m =>
    { m with pendingSharedUpdates := grouped.2.1, sharedBatches := m.sharedBatches ++ grouped.2.2 }
  if grouped.1 then pure () else fail

/-- What no batch has taken stays queued where the call fails. -/
def drainPendingBatches : Attempt (PresenceStore V) Unit := do
  change fun m =>
    { m with
      pendingUserUpdates := (m.pendingUserUpdates.filter fun e => !e.2.isDroppable).insertionSort
        fun a b => a.1.1 ≤ b.1.1
      pendingSharedUpdates := (m.pendingSharedUpdates.filter fun e => e.2.patch.isSome).insertionSort
        fun a b => a.1 ≤ b.1 }
  batchUsers fails
  batchShared fails
  change fun m => { m with pendingUserUpdates := [], pendingSharedUpdates := [] }

end Others

inductive PresenceCall (V : Type) where
  | setUser (namespaceId : ℤ) (userId : DocId) (patch : PresencePatch V) (now : ℤ)
  | setShared (namespaceId : ℤ) (patch : PresencePatch V) (sourceConn : ℕ)
  | removeUser (namespaceId : ℤ) (userId : DocId) (now : ℤ)
  | removeAllForConnection (namespaceId : ℤ) (userId : DocId) (connId : ℕ) (now : ℤ)
  | onSubscribeUser (namespaceId : ℤ) (subscriber : PresenceSubscriber)
  | onSubscribeShared (namespaceId : ℤ) (subscriber : PresenceSubscriber)
  | onUnsubscribeUser (namespaceId : ℤ) (connId : ℕ)
  | onUnsubscribeShared (namespaceId : ℤ) (connId : ℕ)
  | evictExpiredGracePeriods (now : ℤ)
  | drainPendingBatches

/-- A call with the allocations that fail in it. -/
abbrev Attempted (V : Type) := PresenceCall V × Faults

variable (user shared : PresenceSchema V)

def perform (e : Attempted V) : Attempt (PresenceStore V) Unit :=
  match e.1 with
  | .setUser namespaceId userId patch now => setUser e.2 namespaceId userId patch now user
  | .setShared namespaceId patch sourceConn => setShared e.2 namespaceId patch sourceConn shared
  | .removeUser namespaceId userId now => removeUser e.2 namespaceId userId now
  | .removeAllForConnection namespaceId userId connId now =>
    removeAllForConnection e.2 namespaceId userId now connId
  | .onSubscribeUser namespaceId subscriber => onSubscribeUser e.2 namespaceId subscriber
  | .onSubscribeShared namespaceId subscriber => onSubscribeShared e.2 namespaceId subscriber
  | .onUnsubscribeUser namespaceId connId =>
    change (onUnsubscribeUser namespaceId connId)
  | .onUnsubscribeShared namespaceId connId =>
    change (onUnsubscribeShared namespaceId connId)
  | .evictExpiredGracePeriods now => change (evictExpiredGracePeriods e.2 now)
  | .drainPendingBatches => drainPendingBatches e.2

/-- The state after a call, whether or not it fails. -/
def step (m : PresenceStore V) (e : Attempted V) : PresenceStore V := (perform user shared e m).2

end Model

section Conditions

variable {V : Type}

/-- The state that a presence call works on: users by namespace with their join times, shared records, grace
periods, and what is queued. -/
structure PresenceContents (V : Type) where
  users : ℤ → Option (DocId → Option (PresenceRecord V))
  joinedAt : ℤ → Option (DocId → Option ℤ)
  shared : ℤ → Option (PresenceRecord V)
  grace : ℤ → Option ℤ
  pendingUsers : List ((ℤ × DocId) × PendingUserUpdate V)
  pendingShared : List (ℤ × SharedUpdate V)

def nested {ν : Type} (m : List (ℤ × List (DocId × ν))) (namespaceId : ℤ) : Option (DocId → Option ν) :=
  (find eqKey namespaceId m).map fun users userId => find eqKey userId users

namespace PresenceStore

def contents (m : PresenceStore V) : PresenceContents V where
  users := nested m.userState
  joinedAt := nested m.userJoinedAt
  shared namespaceId := find eqKey namespaceId m.sharedState
  grace namespaceId := find eqKey namespaceId m.namespaceEmptyAt
  pendingUsers := m.pendingUserUpdates
  pendingShared := m.pendingSharedUpdates

/-- The connection has no subscription in the namespace. -/
def Unsubscribed (namespaceId : ℤ) (connId : ℕ) (m : PresenceStore V) : Prop :=
  ∀ e ∈ m.userSubscribers ++ m.sharedSubscribers, ¬ (e.1 = namespaceId ∧ e.2.connId = connId)

end PresenceStore

def LeavesAsBefore (call : Attempt (PresenceStore V) Unit) (m : PresenceStore V) : Prop :=
  (call m).1 = none → (call m).2.contents = m.contents

variable (user shared : PresenceSchema V)

/-- What is expected of a call on a state: a write that fails changes nothing, and a disconnect ends the
subscriptions of the connection in every case. -/
def Restores (m : PresenceStore V) (e : Attempted V) : Prop :=
  match e.1 with
  | .setUser .. | .setShared .. | .removeUser .. => LeavesAsBefore (perform user shared e) m
  | .removeAllForConnection namespaceId _ connId _ =>
    LeavesAsBefore (perform user shared e) m ∧ (step user shared m e).Unsubscribed namespaceId connId
  | _ => True

section Queues

variable (fails : Faults)

/-- The pairs before the first one that an allocation fails for. -/
def handled (i : ℕ) : PresencePatch V → PresencePatch V
  | [] => []
  | q :: source => if fails (.pair i) then [] else q :: handled (i + 1) source

/-- The queued pairs with the values of later pairs for the same fields. -/
def replaced (queued later : PresencePatch V) : PresencePatch V :=
  later.foldl (fun target q => if (find eqKey q.1 target).isSome then put eqKey q.1 q.2 target else target)
    queued

/-- An allocation fails for one of the pairs, or for the pairs of fields that are not queued yet. -/
def MergeFails (queued patch : PresencePatch V) : Prop :=
  handled fails 0 patch ≠ patch ∨ fails .grow ∧ ∃ q ∈ patch, find eqKey q.1 queued = none

/-- The pairs before the failure have the values that are queued already. -/
def QueueKept (queued : Option (PresencePatch V)) (patch : PresencePatch V) : Prop :=
  ∀ pairs, queued = some pairs → replaced pairs (handled fails 0 patch) = pairs

def UserQueueFails (patch : PresencePatch V) : Option (PendingUserUpdate V) → Prop
  | none => fails .clone ∨ fails .append
  | some existing =>
    match existing.patch with
    | none => fails .clone
    | some queued => MergeFails fails queued patch

def SharedQueueFails (patch : PresencePatch V) : Option (SharedUpdate V) → Prop
  | none => fails .clone ∨ fails .append
  | some existing =>
    match existing.patch with
    | none => False
    | some queued => MergeFails fails queued patch

/-- No allocation fails before the patch is merged into the record of the user. -/
def UserReady (namespaceId : ℤ) (userId : DocId) (m : PresenceStore V) : Prop :=
  (m.userRecord namespaceId userId).isSome ∨
    ((find eqKey namespaceId m.userState).isSome ∨ ¬ fails .namespace) ∧ ¬ fails .user ∧
      ¬ fails .record ∧ ((find eqKey namespaceId m.userJoinedAt).isSome ∨ ¬ fails .joinedNamespace) ∧
      ¬ fails .joined

def SharedReady (namespaceId : ℤ) (m : PresenceStore V) : Prop :=
  (find eqKey namespaceId m.sharedState).isSome ∨ ¬ fails .namespace ∧ ¬ fails .record

def LeaveQueued (namespaceId : ℤ) (userId : DocId) (m : PresenceStore V) : Prop :=
  (m.userRecord namespaceId userId).isSome →
    find eqKey (namespaceId, userId) m.pendingUserUpdates = none → ¬ fails .append

end Queues

/-- Either the record is new, and is dropped again, or the merge gives the same record. -/
def RecordKept (record : Option (PresenceRecord V)) (merged : PresenceRecord V) : Prop :=
  ∀ old, record = some old → merged = old

/-- Nothing fails where the call can no longer undo what it has done: the map of a new namespace is
followed by room for the user, a merged patch is queued unless it changes nothing that is not undone, and the
leave of a user is queued. -/
def Undoes (m : PresenceStore V) (e : Attempted V) : Prop :=
  match e.1 with
  | .setUser namespaceId userId patch _ =>
    let record := m.userRecord namespaceId userId
    let queued := find eqKey (namespaceId, userId) m.pendingUserUpdates
    ((find eqKey namespaceId m.userState).isNone → ¬ e.2 .namespace → ¬ e.2 .user) ∧
      ∀ merged, mergeFromPayload e.2 user patch (record.getD (List.replicate user.fieldCount none)) =
          some merged →
        UserReady e.2 namespaceId userId m → UserQueueFails e.2 patch queued →
        find eqKey namespaceId m.namespaceEmptyAt = none ∧ RecordKept record merged ∧
          QueueKept e.2 (queued.bind PendingUserUpdate.patch) patch
  | .setShared namespaceId patch _ =>
    let record := find eqKey namespaceId m.sharedState
    let queued := find eqKey namespaceId m.pendingSharedUpdates
    ∀ merged, mergeFromPayload e.2 shared patch
        (record.getD (List.replicate shared.fieldCount none)) = some merged →
      SharedReady e.2 namespaceId m → SharedQueueFails e.2 patch queued →
      RecordKept record merged ∧ QueueKept e.2 (queued.bind SharedUpdate.patch) patch
  | .removeUser namespaceId userId _ | .removeAllForConnection namespaceId userId _ _ =>
    LeaveQueued e.2 namespaceId userId m
  | _ => True

end Conditions

end PresenceFailures
end ZyncBase
