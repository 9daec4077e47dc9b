import Mathlib.Data.List.Sort
import ZyncBase.Lib.AssocMap
import ZyncBase.Typed.Types

/-! The user tier of presence: the records of the users of each namespace, the updates queued for
the next broadcast, one for each user, and the subscribers. -/
namespace ZyncBase

open AssocMap

/-- What the presence schema says about user fields: how many there are, which values a field
accepts, and under which property of the client's object a field is kept. -/
structure PresenceSchema (V : Type) where
  fieldCount : ℕ
  accepts : ℕ → V → Bool
  topKey : ℕ → ℕ

/-- Pairs of a field index and a value. -/
abbrev PresencePatch (V : Type) := List (ℕ × V)

/-- One slot for each field; a slot that was never set is empty. -/
abbrev PresenceRecord (V : Type) := List (Option V)

namespace PresenceRecord

variable {V : Type}

def validatePayload (s : PresenceSchema V) (patch : PresencePatch V) : Bool :=
  patch.all fun p => p.1 < s.fieldCount && s.accepts p.1 p.2

def mergeFromPayload (s : PresenceSchema V) (patch : PresencePatch V) (record : PresenceRecord V) :
    Option (PresenceRecord V) :=
  if validatePayload s patch && patch.all fun p => p.1 < record.length then
    some (patch.foldl (fun values p => values.set p.1 (some p.2)) record)
  else none

def slot (record : PresenceRecord V) (i : ℕ) : Option V := record[i]?.join

end PresenceRecord

/-- The entry of a user: `user_state` and `user_joined_at` change together and are kept as one
map. -/
structure PresenceUser (V : Type) where
  data : PresenceRecord V
  joinedAt : ℤ

/-- An update of a user that the next broadcast will carry. Only a leave has no patch. -/
structure PendingUserUpdate (V : Type) where
  patch : Option (PresencePatch V)
  isNewUser : Bool
  joinedAt : ℤ
  isLeave : Bool := false

structure PresenceSubscriber where
  connId : ℕ
  subId : ℕ
  deriving DecidableEq, Repr

structure UserUpdateBatch (V : Type) where
  namespaceId : ℤ
  updates : List (DocId × PendingUserUpdate V)
  subscribers : List PresenceSubscriber

/-- Users and pending updates are kept by namespace and user. -/
structure PresenceManager (V : Type) where
  userState : List ((ℤ × DocId) × PresenceUser V) := []
  pendingUserUpdates : List ((ℤ × DocId) × PendingUserUpdate V) := []
  userSubscribers : List (ℤ × PresenceSubscriber) := []
  namespaceEmptyAt : List (ℤ × ℤ) := []

section Pending

variable {V : Type}

/-- One pair of a later patch: it replaces the first value of its field, or is added after the
queued pairs. -/
def mergePair (p : PresencePatch V × PresencePatch V) (q : ℕ × V) : PresencePatch V × PresencePatch V :=
  if (find eqKey q.1 p.1).isSome then (put eqKey q.1 q.2 p.1, p.2) else (p.1, p.2 ++ [q])

def mergePayloadArrays (target source : PresencePatch V) : PresencePatch V :=
  let merged := source.foldl mergePair (target, [])
  merged.1 ++ merged.2

namespace PendingUserUpdate

/-- A queued update takes in another patch. An update that has become a join stays one. -/
def coalesce (patch : PresencePatch V) (isNewUser : Bool) (now : ℤ)
    (existing : PendingUserUpdate V) : PendingUserUpdate V where
  patch := some (match existing.patch with
    | some queued => mergePayloadArrays queued patch
    | none => patch)
  isNewUser := existing.isNewUser || isNewUser
  joinedAt := if !existing.isNewUser && isNewUser then now else existing.joinedAt
  isLeave := false

def queue (queued : Option (PendingUserUpdate V)) (patch : PresencePatch V) (isNewUser : Bool)
    (now : ℤ) : PendingUserUpdate V :=
  match queued with
  | some existing => existing.coalesce patch isNewUser now
  | none => ⟨some patch, isNewUser, if isNewUser then now else 0, false⟩

def isDroppable (u : PendingUserUpdate V) : Bool := u.patch.isNone && !u.isLeave

end PendingUserUpdate
end Pending

namespace PresenceManager

variable {V : Type} (s : PresenceSchema V)

def setUser (namespaceId : ℤ) (userId : DocId) (patch : PresencePatch V) (now : ℤ)
    (m : PresenceManager V) : PresenceManager V :=
  let key := (namespaceId, userId)
  let isNewUser := (find eqKey key m.userState).isNone
  let user := (find eqKey key m.userState).getD ⟨List.replicate s.fieldCount none, now⟩
  match PresenceRecord.mergeFromPayload s patch user.data with
  | none => m
  | some data =>
    let pending :=
      PendingUserUpdate.queue (find eqKey key m.pendingUserUpdates) patch isNewUser now
    { m with
      userState := put eqKey key { user with data } m.userState
      namespaceEmptyAt := AssocMap.remove eqKey namespaceId m.namespaceEmptyAt
      pendingUserUpdates := put eqKey key pending m.pendingUserUpdates }

/-- A queued join is withdrawn; anything else queued for the user becomes a leave. -/
def queueLeave (key : ℤ × DocId) (pending : List ((ℤ × DocId) × PendingUserUpdate V)) :
    List ((ℤ × DocId) × PendingUserUpdate V) :=
  match find eqKey key pending with
  | none => put eqKey key ⟨none, false, 0, true⟩ pending
  | some existing =>
    if existing.patch.isNone && existing.isLeave then pending
    else if existing.isNewUser then AssocMap.remove eqKey key pending
    else put eqKey key ⟨none, false, existing.joinedAt, true⟩ pending

def removeUser (namespaceId : ℤ) (userId : DocId) (now : ℤ) (m : PresenceManager V) : PresenceManager V :=
  match find eqKey (namespaceId, userId) m.userState with
  | none => m
  | some _ =>
    let userState := AssocMap.remove eqKey (namespaceId, userId) m.userState
    { m with
      userState
      pendingUserUpdates := queueLeave (namespaceId, userId) m.pendingUserUpdates
      namespaceEmptyAt :=
        if userState.any fun e => e.1.1 = namespaceId then m.namespaceEmptyAt
        else put eqKey namespaceId now m.namespaceEmptyAt }

def snapshot (namespaceId : ℤ) (m : PresenceManager V) : List (DocId × PresenceUser V) :=
  m.userState.filterMap fun e => if e.1.1 = namespaceId then some (e.1.2, e.2) else none

def onSubscribeUser (namespaceId : ℤ) (subscriber : PresenceSubscriber) (m : PresenceManager V) :
    PresenceManager V × List (DocId × PresenceUser V) :=
  ({ m with userSubscribers := m.userSubscribers ++ [(namespaceId, subscriber)] },
    m.snapshot namespaceId)

-- `swapRemove` also reorders the subscribers that stay; nothing depends on their order.
def onUnsubscribeUser (namespaceId : ℤ) (connId : ℕ) (m : PresenceManager V) : PresenceManager V :=
  { m with
    userSubscribers := m.userSubscribers.filter fun e =>
      !(e.1 = namespaceId && e.2.connId = connId) }

def removeAllForConnection (namespaceId : ℤ) (userId : DocId) (connId : ℕ) (now : ℤ)
    (m : PresenceManager V) : PresenceManager V :=
  (m.removeUser namespaceId userId now).onUnsubscribeUser namespaceId connId

/-- The user tier has nothing that expires. -/
def evictExpiredGracePeriods (now : ℤ) (m : PresenceManager V) : PresenceManager V :=
  { m with namespaceEmptyAt := m.namespaceEmptyAt.filter fun e => now - e.2 < 5000 }

/-- Neighbours of one namespace make a batch. -/
def groupIntoBatches (subscribers : List (ℤ × PresenceSubscriber)) :
    List ((ℤ × DocId) × PendingUserUpdate V) → List (UserUpdateBatch V)
  | [] => []
  | e :: es =>
    match groupIntoBatches subscribers es with
    | [] => [⟨e.1.1, [(e.1.2, e.2)], (subscribers.filter fun p => p.1 = e.1.1).map Prod.snd⟩]
    | b :: bs =>
      if b.namespaceId = e.1.1 then { b with updates := (e.1.2, e.2) :: b.updates } :: bs
      else ⟨e.1.1, [(e.1.2, e.2)], (subscribers.filter fun p => p.1 = e.1.1).map Prod.snd⟩ :: b :: bs

/-- The pending updates without the droppable ones, in batches by namespace. -/
def drainPendingBatches (m : PresenceManager V) : PresenceManager V × List (UserUpdateBatch V) :=
  let compacted := m.pendingUserUpdates.filter fun e => !e.2.isDroppable
  let sorted := compacted.insertionSort fun a b => a.1.1 ≤ b.1.1
  ({ m with pendingUserUpdates := [] }, groupIntoBatches m.userSubscribers sorted)

end PresenceManager
end ZyncBase
