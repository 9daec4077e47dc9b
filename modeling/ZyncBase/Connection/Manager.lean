import ZyncBase.Actions.Service
import ZyncBase.Lib.Reentrancy
import ZyncBase.Subscription.Deltas

/-! The connection manager on the event loop: which operations take its mutex, and what they call, the
close handlers that sockets call back and the messages of the actions service included. -/
namespace ZyncBase

open AssocMap Reentrancy

/-- A change with the number of the transaction that committed it. -/
structure CommittedChange where
  transaction : ℕ
  change : OwnedRecordChange

/-- The cause of a delta is not part of the message. -/
inductive SendContent where
  | delta (cause : CommittedChange) (delta : StoreDelta)
  | other

structure SendEntry where
  connId : ℕ
  len : ℕ
  content : SendContent

/-- What a pass of the drain has collected for a connection. -/
structure DrainGroup where
  entries : List SendEntry := []
  bytes : ℕ := 0
  dropped : ℕ := 0
  isOver : Bool := false

def maxPendingGroupBytes : ℕ := 4 * 1024 * 1024

namespace DrainGroup

/-- A group over its limit takes no more entries. A single entry may be longer than the limit. -/
def add (g : DrainGroup) (e : SendEntry) : DrainGroup :=
  if g.isOver then { g with dropped := g.dropped + 1 }
  else
    let entries := g.entries ++ [e]
    let bytes := g.bytes + e.len
    let loneOversized := entries.length = 1 && maxPendingGroupBytes < e.len
    { g with entries, bytes, isOver := !loneOversized && maxPendingGroupBytes < bytes }

end DrainGroup

/-- What the manager reads of a session. -/
structure SocketSession where
  externalId : Bytes
  isAnonymous : Bool
  tokenExpiresAt : ℤ

structure ManagedConnection where
  session : SocketSession
  tokenExpiryNotified : Bool := false

/-- The connections by their ids, and the calls that wait in the actions service. `down` says that the
manager is deinitialized. -/
structure ConnectionManager where
  map : List (ℕ × ManagedConnection) := []
  pending : List (ℕ × PendingCall) := []
  down : Bool := false

structure ManagerConfig where
  maxConnections : ℕ
  tokenGracePeriodSeconds : ℤ

/-- What the surroundings answer to an instruction: whether the socket drops the message, whether ending
or closing it calls its close handler before it returns, whether an allocation fails, and the order in
which a hash table lists its ids. Where ids are collected, those that are left out failed to be
appended. -/
structure SocketAnswers where
  dropped : Bool := false
  calledBack : Bool := false
  failed : Bool := false
  order : List ℕ := []

/-- What handling a message may come to: a response, a close for repeated violations, a message of the
actions service to another connection, and a change of the calls that wait. -/
inductive HandlerEffect where
  | respond
  | violation
  | sendTo (connId : ℕ)
  | calls (pending : List (ℕ × PendingCall))

/-- What is done with a connection once it is acquired. -/
inductive AcquiredUse where
  | send
  | drain (g : DrainGroup)
  | resolve

inductive ManagerInstr where
  | admitOpen (connId : ℕ) (sess : SocketSession)
  | closeSocket (connId : ℕ)
  | rejectText (connId : ℕ)
  | lookup (connId : ℕ) (effects : List HandlerEffect)
  | handleMessage (connId : ℕ) (effect : HandlerEffect)
  | fetchRemove (connId : ℕ)
  | teardownSession (connId : ℕ)
  | failPending (execId : ℕ)
  | acquire (connId : ℕ) (use : AcquiredUse)
  | sendOrClose (connId : ℕ)
  | drainGroups (entries : List SendEntry)
  | sendGroup (connId : ℕ) (g : DrainGroup)
  | collect
  | disconnect (connId : ℕ)
  | sweep (now : ℤ)
  | expire (connId : ℕ) (notify close encoded : Bool)
  | forgetNotice (connId : ℕ)
  | teardownAll
  | freeMap
  | setCalls (pending : List (ℕ × PendingCall))

/-- The operations of the manager. Between them the other services may change the calls that wait. -/
inductive ManagerOperation where
  | onOpen (connId : ℕ) (sess : Option SocketSession)
  | onMessage (connId : ℕ) (binary : Bool) (effects : List HandlerEffect)
  | onClose (connId : ℕ)
  | sendToConnection (connId : ℕ)
  | resolve (connId : ℕ)
  | drainSendQueue (entries : List SendEntry)
  | sendDisconnectToAll
  | sweepExpiredTokens (now : ℤ)
  | deinit
  | calls (pending : List (ℕ × PendingCall))

namespace ConnectionManager

abbrev Instrs := List (Op ManagerInstr)

def ids (m : ConnectionManager) : List ℕ := m.map.map Prod.fst

/-- The hash table lists its ids in some order. -/
def listed (ids : List ℕ) (answers : SocketAnswers) : List ℕ :=
  if answers.order.isPerm ids then answers.order else ids

def onClose (connId : ℕ) : Instrs := [.lock, .exec (.fetchRemove connId)]

def endSocket (connId : ℕ) (answers : SocketAnswers) : Instrs :=
  if answers.calledBack then onClose connId else []

/-- The socket is ended whether or not the message reaches it. -/
def sendServerDisconnectAndClose (connId : ℕ) (answers : SocketAnswers) : Instrs :=
  endSocket connId answers

def sendDisconnectAndEnd (connId : ℕ) (answers : SocketAnswers) : Instrs :=
  endSocket connId answers

/-- A message that the socket drops ends the connection. -/
def sendOrClose (connId : ℕ) (answers : SocketAnswers) : Instrs :=
  if answers.dropped then sendServerDisconnectAndClose connId answers else []

def acquireConnection (connId : ℕ) (use : AcquiredUse) : Instrs :=
  [.lock, .exec (.acquire connId use)]

def sendToConnection (connId : ℕ) : Instrs := acquireConnection connId .send

variable (cfg : ManagerConfig)

/-- The part of `onOpen` that holds the mutex. -/
def admitOpen (connId : ℕ) (sess : SocketSession) (m : ConnectionManager) (answers : SocketAnswers) :
    ConnectionManager × Instrs :=
  if cfg.maxConnections ≤ m.map.length then (m, sendDisconnectAndEnd connId answers)
  else if answers.failed then (m, [])
  else ({ m with map := put eqKey connId { session := sess } m.map }, sendOrClose connId answers)

/-- Messages that are not binary are answered with an error. -/
def rejectText (connId : ℕ) (answers : SocketAnswers) : Instrs :=
  if answers.failed then []
  else if answers.dropped then sendDisconnectAndEnd connId answers
  else []

def handleMessage (connId : ℕ) (m : ConnectionManager) (answers : SocketAnswers) :
    HandlerEffect → ConnectionManager × Instrs
  | .respond => (m, sendOrClose connId answers)
  | .violation => (m, endSocket connId answers)
  | .sendTo other => (m, sendToConnection other)
  | .calls pending => ({ m with pending }, [])

/-- The calls of a connection are dropped, and the calls of others that it was processing fail. -/
def removeAllForConnection (connId : ℕ) (m : ConnectionManager) (answers : SocketAnswers) :
    ConnectionManager × Instrs :=
  if answers.failed then (m, [])
  else
    ({ m with pending := m.pending.filter fun e => e.2.callerConnId ≠ connId },
      (m.pending.filter fun e => e.2.callerConnId ≠ connId ∧ e.2.workerConnId = connId).map
        fun e => .exec (.failPending e.1))

def failPending (execId : ℕ) (m : ConnectionManager) (answers : SocketAnswers) : ConnectionManager × Instrs :=
  match find eqKey execId m.pending with
  | none => (m, [])
  | some p =>
    ({ m with pending := remove eqKey execId m.pending },
      if answers.failed then [] else sendToConnection p.callerConnId)

def useAcquired (connId : ℕ) : AcquiredUse → Instrs
  | .send => [.exec (.sendOrClose connId)]
  | .drain g => [.exec (.sendGroup connId g)]
  | .resolve => []

def groupOf (entries : List SendEntry) (connId : ℕ) : DrainGroup :=
  (entries.filter fun e => e.connId = connId).foldl DrainGroup.add {}

def drainGroups (entries : List SendEntry) (answers : SocketAnswers) : Instrs :=
  (listed (entries.map SendEntry.connId).dedup answers).flatMap fun connId =>
    acquireConnection connId (.drain (groupOf entries connId))

/-- A group over its limit closes its connection. A group is sent as one frame, or entry by entry when
the frame cannot be allocated. -/
def sendGroup (connId : ℕ) (g : DrainGroup) (answers : SocketAnswers) : Instrs :=
  if g.isOver then sendServerDisconnectAndClose connId answers
  else if answers.failed then g.entries.map fun _ => .exec (.sendOrClose connId)
  else [.exec (.sendOrClose connId)]

def expired (now : ℤ) (m : ConnectionManager) : List (ℕ × Bool × Bool) :=
  m.map.filterMap fun (connId, c) =>
    if c.session.isAnonymous ∨ now < c.session.tokenExpiresAt then none
    else
      let close := decide (c.session.tokenExpiresAt + cfg.tokenGracePeriodSeconds ≤ now)
      let notify := !c.tokenExpiryNotified
      if notify || close then some (connId, notify, close) else none

def setNotified (notified : Bool) (connIds : List ℕ) (m : ConnectionManager) : ConnectionManager :=
  { m with map := m.map.map fun (connId, c) =>
      (connId, if connId ∈ connIds then { c with tokenExpiryNotified := notified } else c) }

/-- The sessions that are told are marked at once; when the message cannot be encoded, the mark is
taken back. -/
def sweep (now : ℤ) (m : ConnectionManager) (answers : SocketAnswers) : ConnectionManager × Instrs :=
  let actions := answers.order.dedup.flatMap fun connId =>
    (expired cfg now m).filter fun a => a.1 = connId
  (m.setNotified true ((actions.filter fun a => a.2.1).map Prod.fst),
    .unlock :: actions.map fun a => .exec (.expire a.1 a.2.1 a.2.2 !answers.failed))

def expire (connId : ℕ) (notify close encoded : Bool) (answers : SocketAnswers) : Instrs :=
  if notify && encoded && answers.dropped then sendServerDisconnectAndClose connId answers
  else
    (if notify && !encoded && !close then [.lock, .exec (.forgetNotice connId), .unlock] else []) ++
      if close then [.exec (.disconnect connId)] else []

def exec (m : ConnectionManager) (answers : SocketAnswers) : ManagerInstr → ConnectionManager × Instrs
  | .admitOpen connId sess => admitOpen cfg connId sess m answers
  | .closeSocket connId => (m, endSocket connId answers)
  | .rejectText connId => (m, rejectText connId answers)
  | .lookup connId effects =>
    match find eqKey connId m.map with
    | none => (m, [.unlock])
    | some _ => (m, .unlock :: effects.map fun e => .exec (.handleMessage connId e))
  | .handleMessage connId effect => handleMessage connId m answers effect
  | .fetchRemove connId =>
    match find eqKey connId m.map with
    | none => (m, [.unlock])
    | some _ => ({ m with map := remove eqKey connId m.map },
        [.unlock, .exec (.teardownSession connId)])
  | .teardownSession connId => removeAllForConnection connId m answers
  | .failPending execId => failPending execId m answers
  | .acquire connId use =>
    match find eqKey connId m.map with
    | none => (m, [.unlock])
    | some _ => (m, .unlock :: useAcquired connId use)
  | .sendOrClose connId => (m, sendOrClose connId answers)
  | .drainGroups entries => (m, drainGroups entries answers)
  | .sendGroup connId g => (m, sendGroup connId g answers)
  | .collect => (m, .unlock :: (answers.order.dedup.filter (· ∈ m.ids)).map fun connId =>
      .exec (.disconnect connId))
  | .disconnect connId => (m, endSocket connId answers)
  | .sweep now => sweep cfg now m answers
  | .expire connId notify close encoded => (m, expire connId notify close encoded answers)
  | .forgetNotice connId => (m.setNotified false [connId], [])
  | .teardownAll => (m, (listed m.ids answers).map fun connId => .exec (.teardownSession connId))
  | .freeMap => ({ m with map := [], down := true }, [])
  | .setCalls pending => ({ m with pending }, [])

/-- The instructions of an operation, while there is a manager. -/
def start (m : ConnectionManager) (o : ManagerOperation) : Instrs :=
  if m.down then []
  else
    match o with
    | .onOpen connId none => [.exec (.closeSocket connId)]
    | .onOpen connId (some sess) =>
      if sess.externalId = [] then [.exec (.closeSocket connId)]
      else [.lock, .exec (.admitOpen connId sess), .unlock]
    | .onMessage connId binary effects =>
      if binary then [.lock, .exec (.lookup connId effects)] else [.exec (.rejectText connId)]
    | .onClose connId => onClose connId
    | .sendToConnection connId => sendToConnection connId
    | .resolve connId => acquireConnection connId .resolve
    | .drainSendQueue entries => [.exec (.drainGroups entries)]
    | .sendDisconnectToAll => [.lock, .exec .collect]
    | .sweepExpiredTokens now => [.lock, .exec (.sweep now)]
    | .deinit => [.lock, .exec .teardownAll, .exec .freeMap, .unlock]
    | .calls pending => [.exec (.setCalls pending)]

def program : Program ConnectionManager SocketAnswers ManagerOperation ManagerInstr where
  exec := exec cfg
  start := start

end ConnectionManager
end ZyncBase
