import ZyncBase.Actions.Registry
import ZyncBase.Connection.Resolutions

/-! The actions service on the event loop: workers register, calls are forwarded to them and answered, and
forwards of asynchronous calls are staged until they are flushed. A frame that a socket refuses closes
its connection on the spot, which ends the calls that wait for it. -/
namespace ZyncBase

open AssocMap

def defaultTimeoutMs : ℕ := 10000

def maxPendingPerConnection : ℕ := 256

def maxRetainedStagingCapacity : ℕ := 64 * 1024

/-- A call on its way to a worker; the key of its bucket is kept for reference. -/
structure Forward where
  execId : ℕ
  userDocId : DocId
  actionId : ℕ
  params : Payload
  claims : SessionClaims
  key : RegistryKey

inductive CallError where
  | actionTimeout | workerDisconnected | requestSuperseded | permissionDenied
  | schemaValidationFailed | internalError
  deriving DecidableEq, Repr

/-- What a caller is told of a synchronous call: the worker's result or error, or an error of the
server. -/
inductive ResponseBody where
  | ok (payload : Payload)
  | workerError (code message : Bytes)
  | error (e : CallError)

/-- Responses name the request of the caller; the call is kept for reference. -/
inductive Frame where
  | forward (f : Forward)
  | staged (fs : List Forward)
  | response (reqId : ℕ) (body : ResponseBody) (execId : ℕ)

def Frame.forwards : Frame → List Forward
  | forward f => [f]
  | staged fs => fs
  | response .. => []

/-- A frame that a socket has taken, with the connection as it was then. -/
structure Sent where
  connId : ℕ
  frame : Frame
  conn : Connection SessionClaims

structure PendingCall where
  callerConnId : ℕ
  workerConnId : ℕ
  reqId : ℕ
  actionId : ℕ
  scope : ActionScope
  deadlineNs : ℤ

/-- The forwards staged for a worker, in a buffer that is allocated with the first one. -/
structure StagedForwards where
  bytes : List Forward := []
  capacity : ℕ := 0
  buffer : Option ℕ := none

/-- A synchronous call that the service has taken on, and when its caller's connection was opened. -/
structure AdmittedCall where
  execId : ℕ
  call : PendingCall
  opening : ℕ

/-- The service and the connections. Exec ids are not bounded here. The last fields are kept for
reference: the frames sent, the calls taken on, the forwards staged and dropped, the buffers allocated
and released, and the entries of the outbox that were written to after their removal. -/
structure ActionServer where
  server : Server SessionClaims := {}
  registry : ActionRegistry := []
  pending : List (ℕ × PendingCall) := []
  pendingCounts : List (ℕ × ℕ) := []
  outbox : List (ℕ × StagedForwards) := []
  nextExecId : ℕ := 1
  sends : ℕ := 0
  sent : List Sent := []
  admitted : List AdmittedCall := []
  stagedIds : List ℕ := []
  droppedIds : List ℕ := []
  buffers : ℕ := 0
  released : List ℕ := []
  touched : List ℕ := []

/-- What the service runs on. `drops` says which frames a socket refuses, by the number of the send. -/
structure ActionConfig where
  scopes : ScopeConfig SessionClaims
  actions : List Action
  authConfig : AuthConfig
  size : Forward → ℕ
  growCapacity : ℕ → ℕ → ℕ
  drops : ℕ → Frame → Bool

def Connection.baseCtx (connId : ℕ) (c : Connection SessionClaims) : RequestFacts where
  connId := connId
  userDocId := c.userDocId
  externalUserId := c.session.map Session.externalId
  sessionClaims := c.session.map Session.claims
  storeNamespace := c.store.nspace
  storeNamespaceId := c.store.namespaceId
  presenceNamespace := c.presence.nspace
  presenceNamespaceId := c.presence.namespaceId

def ActionScope.isPresence : ActionScope → Bool
  | store => false
  | presence => true

def ActionScope.ofPresence (isPresence : Bool) : ActionScope := if isPresence then presence else store

/-- The claims of the session that an action asks for, in its order. -/
def forwardClaims (names : List String) (claims : Option SessionClaims) : SessionClaims :=
  names.filterMap fun name => (claims.bind (find eqKey name)).map fun value => (name, value)

def errorPair : Payload → Option (Bytes × Bytes)
  | .arr [.str code, .str message] => some (code, message)
  | _ => none

namespace ActionServer

/-- How a frame is sent to a connection. -/
abbrev Send := ℕ → Frame → ActionServer → ActionServer

def removePending (execId : ℕ) (a : ActionServer) : Option (PendingCall × ActionServer) :=
  match find eqKey execId a.pending with
  | none => none
  | some p => some (p, { a with
      pending := remove eqKey execId a.pending
      pendingCounts :=
        match find eqKey p.callerConnId a.pendingCounts with
        | none => a.pendingCounts
        | some count =>
          if count - 1 = 0 then remove eqKey p.callerConnId a.pendingCounts
          else put eqKey p.callerConnId (count - 1) a.pendingCounts })

def dropPending (execId : ℕ) (a : ActionServer) : ActionServer :=
  match a.removePending execId with
  | none => a
  | some (_, a') => a'

/-- The caller is told how its call ended, unless it has ended already. -/
def answer (send : Send) (body : ResponseBody) (execId : ℕ) (a : ActionServer) : ActionServer :=
  match a.removePending execId with
  | none => a
  | some (p, a') => send p.callerConnId (.response p.reqId body execId) a'

def dropStaged (connId : ℕ) (a : ActionServer) : ActionServer :=
  match find eqKey connId a.outbox with
  | none => a
  | some staged => { a with
      outbox := remove eqKey connId a.outbox
      droppedIds := a.droppedIds ++ staged.bytes.map Forward.execId
      released := a.released ++ staged.buffer.toList }

def unregister (connId : ℕ) (scopeFilter : Option ActionScope) (a : ActionServer) : ActionServer :=
  { a with registry := a.registry.unregister connId scopeFilter }

/-- The calls that a condition selects. -/
def execIds (p : PendingCall → Bool) (a : ActionServer) : List ℕ :=
  (a.pending.filter fun e => p e.2).map Prod.fst

/-- The connection is closed, with its session, its staged forwards, its registrations and its own
calls. -/
def detach (connId : ℕ) (a : ActionServer) : ActionServer :=
  (a.execIds fun p => p.callerConnId = connId).foldl (fun a e => a.dropPending e)
    ((({ a with server := a.server.teardownSession connId } : ActionServer).dropStaged
      connId).unregister connId none)

/-- The calls of others that the connection was processing fail. -/
def closeWith (send : Send) (connId : ℕ) (a : ActionServer) : ActionServer :=
  match a.server.map connId with
  | none => a
  | some _ =>
    (a.execIds fun p => p.callerConnId ≠ connId ∧ p.workerConnId = connId).foldl
      (fun a e => a.answer send (.error .workerDisconnected) e) (a.detach connId)

variable (cfg : ActionConfig)

/-- A frame for a connection that is open is taken by its socket, or refused, which closes it. -/
def deliver (close : ℕ → ActionServer → ActionServer) : Send := fun connId frame a =>
  match a.server.map connId with
  | none => a
  | some c =>
    if cfg.drops a.sends frame then close connId { a with sends := a.sends + 1 }
    else { a with sends := a.sends + 1, sent := a.sent ++ [⟨connId, frame, c⟩] }

/-- Closing a connection may close others, to a certain depth. -/
def closeN : ℕ → ℕ → ActionServer → ActionServer
  | 0, _, a => a
  | n + 1, connId, a => a.closeWith (deliver cfg (closeN n)) connId

/-- Every nested close ends a call, so that their number bounds the depth. -/
def onClose (connId : ℕ) (a : ActionServer) : ActionServer :=
  closeN cfg (a.pending.length + 1) connId a

def sendTo : Send := deliver cfg (onClose cfg)

section Depth

variable {cfg} {a : ActionServer}

lemma removePending_eq_some {execId : ℕ} {p : PendingCall} {a' : ActionServer}
    (h : a.removePending execId = some (p, a')) : find eqKey execId a.pending = some p ∧
      ∃ counts, a' = { a with
        pending := remove eqKey execId a.pending, pendingCounts := counts } := by
  unfold removePending at h
  cases hp : find eqKey execId a.pending with
  | none =>
    rw [hp] at h
    cases h
  | some q =>
    rw [hp] at h
    cases h
    exact ⟨rfl, _, rfl⟩

lemma length_removePending {execId : ℕ} {p : PendingCall} {a' : ActionServer}
    (h : a.removePending execId = some (p, a')) : a'.pending.length < a.pending.length := by
  obtain ⟨hfind, counts, rfl⟩ := removePending_eq_some h
  obtain ⟨execId', hid, hmem⟩ := mem_of_find eqKey hfind
  exact List.length_filter_lt_length_iff_exists.mpr ⟨_, hmem, by simp [hid]⟩

lemma length_dropPending (execId : ℕ) (a : ActionServer) :
    (a.dropPending execId).pending.length ≤ a.pending.length := by
  unfold dropPending
  cases h : a.removePending execId with
  | none => exact le_rfl
  | some r => exact (length_removePending h).le

lemma pending_dropStaged (connId : ℕ) (a : ActionServer) : (a.dropStaged connId).pending = a.pending := by
  unfold dropStaged
  cases find eqKey connId a.outbox <;> rfl

lemma length_detach (connId : ℕ) (a : ActionServer) : (a.detach connId).pending.length ≤ a.pending.length := by
  unfold detach
  refine List.foldlRecOn _ _ ?_ fun b hb e _ => (length_dropPending e b).trans hb
  exact (congrArg List.length (pending_dropStaged connId _)).le

lemma foldl_answer_congr {send send' : Send} (body : ResponseBody) (es : List ℕ) {n : ℕ}
    (hagree : ∀ connId frame (b : ActionServer), b.pending.length < n →
      send connId frame b = send' connId frame b ∧
        (send connId frame b).pending.length ≤ b.pending.length)
    (ha : a.pending.length ≤ n) :
    es.foldl (fun a e => a.answer send body e) a = es.foldl (fun a e => a.answer send' body e) a ∧
      (es.foldl (fun a e => a.answer send body e) a).pending.length ≤ a.pending.length := by
  induction es generalizing a with
  | nil => exact ⟨rfl, le_rfl⟩
  | cons e es ih =>
    rw [List.foldl_cons, List.foldl_cons]
    have hstep : a.answer send body e = a.answer send' body e ∧
        (a.answer send body e).pending.length ≤ a.pending.length := by
      unfold answer
      cases hr : a.removePending e with
      | none => exact ⟨rfl, le_rfl⟩
      | some r =>
        obtain ⟨p, a'⟩ := r
        have hlt := length_removePending hr
        obtain ⟨hsame, hlen⟩ :=
          hagree p.callerConnId (.response p.reqId body e) a' (by omega)
        exact ⟨hsame, hlen.trans hlt.le⟩
    rw [← hstep.1]
    obtain ⟨hsame, hlen⟩ := ih (hstep.2.trans ha)
    exact ⟨hsame, hlen.trans hstep.2⟩

lemma deliver_congr {close close' : ℕ → ActionServer → ActionServer} (n : ℕ)
    (hagree : ∀ connId (b : ActionServer), b.pending.length < n →
      close connId b = close' connId b ∧ (close connId b).pending.length ≤ b.pending.length)
    (connId : ℕ) (frame : Frame) (ha : a.pending.length < n) :
    deliver cfg close connId frame a = deliver cfg close' connId frame a ∧
      (deliver cfg close connId frame a).pending.length ≤ a.pending.length := by
  unfold deliver
  cases a.server.map connId with
  | none => exact ⟨rfl, le_rfl⟩
  | some c =>
    dsimp only
    split_ifs
    · exact hagree connId { a with sends := a.sends + 1 } ha
    · exact ⟨rfl, le_rfl⟩

lemma closeWith_congr {send send' : Send}
    (hagree : ∀ connId frame (b : ActionServer), b.pending.length < a.pending.length →
      send connId frame b = send' connId frame b ∧
        (send connId frame b).pending.length ≤ b.pending.length) (connId : ℕ) :
    a.closeWith send connId = a.closeWith send' connId ∧
      (a.closeWith send connId).pending.length ≤ a.pending.length := by
  unfold closeWith
  cases a.server.map connId with
  | none => exact ⟨rfl, le_rfl⟩
  | some c =>
    have hdetach := length_detach connId a
    obtain ⟨hsame, hlen⟩ := foldl_answer_congr (.error .workerDisconnected)
      (a.execIds fun p => p.callerConnId ≠ connId ∧ p.workerConnId = connId) hagree hdetach
    exact ⟨hsame, hlen.trans hdetach⟩

lemma closeN_stable {n m : ℕ} (connId : ℕ) (hn : a.pending.length < n)
    (hm : a.pending.length < m) : closeN cfg n connId a = closeN cfg m connId a ∧
      (closeN cfg n connId a).pending.length ≤ a.pending.length := by
  induction n generalizing m connId a with
  | zero => omega
  | succ n ih =>
    obtain ⟨m, rfl⟩ : ∃ k, m = k + 1 := ⟨m - 1, by omega⟩
    refine closeWith_congr (fun connId' frame b hb => ?_) connId
    refine deliver_congr a.pending.length (fun id b hb => ?_) connId' frame hb
    exact ih id (by omega) (by omega)

lemma onClose_eq (connId : ℕ) (a : ActionServer) : onClose cfg connId a = a.closeWith (sendTo cfg) connId := by
  change a.closeWith (deliver cfg (closeN cfg a.pending.length)) connId = _
  refine (closeWith_congr (fun id frame b hb => ?_) connId).1
  refine deliver_congr a.pending.length (fun id' b' hb' => ?_) id frame hb
  exact closeN_stable id' hb' (Nat.lt_succ_self _)

end Depth

section Staging

/-- The bytes of a forward are appended to the buffer of the worker, which grows when it has to. -/
def stageForward (workerConnId : ℕ) (f : Forward) (a : ActionServer) : ActionServer :=
  let staged := (find eqKey workerConnId a.outbox).getD {}
  let bytes := staged.bytes ++ [f]
  let needed := (bytes.map cfg.size).sum
  let capacity :=
    if needed ≤ staged.capacity then staged.capacity else cfg.growCapacity staged.capacity needed
  { a with
    outbox := put eqKey workerConnId { bytes, capacity, buffer := some (staged.buffer.getD a.buffers) } a.outbox
    buffers := if staged.buffer.isSome then a.buffers else a.buffers + 1
    stagedIds := a.stagedIds ++ [f.execId] }

/-- After a flush the entry is emptied, and a large buffer released. When the send has closed the
worker, the entry is not its any more: its slot is written to, and its buffer released again. -/
def clearStaged (connId : ℕ) (staged : StagedForwards) (a : ActionServer) : ActionServer :=
  let released :=
    if maxRetainedStagingCapacity < staged.capacity then a.released ++ staged.buffer.toList
    else a.released
  match find eqKey connId a.outbox with
  | none => { a with released, touched := a.touched ++ [connId] }
  | some _ => { a with
      outbox := put eqKey connId
        (if maxRetainedStagingCapacity < staged.capacity then {} else { staged with bytes := [] })
        a.outbox
      released }

/-- One frame with all that is staged for the worker. -/
def flushStaged (connId : ℕ) (staged : StagedForwards) (a : ActionServer) : ActionServer :=
  if staged.bytes.length = 0 then a
  else (sendTo cfg connId (.staged staged.bytes) a).clearStaged connId staged

def flushWorker (connId : ℕ) (a : ActionServer) : ActionServer :=
  match find eqKey connId a.outbox with
  | none => a
  | some staged => a.flushStaged cfg connId staged

/-- Entries that are removed meanwhile are not visited. -/
def flushOutbox (a : ActionServer) : ActionServer :=
  (a.outbox.map Prod.fst).foldl (fun a connId => a.flushWorker cfg connId) a

end Staging

section Calls

def addPending (execId : ℕ) (call : PendingCall) (opening : ℕ) (a : ActionServer) :
    ActionServer :=
  { a with
    pending := put eqKey execId call a.pending
    pendingCounts := put eqKey call.callerConnId
      ((find eqKey call.callerConnId a.pendingCounts).getD 0 + 1) a.pendingCounts
    admitted := a.admitted ++ [⟨execId, call, opening⟩] }

/-- A call that is authorized and valid is forwarded to the next worker, unless there is none or the
caller has too many calls waiting. -/
def forwardCall (connId : ℕ) (c : Connection SessionClaims) (reqId : ℕ) (actionId : ℕ)
    (action : Action) (info : ScopeInfo) (params : Payload) (deadlineNs : ℤ) (a : ActionServer) :
    ActionServer :=
  let key : RegistryKey := ⟨action.scope, info.namespaceId, actionId⟩
  match a.registry.pickWorker key with
  | none => a
  | some (worker, registry) =>
    let execId := a.nextExecId
    let ctx := c.baseCtx connId
    let f : Forward :=
      ⟨execId, ctx.userDocId, actionId, params, forwardClaims action.claims ctx.sessionClaims, key⟩
    let a := { a with registry, nextExecId := execId + 1 }
    if !action.isSync then a.stageForward cfg worker f
    else if maxPendingPerConnection ≤ (find eqKey connId a.pendingCounts).getD 0 then a
    else
      let call : PendingCall := ⟨connId, worker, reqId, actionId, action.scope, deadlineNs⟩
      sendTo cfg worker (.forward f) ((a.addPending execId call c.opening).flushWorker cfg worker)

def call (connId reqId actionId : ℕ) (params : Payload) (clientTimeoutMs : Option ℕ) (nowNs : ℤ)
    (a : ActionServer) : ActionServer :=
  match a.server.map connId with
  | none => a
  | some c =>
    if c.session.isNone then a
    else
      match admitCall cfg.authConfig cfg.actions (c.baseCtx connId) actionId params with
      | .error _ => a
      | .ok (action, info) =>
        let timeoutMs := (clientTimeoutMs.map (min · defaultTimeoutMs)).getD defaultTimeoutMs
        a.forwardCall cfg connId c reqId actionId action info params (nowNs + timeoutMs * 1000000)

/-- The reply of a worker to a call that still waits for it. -/
def resolveReply (workerConnId execId : ℕ) (ok : Bool) (payload : Payload) (nowNs : ℤ)
    (a : ActionServer) : ActionServer :=
  match find eqKey execId a.pending with
  | none => a
  | some p =>
    if p.workerConnId ≠ workerConnId then a
    else if p.deadlineNs ≤ nowNs then a.answer (sendTo cfg) (.error .actionTimeout) execId
    else
      match cfg.actions[p.actionId]? with
      | none => a.dropPending execId
      | some action =>
        if ok then
          match action.returns with
          | none => a.dropPending execId
          | some returns =>
            match validatePayload returns payload with
            | .error _ => a.answer (sendTo cfg) (.error .schemaValidationFailed) execId
            | .ok _ => a.answer (sendTo cfg) (.ok payload) execId
        else
          match errorPair payload with
          | none => a.answer (sendTo cfg) (.error .internalError) execId
          | some (code, message) => a.answer (sendTo cfg) (.workerError code message) execId

def answerAll (e : CallError) (p : PendingCall → Bool) (a : ActionServer) : ActionServer :=
  (a.execIds p).foldl (fun a execId => a.answer (sendTo cfg) (.error e) execId) a

/-- The deadlines that have passed are met with a timeout. -/
def sweepDeadlinesAt (nowNs : ℤ) (a : ActionServer) : ActionServer :=
  a.answerAll cfg .actionTimeout fun p => p.deadlineNs ≤ nowNs

end Calls

section Registration

/-- The keys of the actions, if the connection may register for all of them. -/
def registerKeys (ctx : RequestFacts) : List ℕ → Except RequestError (List RegistryKey)
  | [] => .ok []
  | actionId :: actionIds =>
    if 2 ^ 32 - 1 < actionId then .error .unknownAction
    else
      match cfg.actions[actionId]? with
      | none => .error .unknownAction
      | some action =>
        match scopeInfo ctx action.scope with
        | none => .error .sessionNotReady
        | some info => do
          authorizeActionRegister cfg.authConfig action info.nspace ctx
          return ⟨action.scope, info.namespaceId, actionId⟩ :: (← registerKeys ctx actionIds)

def register (connId : ℕ) (actionIds : List ℕ) (a : ActionServer) : ActionServer :=
  match a.server.map connId with
  | none => a
  | some c =>
    if c.session.isNone then a
    else
      match registerKeys cfg (c.baseCtx connId) actionIds with
      | .error _ => a
      | .ok keys => { a with registry := a.registry.register connId keys }

def mayHold (ctx : RequestFacts) (key : RegistryKey) : Bool :=
  match cfg.actions[key.actionId]? with
  | none => false
  | some action =>
    match scopeInfo ctx action.scope with
    | none => false
    | some info =>
      match authorizeActionRegister cfg.authConfig action info.nspace ctx with
      | .ok _ => true
      | .error _ => false

/-- One registration is taken back, and the calls of the action that the worker has fail. -/
def revoke (connId : ℕ) (key : RegistryKey) (a : ActionServer) : ActionServer :=
  ({ a with registry := a.registry.revoke connId key } : ActionServer).answerAll cfg
    .permissionDenied fun p => p.workerConnId = connId ∧ p.actionId = key.actionId

def reauthorizeRegistrations (connId : ℕ) (c : Connection SessionClaims) (a : ActionServer) :
    ActionServer :=
  let revoked := (a.registry.filter fun e =>
    connId ∈ e.2.workers ∧ !mayHold cfg (c.baseCtx connId) e.1).map Prod.fst
  let a := revoked.foldl (fun a key => a.revoke cfg connId key) a
  { a with registry := a.registry.pruneEmptyBuckets }

/-- A connection changes its namespace in a scope: what is staged for it is delivered, its
registrations in the scope end, and its own calls in the scope are superseded. -/
def invalidateScope (connId : ℕ) (scope : ActionScope) (a : ActionServer) : ActionServer :=
  ((a.flushWorker cfg connId).unregister connId (some scope)).answerAll cfg .requestSuperseded
    fun p => p.callerConnId = connId ∧ p.scope = scope

end Registration
end ActionServer

namespace Server

variable {Claims : Type} (cfg : ScopeConfig Claims)

/-- A change of a connection, if it is still open. -/
def updateOpen (connId : ℕ) (f : Connection Claims → Connection Claims) (st : Server Claims) : Server Claims :=
  match st.map connId with
  | none => st
  | some c => st.put connId (f c)

/-- The connection leaves its scope and waits for the new one. -/
def beginSetNamespace (connId : ℕ) (isPresence : Bool) (nspace : Bytes) (c : Connection Claims)
    (st : Server Claims) : Server Claims :=
  let left := if isPresence then st.removeAllForConnection connId c else st
  left.put connId (c.beginScopeResolution isPresence nspace)

/-- The rest of a request for a namespace, once the scope with this number waits for it. -/
def finishSetNamespace (connId : ℕ) (isPresence : Bool) (nspace : Bytes) (cache : CacheAnswer)
    (scopeSeq : ℕ) (sess : Session Claims) (opening : ℕ) (st : Server Claims) : Server Claims :=
  match cache with
  | .failed => st.updateOpen connId (·.resetScopeIfSeq scopeSeq isPresence)
  | .miss =>
    { st with resolutions :=
        st.resolutions ++ [⟨connId, scopeSeq, nspace, sess.externalId, isPresence, opening⟩] }
  | .hit scope =>
    if cfg.authorizeNamespace nspace scope.userDocId sess isPresence then
      st.updateOpen connId fun c => (c.setScopeIfSeq scopeSeq scope isPresence).getD
        (c.resetScopeIfSeq scopeSeq isPresence)
    else st.updateOpen connId (·.resetScopeIfSeq scopeSeq isPresence)

end Server

/-- What happens on the event loop. -/
inductive ActionEvent where
  | open (connId : ℕ) (sess : Session SessionClaims) (slot : ℕ)
  | setNamespace (connId : ℕ) (isPresence : Bool) (nspace : Bytes) (cache : CacheAnswer)
  | complete (i : ℕ) (answer : Option Scope)
  | authRefresh (connId : ℕ) (subject : Bytes) (claims : SessionClaims)
  | close (connId : ℕ)
  | register (connId : ℕ) (actionIds : List ℕ)
  | call (connId reqId actionId : ℕ) (params : Payload) (clientTimeoutMs : Option ℕ) (nowNs : ℤ)
  | reply (connId execId : ℕ) (ok : Bool) (payload : Payload) (nowNs : ℤ)
  | sweep (nowNs : ℤ)
  | flushOutbox

namespace ActionServer

variable (cfg : ActionConfig)

def handleSetNamespace (connId : ℕ) (isPresence : Bool) (nspace : Bytes) (cache : CacheAnswer)
    (a : ActionServer) : ActionServer :=
  match a.server.begins cfg.scopes connId nspace with
  | none => a
  | some c =>
    match c.session with
    | none => a
    | some sess =>
      let a := ({ a with server := a.server.beginSetNamespace connId isPresence nspace c } :
        ActionServer).invalidateScope cfg connId (.ofPresence isPresence)
      { a with
        server := a.server.finishSetNamespace cfg.scopes connId isPresence nspace cache
          ((c.scope isPresence).scopeSeq + 1) sess c.opening }

/-- A token of another user closes the connection. -/
def handleAuthRefresh (connId : ℕ) (subject : Bytes) (claims : SessionClaims) (a : ActionServer) :
    ActionServer :=
  match a.server.map connId with
  | none => a
  | some c =>
    if c.session.map Session.externalId = some subject then
      ({ a with server := a.server.handleAuthRefresh connId subject claims } :
        ActionServer).reauthorizeRegistrations cfg connId (c.updateSessionClaims claims)
    else a.onClose cfg connId

def step (a : ActionServer) : ActionEvent → ActionServer
  | .open connId sess slot => { a with server := a.server.onOpen connId sess slot }
  | .setNamespace connId isPresence nspace cache =>
    a.handleSetNamespace cfg connId isPresence nspace cache
  | .complete i answer => { a with server := a.server.step cfg.scopes (.complete i answer) }
  | .authRefresh connId subject claims => a.handleAuthRefresh cfg connId subject claims
  | .close connId => a.onClose cfg connId
  | .register connId actionIds => a.register cfg connId actionIds
  | .call connId reqId actionId params clientTimeoutMs nowNs =>
    a.call cfg connId reqId actionId params clientTimeoutMs nowNs
  | .reply connId execId ok payload nowNs => a.resolveReply cfg connId execId ok payload nowNs
  | .sweep nowNs => a.sweepDeadlinesAt cfg nowNs
  | .flushOutbox => a.flushOutbox cfg

end ActionServer
end ZyncBase
