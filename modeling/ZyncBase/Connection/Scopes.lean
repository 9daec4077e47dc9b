import ZyncBase.Lib.Machine
import ZyncBase.Storage.IdentityCache

/-! The server's connections, each with its session, its store and presence scopes and the one user id
that both share. They are opened and closed, ask for store and presence namespaces, which are resolved
at once from the caches or later by the write worker, and write under the user id of the connection. -/
namespace ZyncBase

def unsetNamespaceId : ℤ := -1

structure Session (Claims : Type) where
  externalId : Bytes
  claims : Claims

/-- The fields that a connection has once for the store and once for presence. Sequence numbers are
not bounded here. -/
structure ScopeState where
  nspace : Option Bytes := none
  pendingNspace : Option Bytes := none
  namespaceId : ℤ := unsetNamespaceId
  ready : Bool := false
  scopeSeq : ℕ := 0
  deriving DecidableEq, Repr

/-- `opening` counts the connections opened before this one, for reference. -/
structure Connection (Claims : Type) where
  session : Option (Session Claims) := none
  store : ScopeState := {}
  presence : ScopeState := {}
  userDocId : DocId := 0
  opening : ℕ := 0

namespace ScopeState

def reset (sc : ScopeState) : ScopeState := { scopeSeq := sc.scopeSeq + 1 }

def begin (nspace : Bytes) (sc : ScopeState) : ScopeState :=
  { sc.reset with pendingNspace := some nspace }

def install (namespaceId : ℤ) (sc : ScopeState) : ScopeState :=
  { sc with nspace := sc.pendingNspace, pendingNspace := none, namespaceId, ready := true }

/-- The namespaces that the scope is in or on its way to. -/
def names (sc : ScopeState) : List Bytes := sc.nspace.toList ++ sc.pendingNspace.toList

end ScopeState

namespace Connection

variable {Claims : Type}

def scope (isPresence : Bool) (c : Connection Claims) : ScopeState :=
  if isPresence then c.presence else c.store

def withScope (isPresence : Bool) (sc : ScopeState) (userDocId : DocId) (c : Connection Claims) :
    Connection Claims :=
  if isPresence then { c with presence := sc, userDocId } else { c with store := sc, userDocId }

def resetScope (isPresence : Bool) (c : Connection Claims) : Connection Claims :=
  c.withScope isPresence (c.scope isPresence).reset (if isPresence then c.userDocId else 0)

def resetSession (c : Connection Claims) : Connection Claims :=
  resetScope true (resetScope false { c with session := none })

def setSession (sess : Session Claims) (c : Connection Claims) : Connection Claims :=
  resetScope true (resetScope false { c with session := some sess })

def updateSessionClaims (claims : Claims) (c : Connection Claims) : Connection Claims :=
  { c with session := c.session.map fun sess => { sess with claims } }

def beginScopeResolution (isPresence : Bool) (nspace : Bytes) (c : Connection Claims) : Connection Claims :=
  c.withScope isPresence ((c.scope isPresence).begin nspace) (if isPresence then c.userDocId else 0)

def setScopeIfSeq (expectedScopeSeq : ℕ) (scope : Scope) (isPresence : Bool)
    (c : Connection Claims) : Option (Connection Claims) :=
  if (c.scope isPresence).scopeSeq ≠ expectedScopeSeq then none
  else some (c.withScope isPresence ((c.scope isPresence).install scope.namespaceId) scope.userDocId)

def resetScopeIfSeq (expectedScopeSeq : ℕ) (isPresence : Bool) (c : Connection Claims) : Connection Claims :=
  if (c.scope isPresence).scopeSeq ≠ expectedScopeSeq then c else c.resetScope isPresence

def pendingNamespaceIfSeq (expectedScopeSeq : ℕ) (isPresence : Bool) (c : Connection Claims) : Option Bytes :=
  if (c.scope isPresence).scopeSeq ≠ expectedScopeSeq then none
  else (c.scope isPresence).pendingNspace

/-- The scope that a store request, or a presence request, is executed in. -/
def requireCtx (isPresence : Bool) (c : Connection Claims) : Option ScopeState :=
  let sc := c.scope isPresence
  if sc.ready ∧ sc.namespaceId ≠ unsetNamespaceId ∧ sc.nspace.isSome ∧
      (isPresence → c.session.isSome) then some sc
  else none

@[simp] lemma scope_withScope (isPresence : Bool) (sc : ScopeState) (userDocId : DocId)
    (c : Connection Claims) : (c.withScope isPresence sc userDocId).scope isPresence = sc := by
  cases isPresence with
  | true => rfl
  | false => rfl

@[simp] lemma scope_withScope_not (isPresence : Bool) (sc : ScopeState) (userDocId : DocId)
    (c : Connection Claims) :
    (c.withScope isPresence sc userDocId).scope (!isPresence) = c.scope (!isPresence) := by
  cases isPresence with
  | true => rfl
  | false => rfl

@[simp] lemma session_withScope (isPresence : Bool) (sc : ScopeState) (userDocId : DocId)
    (c : Connection Claims) : (c.withScope isPresence sc userDocId).session = c.session := by
  cases isPresence with
  | true => rfl
  | false => rfl

@[simp] lemma userDocId_withScope (isPresence : Bool) (sc : ScopeState) (userDocId : DocId)
    (c : Connection Claims) : (c.withScope isPresence sc userDocId).userDocId = userDocId := by
  cases isPresence with
  | true => rfl
  | false => rfl

@[simp] lemma opening_withScope (isPresence : Bool) (sc : ScopeState) (userDocId : DocId)
    (c : Connection Claims) : (c.withScope isPresence sc userDocId).opening = c.opening := by
  cases isPresence with
  | true => rfl
  | false => rfl

@[simp] lemma withScope_withScope (isPresence : Bool) (sc sc' : ScopeState) (uid uid' : DocId)
    (c : Connection Claims) :
    (c.withScope isPresence sc uid).withScope isPresence sc' uid' = c.withScope isPresence sc' uid' := by
  cases isPresence with
  | true => rfl
  | false => rfl

lemma resetScopeIfSeq_self (isPresence : Bool) (c : Connection Claims) :
    c.resetScopeIfSeq (c.scope isPresence).scopeSeq isPresence = c.resetScope isPresence :=
  if_neg (not_not.mpr rfl)

lemma setScopeIfSeq_self (scope : Scope) (isPresence : Bool) (c : Connection Claims) :
    c.setScopeIfSeq (c.scope isPresence).scopeSeq scope isPresence = some (c.withScope isPresence
      ((c.scope isPresence).install scope.namespaceId) scope.userDocId) :=
  if_neg (not_not.mpr rfl)

lemma pendingNamespaceIfSeq_eq_some {expectedScopeSeq : ℕ} {isPresence : Bool} {nspace : Bytes}
    {c : Connection Claims} :
    c.pendingNamespaceIfSeq expectedScopeSeq isPresence = some nspace ↔
      expectedScopeSeq = (c.scope isPresence).scopeSeq ∧ (c.scope isPresence).pendingNspace = some nspace := by
  unfold pendingNamespaceIfSeq
  by_cases h : (c.scope isPresence).scopeSeq = expectedScopeSeq
  · simp [h]
  · simp [h, Ne.symm h]

end Connection

open Machine
/-- What the schema and the rules say. `userId` is the id of a user, within a namespace when the
users table has namespaces. -/
structure ScopeConfig (Claims : Type) where
  usersNamespaced : Bool
  userId : Option Bytes → Bytes → DocId
  authorizeNamespace : Bytes → DocId → Session Claims → Bool → Bool

def ScopeConfig.userDocId {Claims : Type} (cfg : ScopeConfig Claims) (nspace externalId : Bytes) :
    DocId :=
  cfg.userId (if cfg.usersNamespaced then some nspace else none) externalId

/-- A session resolution in the queue of the write worker. -/
structure ResolveScopeRequest where
  connId : ℕ
  scopeSeq : ℕ
  nspace : Bytes
  externalUserId : Bytes
  isPresence : Bool
  opening : ℕ

/-- What the caches say about a namespace and a user; `failed` is any error. -/
inductive CacheAnswer where
  | hit (scope : Scope)
  | miss
  | failed

/-- A write, or the removal of the user's presence, with the id it is made under, and for reference
the user and the namespace of the scope it is made in. -/
structure Use where
  connId : ℕ
  isPresence : Bool
  namespaceId : ℤ
  userDocId : DocId
  nspace : Option Bytes
  externalId : Option Bytes
  deriving DecidableEq, Repr

/-- `map` holds the open connections. A closed connection returns to the pool, from which it may be
taken for another one. Resolutions complete in any order. -/
structure Server (Claims : Type) where
  map : ℕ → Option (Connection Claims) := fun _ => none
  pool : List (Connection Claims) := []
  resolutions : List ResolveScopeRequest := []
  uses : List Use := []
  opened : ℕ := 0

inductive ServerEvent (Claims : Type) where
  | open (connId : ℕ) (sess : Session Claims) (slot : ℕ)
  | setNamespace (connId : ℕ) (isPresence : Bool) (nspace : Bytes) (cache : CacheAnswer)
  | complete (i : ℕ) (answer : Option Scope)
  | authRefresh (connId : ℕ) (subject : Bytes) (claims : Claims)
  | write (connId : ℕ) (isPresence : Bool)
  | close (connId : ℕ)

namespace Connection

variable {Claims : Type}

def currentNamespace (c : Connection Claims) : Option Bytes :=
  c.store.nspace.or (c.store.pendingNspace.or (c.presence.nspace.or c.presence.pendingNspace))

def rejectsNamespaceSwitch (cfg : ScopeConfig Claims) (nspace : Bytes) (c : Connection Claims) :
    Bool :=
  cfg.usersNamespaced && c.currentNamespace.any (· ≠ nspace)

def useIn (connId : ℕ) (isPresence : Bool) (c : Connection Claims) : Use :=
  ⟨connId, isPresence, (c.scope isPresence).namespaceId, c.userDocId, (c.scope isPresence).nspace,
    c.session.map Session.externalId⟩

end Connection

namespace Server

variable {Claims : Type} (cfg : ScopeConfig Claims)

def put (connId : ℕ) (c : Connection Claims) (st : Server Claims) : Server Claims :=
  { st with map := Function.update st.map connId (some c) }

def log (use : Use) (st : Server Claims) : Server Claims := { st with uses := st.uses ++ [use] }

/-- A connection from the pool, or a new one, serves a client with a session. -/
def onOpen (connId : ℕ) (sess : Session Claims) (slot : ℕ) (st : Server Claims) : Server Claims :=
  if (st.map connId).isSome ∨ sess.externalId = [] then st
  else
    let c := ((st.pool[slot]?.getD {}).resetSession).setSession sess
    { st.put connId { c with opening := st.opened } with
      pool := st.pool.eraseIdx slot, opened := st.opened + 1 }

def removeAllForConnection (connId : ℕ) (c : Connection Claims) (st : Server Claims) : Server Claims :=
  if c.presence.namespaceId ≠ unsetNamespaceId then st.log (c.useIn connId true) else st

/-- `StoreSetNamespace` and `PresenceSetNamespace`: the scope is reset and, unless the caches know
the user and the namespace, resolved later. Any error resets it again. -/
def handleSetNamespace (connId : ℕ) (isPresence : Bool) (nspace : Bytes) (cache : CacheAnswer)
    (st : Server Claims) : Server Claims :=
  match st.map connId with
  | none => st
  | some c =>
    if c.rejectsNamespaceSwitch cfg nspace then st
    else
      match c.session with
      | none => st
      | some sess =>
        let begun := c.beginScopeResolution isPresence nspace
        let scopeSeq := (begun.scope isPresence).scopeSeq
        let left := if isPresence then st.removeAllForConnection connId c else st
        match cache with
        | .failed => left.put connId (begun.resetScopeIfSeq scopeSeq isPresence)
        | .miss =>
          { left.put connId begun with
            resolutions := left.resolutions ++
              [⟨connId, scopeSeq, nspace, sess.externalId, isPresence, c.opening⟩] }
        | .hit scope =>
          if cfg.authorizeNamespace nspace scope.userDocId sess isPresence then
            match begun.setScopeIfSeq scopeSeq scope isPresence with
            | some installed => left.put connId installed
            | none => left.put connId (begun.resetScopeIfSeq scopeSeq isPresence)
          else left.put connId (begun.resetScopeIfSeq scopeSeq isPresence)

/-- The write worker has resolved a session: the scope is installed if it still waits for it, and
reset if the user may not enter the namespace. -/
def processResolution (r : ResolveScopeRequest) (answer : Option Scope) (st : Server Claims) : Server Claims :=
  match st.map r.connId, answer with
  | none, _ => st
  | some _, none => st
  | some c, some scope =>
    match c.pendingNamespaceIfSeq r.scopeSeq r.isPresence with
    | none => st
    | some nspace =>
      match c.session with
      | none => st.put r.connId (c.resetScopeIfSeq r.scopeSeq r.isPresence)
      | some sess =>
        if cfg.authorizeNamespace nspace scope.userDocId sess r.isPresence then
          match c.setScopeIfSeq r.scopeSeq scope r.isPresence with
          | some installed => st.put r.connId installed
          | none => st
        else st.put r.connId (c.resetScopeIfSeq r.scopeSeq r.isPresence)

/-- A token of the same user replaces the claims; any other token ends the connection. -/
def handleAuthRefresh (connId : ℕ) (subject : Bytes) (claims : Claims) (st : Server Claims) : Server Claims :=
  match st.map connId with
  | none => st
  | some c =>
    if c.session.map Session.externalId = some subject then
      st.put connId (c.updateSessionClaims claims)
    else st

/-- A write that gets as far as its scope. -/
def handleWrite (connId : ℕ) (isPresence : Bool) (st : Server Claims) : Server Claims :=
  match st.map connId with
  | none => st
  | some c =>
    match c.requireCtx isPresence with
    | none => st
    | some _ => st.log (c.useIn connId isPresence)

def teardownSession (connId : ℕ) (st : Server Claims) : Server Claims :=
  match st.map connId with
  | none => st
  | some c =>
    { st.removeAllForConnection connId c with
      map := Function.update st.map connId none
      pool := c.resetSession :: st.pool }

def step (st : Server Claims) : ServerEvent Claims → Server Claims
  | .open connId sess slot => st.onOpen connId sess slot
  | .setNamespace connId isPresence nspace cache =>
    st.handleSetNamespace cfg connId isPresence nspace cache
  | .complete i answer =>
    match st.resolutions[i]? with
    | none => st
    | some r => { st with resolutions := st.resolutions.eraseIdx i }.processResolution cfg r answer
  | .authRefresh connId subject claims => st.handleAuthRefresh connId subject claims
  | .write connId isPresence => st.handleWrite connId isPresence
  | .close connId => st.teardownSession connId

end Server
end ZyncBase
