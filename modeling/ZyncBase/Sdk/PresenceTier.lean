import ZyncBase.Sdk.PresenceCache

/-! The subscription of a client to one tier of presence: the users or the shared record. What the
client runs between two suspensions is one step. -/
namespace ZyncBase.Sdk

open AssocMap

/-- What the users and the shared record do in their own way. -/
structure PresenceTier (Snapshot Patch Cache : Type) where
  cleared : Cache
  populate : Snapshot → Cache
  applyBroadcast : Patch → Cache → Cache

def usersTier : PresenceTier (Option (List PresenceUserSnapshot)) (List PresenceBroadcastEntry) UserCache where
  cleared := UserCache.clearUserCache
  populate := UserCache.populateUserCacheFromSnapshot
  applyBroadcast := UserCache.handlePresenceBroadcast

def sharedTier : PresenceTier (Option Entries) (List Entries) (Option Entries) where
  cleared := none
  populate := id
  applyBroadcast patches shared :=
    patches.foldl (fun shared patch => some (spread (shared.getD []) patch)) shared

inductive PresenceRequest where
  | subscribe
  | unsubscribe (subId : ℕ)
  deriving DecidableEq

/-- What the client reads of the response to a request. -/
structure PresenceOk (Snapshot : Type) where
  subId : Option ℕ
  snapshot : Snapshot

inductive PresenceInbound (Snapshot Patch : Type) where
  | ok (id : ℕ) (response : PresenceOk Snapshot)
  | error (id : ℕ)
  | broadcast (subId : ℕ) (patch : Patch)
  | other

/-- Where an establishment is suspended: it awaits the response to a request, or its loop is over and
the handlers of its promise are to run. -/
inductive Suspension where
  | subscribing (id : ℕ)
  | unsubscribing (id : ℕ)
  | settled (fulfilled : Bool)

structure Establishment where
  promise : ℕ
  gen : ℕ
  suspension : Suspension

/-- The state of the tier, with the requests of its connection. A request is pending until its response
is there, and then it has an outcome, which is nothing for a failure. A listener waits for the promise
of an establishment, or its subscriber has been given the function that closes it. -/
structure PresenceClient (Snapshot Cache : Type) where
  cache : Cache
  subId : Option ℕ := none
  subPromise : Option ℕ := none
  subGen : ℕ := 0
  callbacks : List ℕ := []
  establishments : List Establishment := []
  waiting : List (ℕ × ℕ) := []
  closers : List ℕ := []
  nextPromise : ℕ := 0
  nextListener : ℕ := 0
  connected : Bool := false
  nextRequestId : ℕ := 1
  pending : List ℕ := []
  outcomes : List (ℕ × Option (PresenceOk Snapshot)) := []
  sent : List (ℕ × PresenceRequest) := []

namespace PresenceClient

variable {Snapshot Patch Cache : Type} (tier : PresenceTier Snapshot Patch Cache)

/-- A request fails at once while the connection is not ready. -/
def dispatch (request : PresenceRequest) (c : PresenceClient Snapshot Cache) : PresenceClient Snapshot Cache :=
  let id := c.nextRequestId
  if c.connected then
    { c with nextRequestId := id + 1, pending := c.pending ++ [id], sent := c.sent ++ [(id, request)] }
  else { c with nextRequestId := id + 1, outcomes := put eqKey id none c.outcomes }

def suspend (e : Establishment) (c : PresenceClient Snapshot Cache) :
    PresenceClient Snapshot Cache := { c with establishments := c.establishments ++ [e] }

def without (promise : ℕ) (c : PresenceClient Snapshot Cache) : PresenceClient Snapshot Cache :=
  { c with establishments := c.establishments.filter fun e => e.promise ≠ promise }

/-- The head of the loop of an establishment. -/
def establish (promise gen : ℕ) (c : PresenceClient Snapshot Cache) : PresenceClient Snapshot Cache :=
  if gen = c.subGen then
    (c.dispatch .subscribe).suspend ⟨promise, gen, .subscribing c.nextRequestId⟩
  else c.suspend ⟨promise, gen, .settled false⟩

def hasCurrentSubscribers (gen : ℕ) (c : PresenceClient Snapshot Cache) : Bool :=
  gen = c.subGen && !c.callbacks.isEmpty

/-- The establishment goes on with the response to its subscribe. -/
def acceptSubscription (promise gen : ℕ) (ok : PresenceOk Snapshot)
    (c : PresenceClient Snapshot Cache) : PresenceClient Snapshot Cache :=
  match ok.subId with
  | none => c.suspend ⟨promise, gen, .settled false⟩
  | some subId =>
    if c.hasCurrentSubscribers gen then
      { c with subId := some subId, cache := tier.populate ok.snapshot }.suspend ⟨promise, gen, .settled true⟩
    else
      (c.dispatch (.unsubscribe subId)).suspend ⟨promise, gen, .unsubscribing c.nextRequestId⟩

/-- The establishment goes on with the response to its unsubscribe. -/
def unsubscribed (promise gen : ℕ) (c : PresenceClient Snapshot Cache) : PresenceClient Snapshot Cache :=
  if c.hasCurrentSubscribers gen then c.establish promise gen
  else c.suspend ⟨promise, gen, .settled true⟩

/-- The handlers of a promise. Where it has failed, the listeners that wait for it are closed. -/
def runHandlers (promise gen : ℕ) (fulfilled : Bool) (c : PresenceClient Snapshot Cache) :
    PresenceClient Snapshot Cache :=
  let listeners := (c.waiting.filter fun w => w.2 = promise).map Prod.fst
  { c with
    subPromise := if gen = c.subGen ∧ c.subPromise = some promise then none else c.subPromise
    waiting := c.waiting.filter fun w => w.2 ≠ promise
    callbacks := if fulfilled then c.callbacks else c.callbacks.filter fun l => l ∉ listeners
    closers := if fulfilled then c.closers ++ listeners else c.closers }

/-- What is behind the suspension runs, if the outcome is there. -/
def resume (promise : ℕ) (c : PresenceClient Snapshot Cache) : PresenceClient Snapshot Cache :=
  match c.establishments.find? fun e => e.promise = promise with
  | none => c
  | some e =>
    let c' := c.without promise
    match e.suspension with
    | .settled fulfilled => c'.runHandlers promise e.gen fulfilled
    | .subscribing id =>
      match find eqKey id c.outcomes with
      | none => c
      | some none => c'.suspend ⟨promise, e.gen, .settled false⟩
      | some (some ok) => c'.acceptSubscription tier promise e.gen ok
    | .unsubscribing id =>
      match find eqKey id c.outcomes with
      | none => c
      | some none => c'.suspend ⟨promise, e.gen, .settled false⟩
      | some (some _) => c'.unsubscribed promise e.gen

/-- The promise that a subscriber waits for, if any. -/
def ensureSubscription (c : PresenceClient Snapshot Cache) : PresenceClient Snapshot Cache × Option ℕ :=
  if c.subId.isSome then (c, none)
  else
    match c.subPromise with
    | some promise => (c, some promise)
    | none =>
      let promise := c.nextPromise
      ({ c with nextPromise := promise + 1, subPromise := some promise }.establish promise c.subGen,
        some promise)

def cleanupSubscription (c : PresenceClient Snapshot Cache) : PresenceClient Snapshot Cache :=
  if c.callbacks.isEmpty ∧ (c.subId.isSome ∨ c.subPromise.isSome) then
    let c' := { c with subId := none, cache := tier.cleared }
    match c.subId with
    | some subId => c'.dispatch (.unsubscribe subId)
    | none => c'
  else c

def subscribe (c : PresenceClient Snapshot Cache) : PresenceClient Snapshot Cache :=
  let listener := c.nextListener
  let (c', promise) :=
    { c with nextListener := listener + 1, callbacks := c.callbacks ++ [listener] }.ensureSubscription
  match promise with
  | none => { c' with closers := c'.closers ++ [listener] }
  | some promise => { c' with waiting := c'.waiting ++ [(listener, promise)] }

/-- The function that closes a listener does something only once. -/
def unsubscribe (listener : ℕ) (c : PresenceClient Snapshot Cache) : PresenceClient Snapshot Cache :=
  if listener ∈ c.closers then
    { c with
      closers := c.closers.filter (· ≠ listener)
      callbacks := c.callbacks.filter (· ≠ listener) }.cleanupSubscription tier
  else c

def invalidate (c : PresenceClient Snapshot Cache) : PresenceClient Snapshot Cache :=
  { c with subGen := c.subGen + 1, cache := tier.cleared, subId := none, subPromise := none }

def replaySubscriptions (c : PresenceClient Snapshot Cache) : PresenceClient Snapshot Cache :=
  if !c.callbacks.isEmpty ∧ c.subId = none then c.ensureSubscription.1 else c

def handleBroadcast (subId : ℕ) (patch : Patch) (c : PresenceClient Snapshot Cache) :
    PresenceClient Snapshot Cache :=
  if c.subId = some subId then { c with cache := tier.applyBroadcast patch c.cache } else c

/-- A response to a request that is not pending is ignored. -/
def respond (id : ℕ) (outcome : Option (PresenceOk Snapshot)) (c : PresenceClient Snapshot Cache) :
    PresenceClient Snapshot Cache :=
  if id ∈ c.pending then
    { c with
      pending := c.pending.filter (· ≠ id)
      outcomes := put eqKey id outcome c.outcomes }
  else c

def dispatchInbound (c : PresenceClient Snapshot Cache) :
    PresenceInbound Snapshot Patch → PresenceClient Snapshot Cache
  | .ok id response => c.respond id (some response)
  | .error id => c.respond id none
  | .broadcast subId patch => c.handleBroadcast tier subId patch
  | .other => c

/-- The messages of a frame are dispatched one after the other, with nothing in between. -/
def processInbound (frame : List (PresenceInbound Snapshot Patch))
    (c : PresenceClient Snapshot Cache) : PresenceClient Snapshot Cache :=
  frame.foldl (dispatchInbound tier) c

def handleDisconnect (c : PresenceClient Snapshot Cache) : PresenceClient Snapshot Cache :=
  { c with
    connected := false
    pending := []
    outcomes := c.pending.foldl (fun m id => put eqKey id none m) c.outcomes }.invalidate tier

end PresenceClient

end ZyncBase.Sdk
