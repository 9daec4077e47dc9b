import ZyncBase.Connection.Openings
import ZyncBase.Subscription.EngineFaults
import ZyncBase.Subscription.Registration

/-! The handlers of store subscriptions: an id is kept by its connection and by the engine, and both
are updated one after the other while allocations may fail. -/
namespace ZyncBase

open AssocMap

/-- What subscriptions are authorized and parsed with. -/
structure StoreConfig (Claims : Type) where
  scopes : ScopeConfig Claims
  schema : Schema
  readRule : ℕ → AuthCondition
  evalCtx : Connection Claims → EvalContext
  decodeToken : Bytes → Option Payload

/-- What fails while a `StoreSubscribe` is handled: decoding, preparing the read, an allocation of
the engine, keeping the id, or queueing the read. -/
structure SubscribeFaults where
  decode : Bool := false
  prepare : Bool := false
  subscribe : Option SubscribeFault := none
  left : Node := Node.empty
  oom : Bool := false
  track : Bool := false
  enqueue : Bool := false

/-- A change in the queue of the subscription worker, and which of its deltas reach the client. -/
structure ChangeJob where
  change : RecordChange
  delivered : Match → Bool := fun _ => true

/-- The connections' fields `subscription_ids` and `next_subscription_id` are kept by connection
id beside the connections. -/
structure StoreServer (Claims : Type) where
  server : Server Claims := {}
  subscriptionIds : ℕ → List ℕ := fun _ => []
  nextSubscriptionId : ℕ → ℕ := fun _ => 1
  engine : SubscriptionEngine := {}

/-- How a `StoreSubscribe` ends for the handler: with an error before or after its registration, or
with a queued read. -/
inductive SubscribeOutcome where
  | refused
  | undone (subId : ℕ)
  | queued (req : ReadRequest)

/-- A handler that fails before it changes anything is no event. -/
inductive StoreEvent (Claims : Type) where
  | connection (ev : ServerEvent Claims) (oom : ℕ → Bool)
  | subscribe (connId : ℕ) (parsed : Payload) (faults : SubscribeFaults) (during : List ChangeJob)
  | unsubscribe (connId subId : ℕ) (oom : Bool)
  | presenceSubscribe (connId : ℕ)
  | change (job : ChangeJob)

namespace Server

variable {Claims : Type} (cfg : ScopeConfig Claims)

/-- The connection whose store subscriptions end with the event: it closes, or gets as far as
leaving its store namespace. -/
def detaches (st : Server Claims) : ServerEvent Claims → Option ℕ
  | .setNamespace connId false nspace _ =>
    (st.map connId).bind fun c =>
      if !c.rejectsNamespaceSwitch cfg nspace && c.session.isSome then some connId else none
  | .close connId => (st.map connId).map fun _ => connId
  | _ => none

end Server

namespace StoreServer

variable {Claims : Type}

section Handlers

variable (cfg : StoreConfig Claims)

/-- Ids are 64 bits wide; after the last one none is given out. -/
def allocateSubscriptionId (connId : ℕ) (st : StoreServer Claims) : Option (ℕ × StoreServer Claims) :=
  let id := st.nextSubscriptionId connId
  if id = 0 then none
  else some (id, { st with
    nextSubscriptionId := Function.update st.nextSubscriptionId connId ((id + 1) % 2 ^ 64) })

def addSubscription (connId subId : ℕ) (st : StoreServer Claims) : StoreServer Claims :=
  { st with
    subscriptionIds :=
      Function.update st.subscriptionIds connId (st.subscriptionIds connId ++ [subId]) }

def removeSubscription (connId subId : ℕ) (st : StoreServer Claims) : StoreServer Claims :=
  { st with
    subscriptionIds := Function.update st.subscriptionIds connId
      (SubscriptionEngine.swapRemove subId (st.subscriptionIds connId)) }

def unsubscribeDetached (oom : ℕ → Bool) (connId : ℕ) (st : StoreServer Claims) : StoreServer Claims :=
  { st with
    subscriptionIds := Function.update st.subscriptionIds connId []
    engine := st.engine.unsubscribeManyOr oom connId (st.subscriptionIds connId) }

/-- The first half of `handleStoreSubscribe`: up to the registration in the engine. -/
def register (connId : ℕ) (parsed : Payload) (faults : SubscribeFaults) (st : StoreServer Claims) :
    Except (StoreServer Claims) (StoreServer Claims × ℕ × ReadRequest) :=
  match st.server.map connId with
  | none => .error st
  | some c =>
    if faults.decode then .error st
    else
      match extractTableIndex parsed with
      | .error _ => .error st
      | .ok tableIndex =>
        match st.allocateSubscriptionId connId with
        | none => .error st
        | some (subId, st) =>
          match c.requireCtx false with
          | none => .error st
          | some sc =>
            if faults.prepare then .error st
            else
              match prepareQueryRead cfg.decodeToken cfg.schema (cfg.readRule tableIndex)
                (cfg.evalCtx c) ⟨connId, sc.namespaceId⟩ tableIndex parsed (some subId) with
              | .error _ => .error st
              | .ok req =>
                match st.engine.subscribeOr faults.subscribe faults.left faults.oom
                  ⟨sc.namespaceId, tableIndex⟩ req.filter ⟨connId, subId⟩ with
                | .error e => .error { st with engine := e }
                | .ok e => .ok ({ st with engine := e }, subId, req)

/-- The second half: keep the id and queue the read, or undo the registration. -/
def track (connId subId : ℕ) (faults : SubscribeFaults) (st : StoreServer Claims) :
    Except (StoreServer Claims) (StoreServer Claims) :=
  let unsubscribe (st : StoreServer Claims) :=
    { st with engine := st.engine.removeSubscriberOr faults.oom ⟨connId, subId⟩ }
  if faults.track then .error (unsubscribe st)
  else
    let st := st.addSubscription connId subId
    if faults.enqueue then .error (unsubscribe (st.removeSubscription connId subId)) else .ok st

def handleStoreSubscribe (connId : ℕ) (parsed : Payload) (faults : SubscribeFaults)
    (st : StoreServer Claims) : StoreServer Claims × SubscribeOutcome :=
  match st.register cfg connId parsed faults with
  | .error st => (st, .refused)
  | .ok (st, subId, req) =>
    match st.track connId subId faults with
    | .error st => (st, .undone subId)
    | .ok st => (st, .queued req)

def handleStoreUnsubscribe (connId subId : ℕ) (oom : Bool) (st : StoreServer Claims) : StoreServer Claims :=
  match st.server.map connId with
  | none => st
  | some _ =>
    { st with engine := st.engine.removeSubscriberOr oom ⟨connId, subId⟩ }.removeSubscription connId subId

def activate (connId : ℕ) (st : StoreServer Claims) : StoreServer Claims :=
  { st with
    subscriptionIds := Function.update st.subscriptionIds connId []
    nextSubscriptionId := Function.update st.nextSubscriptionId connId 1 }

/-- Opening, closing, scopes, authentication and writes, with what they mean for subscriptions. -/
def handleConnection (ev : ServerEvent Claims) (oom : ℕ → Bool) (st : StoreServer Claims) :
    StoreServer Claims :=
  let served := { st with server := st.server.step cfg.scopes ev }
  match st.server.opens ev, st.server.detaches cfg.scopes ev with
  | some connId, _ => served.activate connId
  | none, some connId => served.unsubscribeDetached oom connId
  | none, none => served

def step (st : StoreServer Claims) : StoreEvent Claims → StoreServer Claims
  | .connection ev oom => st.handleConnection cfg ev oom
  | .subscribe connId parsed faults _ => (st.handleStoreSubscribe cfg connId parsed faults).1
  | .unsubscribe connId subId oom => st.handleStoreUnsubscribe connId subId oom
  | .presenceSubscribe connId =>
    match st.server.map connId with
    | none => st
    | some _ => ((st.allocateSubscriptionId connId).map Prod.snd).getD st
  | .change _ => st

def run (events : List (StoreEvent Claims)) : StoreServer Claims := events.foldl (step cfg) {}

end Handlers

end StoreServer
end ZyncBase
