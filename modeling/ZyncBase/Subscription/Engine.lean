import ZyncBase.Subscription.PredicateTrie

/-! The subscription engine: subscribers of one filter share a group, groups are found by filter
and by the trie of their collection, and a record change is matched against the trie. -/
namespace ZyncBase

open AssocMap

structure SubscriberKey where
  connectionId : ℕ
  id : ℕ
  deriving DecidableEq, Repr

structure CollectionKey where
  namespaceId : ℤ
  tableIndex : ℕ
  deriving DecidableEq, Repr

structure SubscriptionGroup where
  id : ℕ
  namespaceId : ℤ
  tableIndex : ℕ
  filter : QueryFilter
  subscribers : List SubscriberKey := []

/-- A change of one record; the new record is absent after a delete, the old one before an
insert. -/
structure RecordChange where
  namespaceId : ℤ
  tableIndex : ℕ
  newRecord : Option Record
  oldRecord : Option Record

structure CollectionFilterKey where
  collection : CollectionKey
  filter : QueryFilter

def eqlConditionsSorted : Option (List Condition) → Option (List Condition) → Bool :=
  sameOption (sameList eqlCondition)

def eqlOrClauses : Option (List OrClause) → Option (List OrClause) → Bool :=
  sameOption (sameList (sameList eqlCondition))

def eqlFilter (a b : QueryFilter) : Bool :=
  a.predicate.state = b.predicate.state && eqlConditionsSorted a.predicate.conditions b.predicate.conditions &&
    eqlOrClauses a.predicate.orClauses b.predicate.orClauses &&
    a.orderBy = b.orderBy && a.limit = b.limit &&
    sameOption (sameList Value.eql) (a.after.map Cursor.values) (b.after.map Cursor.values)

def eqlFilterKey (a b : CollectionFilterKey) : Bool :=
  a.collection = b.collection && eqlFilter a.filter b.filter

namespace SubscriptionGroup

def collection (g : SubscriptionGroup) : CollectionKey := ⟨g.namespaceId, g.tableIndex⟩

def filterKey (g : SubscriptionGroup) : CollectionFilterKey := ⟨g.collection, g.filter⟩

def putSubscriber (g : SubscriptionGroup) (key : SubscriberKey) : SubscriptionGroup :=
  { g with
    subscribers := if key ∈ g.subscribers then g.subscribers else g.subscribers ++ [key] }

def removeSubscriber (g : SubscriptionGroup) (key : SubscriberKey) : SubscriptionGroup :=
  { g with subscribers := g.subscribers.filter (· ≠ key) }

end SubscriptionGroup

namespace RecordChange

def collection (c : RecordChange) : CollectionKey := ⟨c.namespaceId, c.tableIndex⟩

end RecordChange

inductive SubscribeError where
  | alreadySubscribed | groupNotFound | missingConditionValue
  deriving DecidableEq, Repr

inductive MatchOp where
  | setOp | remove
  deriving DecidableEq, Repr

structure Match where
  connectionId : ℕ
  subscriptionId : ℕ
  op : MatchOp
  deriving DecidableEq, Repr

def Match.key (m : Match) : SubscriberKey := ⟨m.connectionId, m.subscriptionId⟩

structure SubscriptionEngine where
  groupsByFilter : List (CollectionFilterKey × ℕ) := []
  groups : List (ℕ × SubscriptionGroup) := []
  groupsByCollection : List (CollectionKey × List ℕ) := []
  triesByCollection : List (CollectionKey × Node) := []
  activeSubs : List (SubscriberKey × ℕ) := []
  nextGroupId : ℕ := 1

namespace SubscriptionEngine

def group (e : SubscriptionEngine) (groupId : ℕ) : Option SubscriptionGroup :=
  find eqKey groupId e.groups

/-- A collection without trie is matched like one with an empty trie. -/
def trieAt (e : SubscriptionEngine) (coll : CollectionKey) : Node :=
  (find eqKey coll e.triesByCollection).getD Node.empty

/-- The groups of a collection; one without an entry has none. -/
def listAt (e : SubscriptionEngine) (coll : CollectionKey) : List ℕ :=
  (find eqKey coll e.groupsByCollection).getD []

def createSubscriptionGroup (e : SubscriptionEngine) (coll : CollectionKey)
    (filter : QueryFilter) (key : SubscriberKey) : Except SubscribeError (SubscriptionEngine × ℕ) :=
  let groupId := e.nextGroupId
  let g : SubscriptionGroup :=
    { id := groupId, namespaceId := coll.namespaceId, tableIndex := coll.tableIndex, filter,
      subscribers := [key] }
  match (e.trieAt coll).insertGroup groupId filter.predicate with
  | .error .missingConditionValue => .error .missingConditionValue
  | .ok trie =>
    .ok ({ e with
      nextGroupId := groupId + 1
      groups := put eqKey groupId g e.groups
      groupsByFilter := put eqlFilterKey ⟨coll, filter⟩ groupId e.groupsByFilter
      groupsByCollection := put eqKey coll (e.listAt coll ++ [groupId]) e.groupsByCollection
      triesByCollection := put eqKey coll trie e.triesByCollection }, groupId)

def subscribe (e : SubscriptionEngine) (coll : CollectionKey) (filter : QueryFilter)
    (key : SubscriberKey) : Except SubscribeError SubscriptionEngine :=
  if (find eqKey key e.activeSubs).isSome then .error .alreadySubscribed
  else
    match find eqlFilterKey ⟨coll, filter⟩ e.groupsByFilter with
    | some groupId =>
      match e.group groupId with
      | none => .error .groupNotFound
      | some g =>
        .ok { e with
          groups := put eqKey groupId (g.putSubscriber key) e.groups
          activeSubs := put eqKey key groupId e.activeSubs }
    | none =>
      match e.createSubscriptionGroup coll filter key with
      | .error err => .error err
      | .ok (e, groupId) => .ok { e with activeSubs := put eqKey key groupId e.activeSubs }

/-- Drop the first occurrence; the last id takes its place. -/
def swapRemove (groupId : ℕ) : List ℕ → List ℕ
  | [] => []
  | id :: ids =>
    if id = groupId then
      match ids.getLast? with
      | none => []
      | some last => last :: ids.dropLast
    else id :: swapRemove groupId ids

def removeGroupFromCollectionIndex (e : SubscriptionEngine) (coll : CollectionKey)
    (groupId : ℕ) : SubscriptionEngine :=
  match find eqKey coll e.groupsByCollection with
  | none => e
  | some ids =>
    let ids := swapRemove groupId ids
    { e with
      groupsByCollection :=
        if ids.length = 0 then AssocMap.remove eqKey coll e.groupsByCollection
        else put eqKey coll ids e.groupsByCollection }

def removeGroupFromTrie (e : SubscriptionEngine) (coll : CollectionKey) (groupId : ℕ)
    (filter : QueryFilter) : SubscriptionEngine :=
  match find eqKey coll e.triesByCollection with
  | none => e
  | some trie =>
    let trie := trie.removeGroup groupId filter.predicate
    { e with
      triesByCollection :=
        if trie.isEmpty then AssocMap.remove eqKey coll e.triesByCollection
        else put eqKey coll trie e.triesByCollection }

/-- Take a group without subscribers out of all indexes. -/
def destroyGroup (e : SubscriptionEngine) (groupId : ℕ) (g : SubscriptionGroup) :
    SubscriptionEngine :=
  let e := { e with groupsByFilter := AssocMap.remove eqlFilterKey g.filterKey e.groupsByFilter }
  let e := e.removeGroupFromTrie g.collection groupId g.filter
  let e := e.removeGroupFromCollectionIndex g.collection groupId
  { e with groups := AssocMap.remove eqKey groupId e.groups }

def removeSubscriber (e : SubscriptionEngine) (key : SubscriberKey) : SubscriptionEngine :=
  match find eqKey key e.activeSubs with
  | none => e
  | some groupId =>
    let e := { e with activeSubs := AssocMap.remove eqKey key e.activeSubs }
    match e.group groupId with
    | none => e
    | some g =>
      let g := g.removeSubscriber key
      let e := { e with groups := put eqKey groupId g e.groups }
      if g.subscribers.length = 0 then e.destroyGroup groupId g else e

def unsubscribe (e : SubscriptionEngine) (connectionId id : ℕ) : SubscriptionEngine :=
  e.removeSubscriber ⟨connectionId, id⟩

def unsubscribeMany (e : SubscriptionEngine) (connectionId : ℕ) (ids : List ℕ) :
    SubscriptionEngine :=
  ids.foldl (fun e id => e.removeSubscriber ⟨connectionId, id⟩) e

/-- Keep the candidates whose group exists and whose OR clauses hold. -/
def filterResidualMatches (e : SubscriptionEngine) (r : Record) : List ℕ → Except EvalError (List ℕ)
  | [] => .ok []
  | groupId :: rest =>
    match e.group groupId with
    | none => e.filterResidualMatches r rest
    | some g => do
      if ← residualMatches g.filter.predicate r then
        return groupId :: (← e.filterResidualMatches r rest)
      else e.filterResidualMatches r rest

def matchedGroups (e : SubscriptionEngine) (trie : Node) : Option Record → Except EvalError (List ℕ)
  | none => .ok []
  | some r => do e.filterResidualMatches r (← trie.collectFromNode r)

def subscriberMatches (e : SubscriptionEngine) (op : MatchOp) (groupId : ℕ) : List Match :=
  match e.group groupId with
  | none => []
  | some g => g.subscribers.map fun key => ⟨key.connectionId, key.id, op⟩

def appendSubscriberMatches (e : SubscriptionEngine) (before after : List ℕ) : List Match :=
  after.flatMap (e.subscriberMatches .setOp) ++
    (before.filter fun groupId => groupId ∉ after).flatMap (e.subscriberMatches .remove)

def handleRecordChange (e : SubscriptionEngine) (change : RecordChange) : Except EvalError (List Match) :=
  match find eqKey change.collection e.triesByCollection with
  | none => .ok []
  | some trie => do
    let before ← e.matchedGroups trie change.oldRecord
    let after ← e.matchedGroups trie change.newRecord
    return e.appendSubscriberMatches before after

end SubscriptionEngine

/-- A call on the engine. -/
inductive SubscriptionCall where
  | subscribe (coll : CollectionKey) (filter : QueryFilter) (key : SubscriberKey)
  | unsubscribe (connectionId id : ℕ)
  | unsubscribeMany (connectionId : ℕ) (ids : List ℕ)

/-- A failed call leaves the engine as it was. -/
def SubscriptionEngine.call (e : SubscriptionEngine) : SubscriptionCall → SubscriptionEngine
  | .subscribe coll filter key => ((e.subscribe coll filter key).toOption).getD e
  | .unsubscribe connectionId id => e.unsubscribe connectionId id
  | .unsubscribeMany connectionId ids => e.unsubscribeMany connectionId ids

def SubscriptionEngine.run (calls : List SubscriptionCall) : SubscriptionEngine :=
  calls.foldl SubscriptionEngine.call {}

end ZyncBase
