import ZyncBase.Subscription.Indexes

/-! After any sequence of calls the engine holds exactly the subscriptions of a registry. -/
namespace ZyncBase

open AssocMap Function List Option

/-- The collection and filter of every active subscription. -/
abbrev Registry := SubscriberKey → Option (CollectionKey × QueryFilter)

namespace Registry

def remove (reg : Registry) (key : SubscriberKey) : Registry :=
  fun k => if k = key then none else reg k

def call (reg : Registry) : SubscriptionCall → Registry
  | .subscribe coll filter key =>
    match reg key with
    | some _ => reg
    | none => fun k => if k = key then some (coll, filter) else reg k
  | .unsubscribe connectionId id => reg.remove ⟨connectionId, id⟩
  | .unsubscribeMany connectionId ids =>
    ids.foldl (fun reg id => reg.remove ⟨connectionId, id⟩) reg

def run (calls : List SubscriptionCall) : Registry := calls.foldl call fun _ => none

end Registry

variable {id : ℕ} {g : SubscriptionGroup} {key : SubscriberKey} {coll : CollectionKey} {filter : QueryFilter}

namespace SubscriptionEngine

def keys (e : SubscriptionEngine) (id : ℕ) : Option CollectionFilterKey :=
  (e.group id).map SubscriptionGroup.filterKey

def members (e : SubscriptionEngine) (id : ℕ) : List SubscriberKey :=
  ((e.group id).map SubscriptionGroup.subscribers).getD []

def active (e : SubscriptionEngine) (key : SubscriberKey) : Option ℕ := find eqKey key e.activeSubs

def byFilter (e : SubscriptionEngine) (k : CollectionFilterKey) : Option ℕ :=
  find eqlFilterKey k e.groupsByFilter

/-- The engine holds the subscriptions of a registry. -/
structure Coherent (e : SubscriptionEngine) (reg : Registry) : Prop where
  indexed : Indexed e.keys e.byFilter e.trieAt e.nextGroupId
  subscribed : Subscribed e.active e.members
  registered : ∀ key, sameOption eqlFilterKey ((reg key).map fun p => ⟨p.1, p.2⟩) ((e.active key).bind e.keys)

lemma coherent_init : Coherent {} fun _ => none where
  indexed :=
    { issued := by simp [keys, group]
      operands := by simp [keys, group]
      byFilter := by simp [keys, group, byFilter]
      tries := fun coll =>
        { wellFormed := Node.wellFormed_empty
          single := by
            intro g p q hp
            simp [trieAt] at hp
          issued := by
            intro id path hp
            simp [trieAt] at hp
          stored := by simp [keys, group] } }
  subscribed :=
    { nodup := by simp [members, group]
      active := by simp [active, members, group] }
  registered := by simp [active, sameOption]

lemma keys_of_group {e : SubscriptionEngine}
    (h : e.group id = some g) : e.keys id = some g.filterKey := by rw [keys, h]; rfl

lemma members_of_group {e : SubscriptionEngine}
    (h : e.group id = some g) : e.members id = g.subscribers := by rw [members, h]; rfl

lemma group_of_active {e : SubscriptionEngine} {reg : Registry} (h : e.Coherent reg)
    (ha : e.active key = some id) : ∃ g, e.group id = some g ∧ key ∈ g.subscribers := by
  have hm := (h.subscribed.active key id).mp ha
  rw [members] at hm
  cases hg : e.group id with
  | none =>
    rw [hg] at hm
    cases hm
  | some g =>
    rw [hg] at hm
    exact ⟨g, rfl, hm⟩

lemma Coherent.isSome_active {e : SubscriptionEngine} {reg : Registry} (h : e.Coherent reg)
    (key : SubscriberKey) : (e.active key).isSome = (reg key).isSome := by
  have hr := h.registered key
  cases ha : e.active key with
  | none =>
    rw [ha] at hr
    cases hreg : reg key with
    | none => rfl
    | some p =>
      rw [hreg] at hr
      cases hr
  | some id =>
    obtain ⟨g, hg, -⟩ := group_of_active h ha
    rw [ha, bind_some, keys_of_group hg] at hr
    cases hreg : reg key with
    | none =>
      rw [hreg] at hr
      cases hr
    | some p => rfl

section Views

variable (e : SubscriptionEngine)

lemma keys_put (id : ℕ) (g : SubscriptionGroup) (e' : SubscriptionEngine)
    (h : e'.groups = put eqKey id g e.groups) : e'.keys = update e.keys id (some g.filterKey) := by
  funext id'
  have := congrFun (find_put_eqKey id g e.groups) id'
  rw [keys, group, h, this]
  by_cases hid : id' = id
  · subst hid
    simp
  · simp [hid, keys, group]

lemma members_put (id : ℕ) (g : SubscriptionGroup) (e' : SubscriptionEngine)
    (h : e'.groups = put eqKey id g e.groups) : e'.members = update e.members id g.subscribers := by
  funext id'
  have := congrFun (find_put_eqKey id g e.groups) id'
  rw [members, group, h, this]
  by_cases hid : id' = id
  · subst hid
    simp
  · simp [hid, members, group]

lemma keys_remove (id : ℕ) (e' : SubscriptionEngine) (h : e'.groups = AssocMap.remove eqKey id e.groups) :
    e'.keys = update e.keys id none := by
  funext id'
  have := congrFun (find_remove_eqKey id e.groups) id'
  rw [keys, group, h, this]
  by_cases hid : id' = id
  · subst hid
    simp
  · simp [hid, keys, group]

lemma members_remove (id : ℕ) (e' : SubscriptionEngine) (h : e'.groups = AssocMap.remove eqKey id e.groups) :
    e'.members = update e.members id [] := by
  funext id'
  have := congrFun (find_remove_eqKey id e.groups) id'
  rw [members, group, h, this]
  by_cases hid : id' = id
  · subst hid
    simp
  · simp [hid, members, group]

lemma active_put (key : SubscriberKey) (id : ℕ) (e' : SubscriptionEngine)
    (h : e'.activeSubs = put eqKey key id e.activeSubs) : e'.active = update e.active key (some id) := by
  funext k
  rw [active, h]
  exact congrFun (find_put_eqKey key id e.activeSubs) k

lemma active_remove (key : SubscriberKey) (e' : SubscriptionEngine)
    (h : e'.activeSubs = AssocMap.remove eqKey key e.activeSubs) : e'.active = update e.active key none := by
  funext k
  rw [active, h]
  exact congrFun (find_remove_eqKey key e.activeSubs) k

lemma byFilter_put (k : CollectionFilterKey) (id : ℕ) (e' : SubscriptionEngine)
    (h : e'.groupsByFilter = put eqlFilterKey k id e.groupsByFilter) :
    e'.byFilter = fun k' => if eqlFilterKey k k' then some id else e.byFilter k' := by
  funext k'
  rw [byFilter, h, find_put]
  rfl

lemma byFilter_remove (k : CollectionFilterKey) (e' : SubscriptionEngine)
    (h : e'.groupsByFilter = AssocMap.remove eqlFilterKey k e.groupsByFilter) :
    e'.byFilter = fun k' => if eqlFilterKey k k' then none else e.byFilter k' := by
  funext k'
  rw [byFilter, h, find_remove]
  rfl

lemma trieAt_put (coll : CollectionKey) (n : Node) (e' : SubscriptionEngine)
    (h : e'.triesByCollection = put eqKey coll n e.triesByCollection) :
    e'.trieAt = update e.trieAt coll n := by
  funext coll'
  have := congrFun (find_put_eqKey coll n e.triesByCollection) coll'
  rw [trieAt, h, this]
  by_cases hc : coll' = coll
  · subst hc
    simp
  · simp [hc, trieAt]

lemma trieAt_remove (coll : CollectionKey) (e' : SubscriptionEngine)
    (h : e'.triesByCollection = AssocMap.remove eqKey coll e.triesByCollection) :
    e'.trieAt = update e.trieAt coll Node.empty := by
  funext coll'
  have := congrFun (find_remove_eqKey coll e.triesByCollection) coll'
  rw [trieAt, h, this]
  by_cases hc : coll' = coll
  · subst hc
    simp
  · simp [hc, trieAt]

def joined (key : SubscriberKey) (id : ℕ) (g : SubscriptionGroup) : SubscriptionEngine :=
  { e with
    groups := put eqKey id (g.putSubscriber key) e.groups
    activeSubs := put eqKey key id e.activeSubs }

def created (coll : CollectionKey) (filter : QueryFilter) (key : SubscriberKey) (trie : Node) :
    SubscriptionEngine where
  groupsByFilter := put eqlFilterKey ⟨coll, filter⟩ e.nextGroupId e.groupsByFilter
  groups := put eqKey e.nextGroupId
    { id := e.nextGroupId, namespaceId := coll.namespaceId, tableIndex := coll.tableIndex, filter,
      subscribers := [key] } e.groups
  groupsByCollection := put eqKey coll (e.listAt coll ++ [e.nextGroupId]) e.groupsByCollection
  triesByCollection := put eqKey coll trie e.triesByCollection
  activeSubs := put eqKey key e.nextGroupId e.activeSubs
  nextGroupId := e.nextGroupId + 1

def without (key : SubscriberKey) (id : ℕ) (g : SubscriptionGroup) : SubscriptionEngine :=
  { e with
    activeSubs := AssocMap.remove eqKey key e.activeSubs
    groups := put eqKey id (g.removeSubscriber key) e.groups }

variable {e}

lemma joined_keys (hg : e.group id = some g) : (e.joined key id g).keys = e.keys := by
  rw [e.keys_put id _ (e.joined key id g) rfl]
  exact update_eq_self_iff.mpr (keys_of_group hg).symm

lemma created_keys (coll : CollectionKey) (filter : QueryFilter) (key : SubscriberKey)
    (trie : Node) : (e.created coll filter key trie).keys =
      update e.keys e.nextGroupId (some ⟨coll, filter⟩) := by
  rw [e.keys_put _ _ (e.created coll filter key trie) rfl]
  rfl

lemma without_keys (hg : e.group id = some g) : (e.without key id g).keys = e.keys := by
  rw [e.keys_put id _ (e.without key id g) rfl]
  exact update_eq_self_iff.mpr (keys_of_group hg).symm

lemma without_members :
    (e.without key id g).members = update e.members id (g.removeSubscriber key).subscribers :=
  e.members_put id _ (e.without key id g) rfl

end Views

section Calls

variable {e : SubscriptionEngine} {reg : Registry}

lemma registered_join {keys keys' : ℕ → Option CollectionFilterKey}
    {active : SubscriberKey → Option ℕ} {k k₀ : CollectionFilterKey}
    (h : ∀ key, sameOption eqlFilterKey ((reg key).map fun p => ⟨p.1, p.2⟩) ((active key).bind keys))
    (hid : keys' id = some k₀) (hk : eqlFilterKey k k₀)
    (hsame : ∀ key id', active key = some id' → keys' id' = keys id') (key₀ : SubscriberKey) :
    ∀ key, sameOption eqlFilterKey
      ((if key = key₀ then some (k.collection, k.filter) else reg key).map fun p => ⟨p.1, p.2⟩)
      ((update active key₀ (some id) key).bind keys') := by
  intro key
  by_cases hkey : key = key₀
  · subst hkey
    simpa [hid, sameOption] using hk
  · rw [if_neg hkey, update_of_ne hkey]
    have hr := h key
    cases ha : active key with
    | none =>
      rw [ha] at hr
      exact hr
    | some id' =>
      rw [ha, bind_some] at hr
      rw [bind_some, hsame key id' ha]
      exact hr

lemma Coherent.join (h : e.Coherent reg) (hnew : e.active key = none)
    (hg : e.group id = some g) (hk : eqlFilterKey ⟨coll, filter⟩ g.filterKey) :
    (e.joined key id g).Coherent (fun k => if k = key then some (coll, filter) else reg k) := by
  have hfresh : key ∉ g.subscribers := fun hm => by
    rw [← members_of_group hg, ← h.subscribed.active key id, hnew] at hm
    cases hm
  have hkeys : (e.joined key id g).keys = e.keys := joined_keys hg
  have hmembers : (e.joined key id g).members = update e.members id (e.members id ++ [key]) := by
    rw [e.members_put id _ (e.joined key id g) rfl, members_of_group hg]
    simp [SubscriptionGroup.putSubscriber, hfresh]
  have hactive : (e.joined key id g).active = update e.active key (some id) :=
    e.active_put key id (e.joined key id g) rfl
  refine ⟨?_, ?_, ?_⟩
  · rw [hkeys]
    exact h.indexed
  · rw [hactive, hmembers]
    exact h.subscribed.join hnew id
  · rw [hactive, hkeys]
    exact registered_join h.registered (keys_of_group hg) hk (fun _ _ _ => rfl) key

lemma Coherent.created (h : e.Coherent reg) (hops : filter.predicate.HasOperands) (hnew : e.active key = none)
    (hfilter : e.byFilter ⟨coll, filter⟩ = none) {m : Node} (hm : m.WellFormed)
    (hhas : ∀ id q, Node.has id q m = (Node.has id q (e.trieAt coll) ||
      (filter.predicate.state ≠ .matchNone && samePath (triePath filter.predicate) q &&
        e.nextGroupId = id))) :
    (e.created coll filter key m).Coherent (fun k => if k = key then some (coll, filter) else reg k) := by
  have hkeys : (e.created coll filter key m).keys = update e.keys e.nextGroupId (some ⟨coll, filter⟩) :=
    created_keys coll filter key m
  have hmembers : (e.created coll filter key m).members = update e.members e.nextGroupId [key] :=
    e.members_put _ _ (e.created coll filter key m) rfl
  have hactive : (e.created coll filter key m).active = update e.active key (some e.nextGroupId) :=
    e.active_put key _ (e.created coll filter key m) rfl
  have hfresh : e.keys e.nextGroupId = none := h.indexed.fresh
  refine ⟨?_, ?_, ?_⟩
  · rw [hkeys, e.byFilter_put _ _ (e.created coll filter key m) rfl,
      e.trieAt_put coll m (e.created coll filter key m) rfl]
    exact h.indexed.create hops hfilter hm hhas
  · rw [hactive, hmembers]
    have hempty : e.members e.nextGroupId = [] := by
      rw [keys, map_eq_none_iff] at hfresh
      rw [members, hfresh]
      rfl
    have := h.subscribed.join hnew e.nextGroupId
    rw [hempty] at this
    exact this
  · rw [hactive, hkeys]
    refine registered_join (k := ⟨coll, filter⟩) h.registered (update_self _ _ _)
      (KeyTest.refl _) (fun k id' ha => ?_) key
    obtain ⟨g, hg, -⟩ := group_of_active h ha
    refine update_of_ne (fun hid => ?_) _ _
    rw [hid] at hg
    rw [keys_of_group hg] at hfresh
    cases hfresh

lemma Coherent.create (h : e.Coherent reg) (hops : filter.predicate.HasOperands) (hnew : e.active key = none)
    (hfilter : e.byFilter ⟨coll, filter⟩ = none) :
    ∃ e', e.subscribe coll filter key = .ok e' ∧
      Coherent e' (fun k => if k = key then some (coll, filter) else reg k) := by
  obtain ⟨m, hm, hwf, hhas⟩ := insertGroup_spec (h.indexed.tries coll).wellFormed hops e.nextGroupId
  refine ⟨e.created coll filter key m, ?_, h.created hops hnew hfilter hwf hhas⟩
  rw [active] at hnew
  rw [byFilter] at hfilter
  simp [subscribe, hnew, hfilter, createSubscriptionGroup, hm, SubscriptionEngine.created]

lemma Coherent.subscribe_ok (h : e.Coherent reg)
    (hops : filter.predicate.HasOperands) (hnew : e.active key = none) :
    ∃ e', e.subscribe coll filter key = .ok e' := by
  cases hf : e.byFilter ⟨coll, filter⟩ with
  | none =>
    obtain ⟨e', he', -⟩ := h.create hops hnew hf
    exact ⟨e', he'⟩
  | some id =>
    obtain ⟨k, hkey, -⟩ := (h.indexed.byFilter _ id).mp hf
    obtain ⟨g, hg, -⟩ := map_eq_some_iff.mp hkey
    rw [active] at hnew
    rw [byFilter] at hf
    simp [SubscriptionEngine.subscribe, hnew, hf, hg]

lemma Coherent.subscribe (h : e.Coherent reg) (hops : filter.predicate.HasOperands) (key : SubscriberKey) :
    (e.call (.subscribe coll filter key)).Coherent (reg.call (.subscribe coll filter key)) := by
  have hsome := h.isSome_active key
  simp only [SubscriptionEngine.call, Registry.call]
  cases hreg : reg key with
  | some p =>
    rw [hreg, isSome_some] at hsome
    have : e.subscribe coll filter key = .error .alreadySubscribed := by
      rw [active] at hsome
      simp [SubscriptionEngine.subscribe, hsome]
    rw [this]
    exact h
  | none =>
    rw [hreg, isSome_none, isSome_eq_false_iff, isNone_iff_eq_none] at hsome
    cases hf : e.byFilter ⟨coll, filter⟩ with
    | none =>
      obtain ⟨e', he', hc⟩ := h.create hops hsome hf
      rw [he']
      exact hc
    | some id =>
      obtain ⟨k, hkey, hk⟩ := (h.indexed.byFilter _ id).mp hf
      rw [keys, map_eq_some_iff] at hkey
      obtain ⟨g, hg, rfl⟩ := hkey
      have hjoin := h.join hsome hg hk
      rw [active] at hsome
      rw [byFilter] at hf
      simpa [SubscriptionEngine.subscribe, hsome, hf, hg, Except.toOption, joined] using hjoin

lemma removeGroup_empty (id : ℕ) (p : FilterPredicate) : Node.empty.removeGroup id p = Node.empty := by
  have hpath (path : List Condition) : Node.removeAlongPath id path .empty = .empty := by
    cases path with
    | nil => rfl
    | cons step path =>
      rw [Node.removeAlongPath, Node.empty, Node.child]
      split_ifs
      · cases step.value <;> rfl
      · rfl
  rw [Node.removeGroup]
  cases p.state with
  | matchNone => rfl
  | matchAll => rfl
  | conditional =>
    cases p.conditions with
    | none => rfl
    | some _ => exact hpath _

lemma isEmpty_iff (n : Node) : n.isEmpty ↔ n = .empty := by
  obtain ⟨leaves, eqs, conds⟩ := n
  simp [Node.isEmpty, Node.empty, and_assoc]

/-- One node of the tries is changed, and dropped if it is then empty. -/
lemma trieAt_edit (e : SubscriptionEngine) (coll : CollectionKey) {f : Node → Node} (hf : f .empty = .empty) :
    (match find eqKey coll e.triesByCollection with
      | none => e
      | some trie =>
        { e with
          triesByCollection :=
            if (f trie).isEmpty then AssocMap.remove eqKey coll e.triesByCollection
            else put eqKey coll (f trie) e.triesByCollection }).trieAt =
      update e.trieAt coll (f (e.trieAt coll)) := by
  cases hfound : find eqKey coll e.triesByCollection with
  | none =>
    have hempty : e.trieAt coll = .empty := by rw [trieAt, hfound]; rfl
    rw [hempty, hf, ← hempty, update_eq_self]
  | some n =>
    have hn : e.trieAt coll = n := by rw [trieAt, hfound]; rfl
    rw [hn]
    dsimp only
    split_ifs with hempty
    · rw [e.trieAt_remove coll _ rfl, (isEmpty_iff _).mp hempty]
    · exact e.trieAt_put coll _ _ rfl

lemma trieAt_removeGroupFromTrie (e : SubscriptionEngine) (coll : CollectionKey) (id : ℕ)
    (filter : QueryFilter) : (e.removeGroupFromTrie coll id filter).trieAt =
      update e.trieAt coll ((e.trieAt coll).removeGroup id filter.predicate) :=
  e.trieAt_edit coll (removeGroup_empty id filter.predicate)

@[simp] lemma removeGroupFromTrie_groups (e : SubscriptionEngine) (coll : CollectionKey)
    (id : ℕ) (filter : QueryFilter) : (e.removeGroupFromTrie coll id filter).groups = e.groups := by
  simp only [removeGroupFromTrie]
  cases find eqKey coll e.triesByCollection <;> rfl

@[simp] lemma removeGroupFromTrie_byFilter (e : SubscriptionEngine) (coll : CollectionKey)
    (id : ℕ) (filter : QueryFilter) :
    (e.removeGroupFromTrie coll id filter).groupsByFilter = e.groupsByFilter := by
  simp only [removeGroupFromTrie]
  cases find eqKey coll e.triesByCollection <;> rfl

@[simp] lemma removeGroupFromTrie_activeSubs (e : SubscriptionEngine) (coll : CollectionKey)
    (id : ℕ) (filter : QueryFilter) : (e.removeGroupFromTrie coll id filter).activeSubs = e.activeSubs := by
  simp only [removeGroupFromTrie]
  cases find eqKey coll e.triesByCollection <;> rfl

@[simp] lemma removeGroupFromTrie_nextGroupId (e : SubscriptionEngine) (coll : CollectionKey)
    (id : ℕ) (filter : QueryFilter) : (e.removeGroupFromTrie coll id filter).nextGroupId = e.nextGroupId := by
  simp only [removeGroupFromTrie]
  cases find eqKey coll e.triesByCollection <;> rfl

lemma swapRemove_perm (id : ℕ) (ids : List ℕ) : (swapRemove id ids).Perm (ids.erase id) := by
  induction ids with
  | nil => exact .nil
  | cons a ids ih =>
    rw [swapRemove]
    split_ifs with ha
    · rw [ha, erase_cons_head]
      cases hl : ids.getLast? with
      | none =>
        rw [getLast?_eq_none_iff] at hl
        rw [hl]
      | some last =>
        obtain ⟨init, rfl⟩ := getLast?_eq_some_iff.mp hl
        rw [dropLast_concat]
        exact (perm_append_singleton last init).symm
    · rw [erase_cons_tail (by simpa using ha)]
      exact ih.cons a

@[simp] lemma removeGroupFromCollectionIndex_frame (e : SubscriptionEngine) (coll : CollectionKey) (id : ℕ) :
    (e.removeGroupFromCollectionIndex coll id).groups = e.groups ∧
    (e.removeGroupFromCollectionIndex coll id).groupsByFilter = e.groupsByFilter ∧
    (e.removeGroupFromCollectionIndex coll id).triesByCollection = e.triesByCollection ∧
    (e.removeGroupFromCollectionIndex coll id).activeSubs = e.activeSubs ∧
    (e.removeGroupFromCollectionIndex coll id).nextGroupId = e.nextGroupId := by
  simp only [removeGroupFromCollectionIndex]
  cases find eqKey coll e.groupsByCollection <;> exact ⟨rfl, rfl, rfl, rfl, rfl⟩

lemma trieAt_congr {e e' : SubscriptionEngine}
    (h : e'.triesByCollection = e.triesByCollection) : e'.trieAt = e.trieAt := by
  funext coll
  rw [trieAt, h, trieAt]

lemma destroyGroup_views (e : SubscriptionEngine) (id : ℕ) (g : SubscriptionGroup) :
    (e.destroyGroup id g).keys = update e.keys id none ∧
    (e.destroyGroup id g).members = update e.members id [] ∧
    (e.destroyGroup id g).active = e.active ∧
    (e.destroyGroup id g).byFilter = (fun k => if eqlFilterKey g.filterKey k then none else e.byFilter k) ∧
    (e.destroyGroup id g).trieAt = update e.trieAt g.collection
      ((e.trieAt g.collection).removeGroup id g.filter.predicate) ∧
    (e.destroyGroup id g).nextGroupId = e.nextGroupId := by
  refine ⟨?_, ?_, ?_, ?_, ?_, ?_⟩
  · exact e.keys_remove id _ (by simp [destroyGroup])
  · exact e.members_remove id _ (by simp [destroyGroup])
  · funext key
    simp [destroyGroup, active]
  · exact e.byFilter_remove g.filterKey _ (by simp [destroyGroup])
  · refine (trieAt_congr ?_).trans (trieAt_removeGroupFromTrie
      { e with groupsByFilter := AssocMap.remove eqlFilterKey g.filterKey e.groupsByFilter }
      g.collection id g.filter)
    simp [destroyGroup]
  · simp [destroyGroup]

lemma removeSubscriber_cases (h : e.Coherent reg) (key : SubscriberKey) :
    (e.active key = none ∧ e.removeSubscriber key = e) ∨
    ∃ id g, e.active key = some id ∧ e.group id = some g ∧ e.removeSubscriber key =
      if (g.removeSubscriber key).subscribers.length = 0 then
        (e.without key id g).destroyGroup id (g.removeSubscriber key)
      else e.without key id g := by
  rw [SubscriptionEngine.removeSubscriber]
  cases ha : find eqKey key e.activeSubs with
  | none => exact .inl ⟨ha, rfl⟩
  | some id =>
    obtain ⟨g, hg, -⟩ := group_of_active h ha
    have hg' : find eqKey id e.groups = some g := hg
    refine .inr ⟨id, g, ha, hg, ?_⟩
    simp only [group, hg']
    rfl

lemma Coherent.removeSubscriber (h : e.Coherent reg) (key : SubscriberKey) :
    (e.removeSubscriber key).Coherent (reg.remove key) := by
  obtain ⟨hnone, hsame⟩ | ⟨id, g, ha, hg, hcall⟩ := removeSubscriber_cases h key
  · have hsome := h.isSome_active key
    rw [hnone, eq_comm, isSome_none, isSome_eq_false_iff, isNone_iff_eq_none] at hsome
    have : reg.remove key = reg := by
      funext k
      by_cases hk : k = key
      · subst hk
        simp [Registry.remove, hsome]
      · simp [Registry.remove, hk]
    rw [hsame, this]
    exact h
  rw [hcall]
  set e₁ : SubscriptionEngine := e.without key id g with he₁
  have hkeys : e₁.keys = e.keys := without_keys hg
  have hmembers : e₁.members = update e.members id ((e.members id).filter (· ≠ key)) := by
    rw [he₁, without_members, members_of_group hg]
    rfl
  have hactive : e₁.active = update e.active key none := e.active_remove key e₁ rfl
  have hsub : Subscribed e₁.active e₁.members := by
    rw [hactive, hmembers]
    exact h.subscribed.leave ha
  have hreg (keys' : ℕ → Option CollectionFilterKey)
      (hsame : ∀ key' id', e₁.active key' = some id' → keys' id' = e.keys id') (key' : SubscriberKey) :
      sameOption eqlFilterKey (((reg.remove key) key').map fun p => ⟨p.1, p.2⟩)
        ((e₁.active key').bind keys') := by
    rw [hactive] at hsame ⊢
    by_cases hk : key' = key
    · subst hk
      simp [Registry.remove, sameOption]
    · rw [Registry.remove, if_neg hk, update_of_ne hk]
      have hr := h.registered key'
      cases ha' : e.active key' with
      | none =>
        rw [ha'] at hr
        exact hr
      | some id' =>
        rw [ha', bind_some] at hr
        rw [bind_some, hsame key' id' (by rw [update_of_ne hk, ha'])]
        exact hr
  split_ifs with hempty
  · obtain ⟨vkeys, vmembers, vactive, vfilter, vtrie, vnext⟩ :=
      destroyGroup_views e₁ id (g.removeSubscriber key)
    have hnone : e₁.members id = [] := by
      rw [e.members_put id _ e₁ rfl, update_self]
      exact length_eq_zero_iff.mp hempty
    refine ⟨?_, ?_, ?_⟩
    · rw [vkeys, vfilter, vtrie, vnext, hkeys]
      exact h.indexed.destroy (k := g.filterKey) (keys_of_group hg)
    · rw [vmembers, vactive, update_eq_self_iff.mpr hnone.symm]
      exact hsub
    · rw [vactive, vkeys, hkeys]
      refine hreg _ fun key' id' ha' => update_of_ne (fun hid => ?_) _ _
      rw [hsub.active, hid, hnone] at ha'
      cases ha'
  · refine ⟨?_, hsub, ?_⟩
    · rw [hkeys]
      exact h.indexed
    · rw [hkeys]
      exact hreg _ fun _ _ _ => rfl

lemma Coherent.removeAll (h : e.Coherent reg) (connectionId : ℕ) (ids : List ℕ) :
    (ids.foldl (fun e id => e.removeSubscriber ⟨connectionId, id⟩) e).Coherent
      (ids.foldl (fun reg id => reg.remove ⟨connectionId, id⟩) reg) := by
  induction ids generalizing e reg with
  | nil => exact h
  | cons id ids ih => exact ih (h.removeSubscriber _)

lemma Coherent.call (h : e.Coherent reg) (c : SubscriptionCall)
    (hc : ∀ coll filter key, c = .subscribe coll filter key → filter.predicate.HasOperands) :
    (e.call c).Coherent (reg.call c) := by
  cases c with
  | subscribe coll filter key => exact h.subscribe (hc coll filter key rfl) key
  | unsubscribe connectionId id => exact h.removeSubscriber _
  | unsubscribeMany connectionId ids => exact h.removeAll connectionId ids

lemma coherent_run (calls : List SubscriptionCall)
    (hc : ∀ coll filter key, .subscribe coll filter key ∈ calls →
      filter.predicate.HasOperands) : (SubscriptionEngine.run calls).Coherent (Registry.run calls) := by
  have hstep (e : SubscriptionEngine) (reg : Registry) (h : e.Coherent reg) :
      (calls.foldl SubscriptionEngine.call e).Coherent (calls.foldl Registry.call reg) := by
    induction calls generalizing e reg with
    | nil => exact h
    | cons c calls ih =>
      refine ih (fun coll filter key hm => hc coll filter key (mem_cons_of_mem _ hm)) _ _
        (h.call c fun coll filter key he => hc coll filter key ?_)
      rw [he]
      exact mem_cons_self
  exact hstep _ _ coherent_init

end Calls

end SubscriptionEngine
end ZyncBase
