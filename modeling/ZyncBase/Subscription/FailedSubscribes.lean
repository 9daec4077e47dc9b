import ZyncBase.Subscription.EngineFaults
import ZyncBase.Subscription.FaultyInsertion
import ZyncBase.Subscription.IndexAgreement

/-! Subscriptions with every allocation that they make, each of which may fail: what a failed subscription
has undone, in every state that calls can reach. -/
namespace ZyncBase

open AssocMap Function Machine List Node Attempt
open Attempt (meets_bind meets_change meets_read meets_onError meets_pure meets_fail)

namespace SubscriptionEngine

section Model

variable (fails : SubscribeFailures)

def alloc (site : SubscribeSite) : Attempt SubscriptionEngine Unit := fun e =>
  (if fails site then none else some (), e)

section Creation

variable (coll : CollectionKey) (groupId : ℕ) (filter : QueryFilter)

/-- The list of a collection, and whether it was made for this call. -/
def getOrPutList : Attempt SubscriptionEngine Bool := do
  let e ← read
  if (find eqKey coll e.groupsByCollection).isSome then return false
  else
    alloc fails .putList
    change fun e => { e with groupsByCollection := put eqKey coll [] e.groupsByCollection }
    return true

def dropList (created : Bool) (e : SubscriptionEngine) : SubscriptionEngine :=
  if created then { e with groupsByCollection := remove eqKey coll e.groupsByCollection }
  else e

def getOrPutTrie : Attempt SubscriptionEngine Unit := do
  let e ← read
  if (find eqKey coll e.triesByCollection).isSome then return ()
  else
    alloc fails .putTrie
    change fun e => { e with triesByCollection := put eqKey coll empty e.triesByCollection }

def insertGroup : Attempt SubscriptionEngine Unit := do
  let e ← read
  let inserted := (e.trieAt coll).insertGroupOr fails groupId filter.predicate
  change fun e =>
    { e with triesByCollection := put eqKey coll inserted.2 e.triesByCollection }
  if inserted.1 then pure () else fail

def placeGroup : Attempt SubscriptionEngine Unit := do
  getOrPutTrie fails coll
  (insertGroup fails coll groupId filter).onError fun e =>
    e.removeGroupFromTrieOr (fails .removePath) coll groupId filter

def appendGroup : Attempt SubscriptionEngine Unit := do
  alloc fails .appendList
  change fun e =>
    { e with
      groupsByCollection := put eqKey coll (e.listAt coll ++ [groupId]) e.groupsByCollection }
  (placeGroup fails coll groupId filter).onError fun e => e.removeGroupFromCollectionIndex coll groupId

def listGroup : Attempt SubscriptionEngine Unit := do
  let created ← getOrPutList fails coll
  (appendGroup fails coll groupId filter).onError (dropList coll created)

def fileGroup : Attempt SubscriptionEngine Unit := do
  alloc fails .putFilter
  change fun e =>
    { e with groupsByFilter := put eqlFilterKey ⟨coll, filter⟩ groupId e.groupsByFilter }
  (listGroup fails coll groupId filter).onError fun e =>
    { e with groupsByFilter := remove eqlFilterKey ⟨coll, filter⟩ e.groupsByFilter }

/-- A new group, entered in one index after the other. -/
def createGroup (key : SubscriberKey) : Attempt SubscriptionEngine ℕ := do
  let e ← read
  let groupId := e.nextGroupId
  change fun e => { e with nextGroupId := groupId + 1 }
  alloc fails .cloneFilter
  alloc fails .putMember
  alloc fails .putGroup
  let g : SubscriptionGroup :=
    { id := groupId, namespaceId := coll.namespaceId, tableIndex := coll.tableIndex, filter,
      subscribers := [key] }
  change fun e => { e with groups := put eqKey groupId g e.groups }
  (fileGroup fails coll groupId filter).onError fun e =>
    { e with groups := remove eqKey groupId e.groups }
  return groupId

def joinGroup (key : SubscriberKey) : Attempt SubscriptionEngine ℕ := do
  let e ← read
  match e.group groupId with
  | none => fail
  | some g =>
    alloc fails .putMember
    change fun e => { e with groups := put eqKey groupId (g.putSubscriber key) e.groups }
    return groupId

/-- A subscriber that cannot be made active leaves its group again. -/
def trySubscribe (key : SubscriberKey) : Attempt SubscriptionEngine Unit := do
  let e ← read
  if (find eqKey key e.activeSubs).isSome then fail
  else
    let groupId ← match find eqlFilterKey ⟨coll, filter⟩ e.groupsByFilter with
      | some groupId => joinGroup fails groupId key
      | none => createGroup fails coll filter key
    (alloc fails .putActive).onError fun e => e.leaveGroup (fails .removePath) groupId key
    change fun e => { e with activeSubs := put eqKey key groupId e.activeSubs }

end Creation

end Model

end SubscriptionEngine

variable {lost : Prop}

namespace SubscriptionEngine

/-- What holds of the engine whatever fails: the indexes agree on the live groups, all of which have
members and are listed. -/
structure Steady (e : SubscriptionEngine) : Prop extends Populated e where
  coherent : ∃ reg, e.Coherent reg

section Placing

variable {fails : SubscribeFailures} {e e' : SubscriptionEngine} {coll : CollectionKey} {groupId : ℕ}
  {filter : QueryFilter}

lemma meets_alloc {site : SubscribeSite} {Q : Unit → SubscriptionEngine → Prop}
    {E : SubscriptionEngine → Prop} :
    (alloc fails site).Meets e Q E ↔ if fails site then E e else Q () e := by
  unfold Meets alloc
  split_ifs
  · rfl
  · rfl

def withTrie (e : SubscriptionEngine) (coll : CollectionKey) (n : Node) : SubscriptionEngine :=
  { e with triesByCollection := put eqKey coll n e.triesByCollection }

/-- The tries have the same groups on the same paths, and the rest is the same. -/
def TriesKept (e e' : SubscriptionEngine) : Prop :=
  (∃ tries, e' = { e with triesByCollection := tries }) ∧
    ∀ coll, (e'.trieAt coll).WellFormed ∧ ∀ id q, has id q (e'.trieAt coll) = has id q (e.trieAt coll)

lemma trieAt_removeGroupFromTrieOr (oom : Bool) (e : SubscriptionEngine) (coll : CollectionKey) (id : ℕ)
    (filter : QueryFilter) : (e.removeGroupFromTrieOr oom coll id filter).trieAt =
      update e.trieAt coll ((e.trieAt coll).removeGroupOr oom id filter.predicate) := by
  refine e.trieAt_edit coll (f := removeGroupOr oom id filter.predicate) ?_
  unfold removeGroupOr
  split_ifs
  · rfl
  · exact removeGroup_empty id filter.predicate

lemma removeGroupFromTrieOr_eq (oom : Bool) (e : SubscriptionEngine) (coll : CollectionKey) (id : ℕ)
    (filter : QueryFilter) : ∃ tries, e.removeGroupFromTrieOr oom coll id filter =
      { e with triesByCollection := tries } := by
  unfold removeGroupFromTrieOr
  cases find eqKey coll e.triesByCollection with
  | none => exact ⟨e.triesByCollection, rfl⟩
  | some trie => exact ⟨_, rfl⟩

lemma removeGroupOr_spec (oom : Bool) {n : Node} (hn : n.WellFormed) {p : FilterPredicate}
    (hp : p.HasOperands) (g : ℕ) : (n.removeGroupOr oom g p).WellFormed ∧
      (∀ id q, has id q (n.removeGroupOr oom g p) → has id q n) ∧
      ∀ id q, id ≠ g → has id q (n.removeGroupOr oom g p) = has id q n := by
  unfold removeGroupOr
  split_ifs
  · exact ⟨hn, fun _ _ => id, fun _ _ _ => rfl⟩
  · exact removeGroup_spec hn hp g

/-- No allocation fails while the group gets its place in the trie. -/
def TrieReady (fails : SubscribeFailures) (e : SubscriptionEngine) (coll : CollectionKey)
    (filter : QueryFilter) : Prop :=
  ((find eqKey coll e.triesByCollection).isSome ∨ ¬ fails .putTrie) ∧
    (e.trieAt coll).InsertReady fails filter.predicate

variable (htries : ∀ coll, (e.trieAt coll).WellFormed) (hops : filter.predicate.HasOperands)
  (hfresh : ∀ q, has groupId q (e.trieAt coll) = false)

include htries hops hfresh in
lemma meets_placeGroup : (placeGroup fails coll groupId filter).Meets e
    (fun _ e' => TrieReady fails e coll filter ∧
      e' = e.withTrie coll ((e.trieAt coll).insertGroupOr fails groupId filter.predicate).2)
    (fun e' => TriesKept e e' ∧ ¬ TrieReady fails e coll filter) := by
  obtain ⟨hwf, hhas, hready⟩ := insertGroupOr_spec fails (htries coll) hops groupId
  have hinsert (e₁ : SubscriptionEngine) (htrie : e₁.trieAt = e.trieAt)
      (hsome : (find eqKey coll e.triesByCollection).isSome ∨ ¬ fails .putTrie)
      (hput : ∀ n, put eqKey coll n e₁.triesByCollection = put eqKey coll n e.triesByCollection)
      (hsame : ∃ tries, e₁ = { e with triesByCollection := tries }) :
      ((insertGroup fails coll groupId filter).onError fun e =>
        e.removeGroupFromTrieOr (fails .removePath) coll groupId filter).Meets e₁
      (fun _ e' => TrieReady fails e coll filter ∧
        e' = e.withTrie coll ((e.trieAt coll).insertGroupOr fails groupId filter.predicate).2)
      (fun e' => TriesKept e e' ∧ ¬ TrieReady fails e coll filter) := by
    obtain ⟨tries, rfl⟩ := hsame
    rw [meets_onError, insertGroup, meets_bind, meets_read, meets_bind, meets_change, htrie]
    cases hok : ((e.trieAt coll).insertGroupOr fails groupId filter.predicate).1 with
    | true =>
      rw [if_pos rfl, meets_pure]
      refine ⟨⟨hsome, hready.mp hok⟩, ?_⟩
      rw [withTrie, ← hput]
    | false =>
      rw [if_neg Bool.false_ne_true, meets_fail]
      refine ⟨⟨?_, fun coll' => ?_⟩, fun h => Bool.false_ne_true (hok.symm.trans (hready.mpr h.2))⟩
      · obtain ⟨tries', h⟩ := removeGroupFromTrieOr_eq (fails .removePath)
          ({ e with triesByCollection := tries }.withTrie coll
            ((e.trieAt coll).insertGroupOr fails groupId filter.predicate).2) coll groupId filter
        exact ⟨tries', h⟩
      · rw [trieAt_removeGroupFromTrieOr, e.trieAt_put coll _ _ (hput _)]
        by_cases hc : coll' = coll
        · subst hc
          rw [update_self, update_self]
          obtain ⟨hwf', hsub, hother⟩ := removeGroupOr_spec (fails .removePath) hwf hops groupId
          refine ⟨hwf', fun id q => ?_⟩
          by_cases hid : id = groupId
          · subst hid
            rw [hfresh, ← Bool.not_eq_true]
            intro hq
            have hleft := hsub id q hq
            rw [hhas, hok, hfresh] at hleft
            cases hleft
          · rw [hother id q hid, hhas, hok, Bool.false_and, Bool.or_false]
        · rw [update_of_ne hc, update_of_ne hc]
          exact ⟨htries coll', fun _ _ => rfl⟩
  rw [placeGroup, meets_bind, getOrPutTrie, meets_bind, meets_read]
  by_cases hfound : (find eqKey coll e.triesByCollection).isSome
  · rw [if_pos hfound, meets_pure]
    exact hinsert e rfl (.inl hfound) (fun _ => rfl) ⟨_, rfl⟩
  rw [if_neg hfound, meets_bind, meets_alloc]
  by_cases hputTrie : fails .putTrie
  · rw [if_pos hputTrie]
    exact ⟨⟨⟨_, rfl⟩, fun coll' => ⟨htries coll', fun _ _ => rfl⟩⟩, fun h => h.1.elim hfound (· hputTrie)⟩
  · rw [if_neg hputTrie, meets_change]
    refine hinsert _ ?_ (.inr hputTrie) (fun n => put_put coll n empty e.triesByCollection) ⟨_, rfl⟩
    rw [e.trieAt_put coll empty _ rfl, update_eq_self_iff, trieAt, Option.not_isSome_iff_eq_none.mp hfound]
    rfl

end Placing

section Listing

variable {fails : SubscribeFailures} {e e' : SubscriptionEngine} {coll : CollectionKey} {groupId : ℕ}
  {filter : QueryFilter}

lemma swapRemove_append {ids : List ℕ} (h : groupId ∉ ids) : swapRemove groupId (ids ++ [groupId]) = ids := by
  induction ids with
  | nil => simp [swapRemove]
  | cons id ids ih =>
    obtain ⟨hid, hids⟩ := not_or.mp (mt mem_cons.mpr h)
    rw [cons_append, swapRemove, if_neg (Ne.symm hid), ih hids]

def ListReady (fails : SubscribeFailures) (e : SubscriptionEngine) (coll : CollectionKey) : Prop :=
  ((find eqKey coll e.groupsByCollection).isSome ∨ ¬ fails .putList) ∧ ¬ fails .appendList

def listed (fails : SubscribeFailures) (e : SubscriptionEngine) (coll : CollectionKey) (groupId : ℕ)
    (filter : QueryFilter) : SubscriptionEngine :=
  { e.withTrie coll ((e.trieAt coll).insertGroupOr fails groupId filter.predicate).2 with
    groupsByCollection := put eqKey coll (e.listAt coll ++ [groupId]) e.groupsByCollection }

variable (htries : ∀ coll, (e.trieAt coll).WellFormed) (hops : filter.predicate.HasOperands)
  (hfresh : ∀ q, has groupId q (e.trieAt coll) = false) (hunlisted : groupId ∉ e.listAt coll)

include htries hops hfresh hunlisted in
lemma meets_appendGroup (hfound : (find eqKey coll e.groupsByCollection).isSome) :
    (appendGroup fails coll groupId filter).Meets e
      (fun _ e' => ¬ fails .appendList ∧ TrieReady fails e coll filter ∧
        e' = e.listed fails coll groupId filter)
      (fun e' => ¬ (¬ fails .appendList ∧ TrieReady fails e coll filter) ∧ ∃ lists,
        TriesKept { e with groupsByCollection := lists } e' ∧
        (e.listAt coll ≠ [] → lists = e.groupsByCollection) ∧
        remove eqKey coll lists = remove eqKey coll e.groupsByCollection) := by
  obtain ⟨ids, hids⟩ := Option.isSome_iff_exists.mp hfound
  have hlist : e.listAt coll = ids := by rw [listAt, hids]; rfl
  rw [hlist] at hunlisted
  rw [appendGroup, meets_bind, meets_alloc]
  by_cases hfails : fails .appendList
  · rw [if_pos hfails]
    exact ⟨fun h => h.1 hfails, e.groupsByCollection,
      ⟨⟨_, rfl⟩, fun coll' => ⟨htries coll', fun _ _ => rfl⟩⟩, fun _ => rfl, rfl⟩
  rw [if_neg hfails, meets_bind, meets_change, meets_onError]
  set e₁ : SubscriptionEngine := { e with
    groupsByCollection := put eqKey coll (e.listAt coll ++ [groupId]) e.groupsByCollection } with he₁
  refine (meets_placeGroup (e := e₁) htries hops hfresh).mono (fun _ e' h => ?_) fun e' h => ?_
  · exact ⟨hfails, h⟩
  · refine ⟨fun hready => h.2 hready.2, ?_⟩
    obtain ⟨⟨⟨tries, rfl⟩, hkept⟩, -⟩ := h
    have hindexed : find eqKey coll e₁.groupsByCollection = some (ids ++ [groupId]) := by
      rw [he₁, hlist, find_put_self]
    refine ⟨if ids.length = 0 then remove eqKey coll e₁.groupsByCollection
      else put eqKey coll ids e₁.groupsByCollection, ⟨⟨tries, ?_⟩, fun coll' => ?_⟩, fun hne => ?_, ?_⟩
    · unfold removeGroupFromCollectionIndex
      simp only [hindexed, swapRemove_append hunlisted]
      rfl
    · have hframe := (removeGroupFromCollectionIndex_frame { e₁ with triesByCollection := tries } coll
        groupId).2.2.1
      rw [trieAt_congr hframe]
      exact hkept coll'
    · rw [hlist] at hne
      rw [if_neg (by simpa using hne), he₁, put_put, put_eq_self hids]
    · rw [he₁]
      split_ifs
      · rw [remove_put, remove, remove, filter_filter]
        simp
      · rw [remove_put, remove_put]

include htries hops hfresh hunlisted in
lemma meets_listGroup (hlists : find eqKey coll e.groupsByCollection ≠ some []) :
    (listGroup fails coll groupId filter).Meets e
      (fun _ e' => ListReady fails e coll ∧ TrieReady fails e coll filter ∧
        e' = e.listed fails coll groupId filter)
      (fun e' => ¬ (ListReady fails e coll ∧ TrieReady fails e coll filter) ∧ TriesKept e e') := by
  rw [listGroup, meets_bind, getOrPutList, meets_bind, meets_read]
  by_cases hfound : (find eqKey coll e.groupsByCollection).isSome
  · rw [if_pos hfound, meets_pure, meets_onError]
    refine (meets_appendGroup htries hops hfresh hunlisted hfound).mono (fun _ e' h => ?_) fun e' h => ?_
    · exact ⟨⟨.inl hfound, h.1⟩, h.2⟩
    · obtain ⟨hunready, lists, hkept, hsame, -⟩ := h
      have hne : e.listAt coll ≠ [] := by
        obtain ⟨ids, hids⟩ := Option.isSome_iff_exists.mp hfound
        rw [listAt, hids]
        rintro rfl
        exact hlists hids
      rw [hsame hne] at hkept
      exact ⟨fun h => hunready ⟨h.1.2, h.2⟩, hkept⟩
  have hnone : find eqKey coll e.groupsByCollection = none := by simpa using hfound
  rw [if_neg hfound, meets_bind, meets_alloc]
  by_cases hputList : fails .putList
  · rw [if_pos hputList]
    exact ⟨fun h => h.1.1.elim hfound (· hputList), ⟨_, rfl⟩, fun coll' => ⟨htries coll', fun _ _ => rfl⟩⟩
  rw [if_neg hputList, meets_bind, meets_change, meets_pure, meets_onError]
  set e₁ : SubscriptionEngine := { e with
    groupsByCollection := put eqKey coll [] e.groupsByCollection } with he₁
  have hlist₁ : e₁.listAt coll = [] := by rw [he₁, listAt, find_put_self]; rfl
  have hlist : e.listAt coll = [] := by rw [listAt, hnone]; rfl
  have hunlisted₁ : groupId ∉ e₁.listAt coll := by rw [hlist₁]; exact not_mem_nil
  have hfound₁ : (find eqKey coll e₁.groupsByCollection).isSome := by rw [he₁, find_put_self]; rfl
  refine (meets_appendGroup (e := e₁) htries hops hfresh hunlisted₁ hfound₁).mono
    (fun _ e' h => ?_) fun e' h => ?_
  · refine ⟨⟨.inr hputList, h.1⟩, h.2.1, h.2.2.trans ?_⟩
    rw [listed, listed, hlist₁, hlist, he₁, put_put]
    rfl
  · obtain ⟨hunready, lists, ⟨⟨tries, rfl⟩, hkept⟩, -, hremoved⟩ := h
    refine ⟨fun h => hunready ⟨h.1.2, h.2⟩, ⟨tries, ?_⟩, hkept⟩
    rw [dropList, if_pos rfl, hremoved, he₁, remove_put, remove_of_find_none hnone]

end Listing

section Creating

variable {fails : SubscribeFailures} {e e' : SubscriptionEngine} {coll : CollectionKey} {groupId : ℕ}
  {filter : QueryFilter} {key : SubscriberKey}

/-- No allocation fails while a group is made. -/
def GroupReady (fails : SubscribeFailures) (e : SubscriptionEngine) (coll : CollectionKey)
    (filter : QueryFilter) : Prop :=
  ¬ fails .cloneFilter ∧ ¬ fails .putMember ∧ ¬ fails .putGroup ∧ ¬ fails .putFilter ∧
    ListReady fails e coll ∧ TrieReady fails e coll filter

def filed (fails : SubscribeFailures) (e : SubscriptionEngine) (coll : CollectionKey) (groupId : ℕ)
    (filter : QueryFilter) : SubscriptionEngine :=
  { e.listed fails coll groupId filter with
    groupsByFilter := put eqlFilterKey ⟨coll, filter⟩ groupId e.groupsByFilter }

def grouped (fails : SubscribeFailures) (e : SubscriptionEngine) (coll : CollectionKey)
    (filter : QueryFilter) (key : SubscriberKey) : SubscriptionEngine :=
  { e.created coll filter key ((e.trieAt coll).insertGroupOr fails e.nextGroupId filter.predicate).2 with
    activeSubs := e.activeSubs }

lemma meets_fileGroup (htries : ∀ coll, (e.trieAt coll).WellFormed)
    (hops : filter.predicate.HasOperands) (hfresh : ∀ q, has groupId q (e.trieAt coll) = false)
    (hunlisted : groupId ∉ e.listAt coll) (hlists : find eqKey coll e.groupsByCollection ≠ some [])
    (hunfiled : e.byFilter ⟨coll, filter⟩ = none) :
    (fileGroup fails coll groupId filter).Meets e
      (fun _ e' => ¬ fails .putFilter ∧ ListReady fails e coll ∧ TrieReady fails e coll filter ∧
        e' = e.filed fails coll groupId filter)
      (fun e' => ¬ (¬ fails .putFilter ∧ ListReady fails e coll ∧ TrieReady fails e coll filter) ∧
        TriesKept e e') := by
  rw [fileGroup, meets_bind, meets_alloc]
  by_cases hfails : fails .putFilter
  · rw [if_pos hfails]
    exact ⟨fun h => h.1 hfails, ⟨_, rfl⟩, fun coll' => ⟨htries coll', fun _ _ => rfl⟩⟩
  rw [if_neg hfails, meets_bind, meets_change, meets_onError]
  set e₁ : SubscriptionEngine := { e with
    groupsByFilter := put eqlFilterKey ⟨coll, filter⟩ groupId e.groupsByFilter } with he₁
  refine (meets_listGroup (e := e₁) htries hops hfresh hunlisted hlists).mono (fun _ e' h => ?_) fun e' h => ?_
  · exact ⟨hfails, h.1, h.2.1, h.2.2⟩
  · obtain ⟨hunready, ⟨tries, rfl⟩, hkept⟩ := h
    refine ⟨fun h => hunready ⟨h.2.1, h.2.2⟩, ⟨tries, ?_⟩, hkept⟩
    rw [he₁]
    dsimp only
    rw [remove_put_new groupId hunfiled]

lemma Steady.fresh (h : e.Steady) : e.group e.nextGroupId = none ∧
    (∀ coll q, has e.nextGroupId q (e.trieAt coll) = false) ∧ ∀ coll, e.nextGroupId ∉ e.listAt coll := by
  obtain ⟨reg, hc⟩ := h.coherent
  have hkeys : e.keys e.nextGroupId = none := hc.indexed.fresh
  refine ⟨Option.map_eq_none_iff.mp hkeys, fun coll q => ?_, fun coll hmem => ?_⟩
  · rw [← Bool.not_eq_true]
    exact fun hq => lt_irrefl _ ((hc.indexed.tries coll).issued _ q hq)
  · obtain ⟨k, hk, -⟩ := (h.listed.mem coll _).mp hmem
    rw [hkeys] at hk
    cases hk

lemma Steady.wellFormed (h : e.Steady) (coll : CollectionKey) : (e.trieAt coll).WellFormed := by
  obtain ⟨reg, hc⟩ := h.coherent
  exact (hc.indexed.tries coll).wellFormed

lemma meets_createGroup (h : e.Steady) (hops : filter.predicate.HasOperands)
    (hunfiled : e.byFilter ⟨coll, filter⟩ = none) :
    (createGroup fails coll filter key).Meets e
      (fun id e' => GroupReady fails e coll filter ∧ id = e.nextGroupId ∧
        e' = e.grouped fails coll filter key)
      (fun e' => ¬ GroupReady fails e coll filter ∧
        TriesKept { e with nextGroupId := e.nextGroupId + 1 } e') := by
  obtain ⟨hgroup, hfresh, hunlisted⟩ := h.fresh
  have hkept : TriesKept { e with nextGroupId := e.nextGroupId + 1 }
      { e with nextGroupId := e.nextGroupId + 1 } :=
    ⟨⟨_, rfl⟩, fun coll' => ⟨h.wellFormed coll', fun _ _ => rfl⟩⟩
  rw [createGroup, meets_bind, meets_read, meets_bind, meets_change, meets_bind, meets_alloc]
  by_cases hclone : fails .cloneFilter
  · rw [if_pos hclone]
    exact ⟨fun hr => hr.1 hclone, hkept⟩
  rw [if_neg hclone, meets_bind, meets_alloc]
  by_cases hmember : fails .putMember
  · rw [if_pos hmember]
    exact ⟨fun hr => hr.2.1 hmember, hkept⟩
  rw [if_neg hmember, meets_bind, meets_alloc]
  by_cases hputGroup : fails .putGroup
  · rw [if_pos hputGroup]
    exact ⟨fun hr => hr.2.2.1 hputGroup, hkept⟩
  rw [if_neg hputGroup, meets_bind, meets_change, meets_bind, meets_onError]
  let g : SubscriptionGroup :=
    { id := e.nextGroupId, namespaceId := coll.namespaceId, tableIndex := coll.tableIndex, filter,
      subscribers := [key] }
  let e₁ : SubscriptionEngine :=
    { e with nextGroupId := e.nextGroupId + 1, groups := put eqKey e.nextGroupId g e.groups }
  refine (meets_fileGroup (e := e₁) (fun coll => h.wellFormed coll) hops (hfresh coll) (hunlisted coll)
    (h.lists coll) hunfiled).mono (fun _ e' hdone => ?_) fun e' hfailed => ?_
  · rw [meets_pure]
    exact ⟨⟨hclone, hmember, hputGroup, hdone.1, hdone.2.1, hdone.2.2.1⟩, rfl, hdone.2.2.2⟩
  · obtain ⟨hunready, ⟨tries, rfl⟩, htries⟩ := hfailed
    refine ⟨fun hr => hunready ⟨hr.2.2.2.1, hr.2.2.2.2⟩, ⟨tries, ?_⟩, htries⟩
    change _ = { e with nextGroupId := e.nextGroupId + 1, triesByCollection := tries }
    rw [← remove_put_new g hgroup]

end Creating

section Subscribing

variable {fails : SubscribeFailures} {e e' : SubscriptionEngine} {coll : CollectionKey} {filter : QueryFilter}
  {key : SubscriberKey}

/-- The removal of a group leaves it in the trie: the predicate has OR clauses alone, or its conditions are
too many for the stack and cannot be copied. -/
def StaysBehind (fails : SubscribeFailures) (p : FilterPredicate) : Prop :=
  p.state = .conditional ∧ (p.conditions = none ∨ fails .removePath ∧ 16 < (p.conditions.getD []).length)

/-- A new group is complete, its subscriber cannot be made active, and the group stays behind in the trie. -/
def Lost (fails : SubscribeFailures) (e : SubscriptionEngine) (coll : CollectionKey) (filter : QueryFilter)
    (key : SubscriberKey) : Prop :=
  e.active key = none ∧ e.byFilter ⟨coll, filter⟩ = none ∧ GroupReady fails e coll filter ∧
    fails .putActive ∧ StaysBehind fails filter.predicate

/-- Only ids and tries differ, and a trie by the new group where that is lost. -/
structure Failed (lost : Prop) (coll : CollectionKey) (filter : QueryFilter)
    (e e' : SubscriptionEngine) : Prop where
  same : ∃ tries next, e.nextGroupId ≤ next ∧ e' = { e with triesByCollection := tries, nextGroupId := next }
  issued : lost → e.nextGroupId < e'.nextGroupId
  wellFormed : ∀ coll, (e'.trieAt coll).WellFormed
  has : ∀ coll' id q, has id q (e'.trieAt coll') ↔ has id q (e.trieAt coll') ∨
    lost ∧ coll' = coll ∧ samePath (triePath filter.predicate) q ∧ e.nextGroupId = id

lemma Steady.failed_self (h : e.Steady) (hlost : ¬ lost) : Failed lost coll filter e e where
  same := ⟨_, _, le_refl _, rfl⟩
  issued hl := absurd hl hlost
  wellFormed := h.wellFormed
  has coll' id q := by simp [hlost]

lemma has_removeGroupOr {n m : Node} {p : FilterPredicate} (hp : p.HasOperands) {g : ℕ}
    (hfresh : ∀ q, has g q n = false)
    (hm : ∀ id q, has id q m = (has id q n ||
      (p.state ≠ .matchNone && samePath (triePath p) q && g = id))) (id : ℕ) (q : List Condition) :
    has id q (m.removeGroupOr (fails .removePath) g p) ↔ has id q n ∨
      StaysBehind fails p ∧ samePath (triePath p) q ∧ g = id := by
  have hin : has id q m ↔ has id q n ∨ p.state ≠ .matchNone ∧ samePath (triePath p) q ∧ g = id := by
    rw [hm]
    simp [and_assoc]
  unfold removeGroupOr
  split_ifs with hoom
  · have hstays : StaysBehind fails p := ⟨hoom.2.1, .inr ⟨hoom.1, hoom.2.2⟩⟩
    rw [hin]
    simp [hstays, hoom.2.1]
  · have hstays : StaysBehind fails p ↔ p.OrOnly := by
      refine and_congr_right fun hc => or_iff_left fun hf => hoom ⟨hf.1, hc, hf.2⟩
    have hstate : p.OrOnly → p.state ≠ .matchNone := fun hor hnone => by
      rw [hor.1] at hnone
      cases hnone
    have hold : g = id → ¬ has id q n := by
      rintro rfl
      rw [hfresh]
      exact Bool.false_ne_true
    rw [has_removeGroup hp, hin, hstays]
    grind

lemma removeGroupFromCollectionIndex_eq (e : SubscriptionEngine) (coll : CollectionKey) (id : ℕ) :
    ∃ lists, e.removeGroupFromCollectionIndex coll id = { e with groupsByCollection := lists } := by
  unfold removeGroupFromCollectionIndex
  cases find eqKey coll e.groupsByCollection with
  | none => exact ⟨e.groupsByCollection, rfl⟩
  | some ids => exact ⟨_, rfl⟩

lemma failed_leaveGroup (h : e.Steady) (hops : filter.predicate.HasOperands)
    (hunfiled : e.byFilter ⟨coll, filter⟩ = none) (hready : GroupReady fails e coll filter)
    (hlost : lost ↔ StaysBehind fails filter.predicate) :
    Failed lost coll filter e ((e.grouped fails coll filter key).leaveGroup (fails .removePath)
      e.nextGroupId key) := by
  obtain ⟨hgroup, hfresh, hunlisted⟩ := h.fresh
  obtain ⟨hwf, hhas, hinsert⟩ :=
    insertGroupOr_spec fails (h.wellFormed coll) hops e.nextGroupId
  set m := ((e.trieAt coll).insertGroupOr fails e.nextGroupId filter.predicate).2 with hm
  simp only [hinsert.mpr hready.2.2.2.2.2.2, Bool.true_and] at hhas
  set e₁ := e.grouped fails coll filter key with he₁
  let g : SubscriptionGroup :=
    { id := e.nextGroupId, namespaceId := coll.namespaceId, tableIndex := coll.tableIndex, filter,
      subscribers := [key] }
  have hg : e₁.group e.nextGroupId = some g := find_put_self e.nextGroupId g e.groups
  let emptied : SubscriptionGroup := { g with subscribers := [] }
  have hemptied : g.removeSubscriber key = emptied := by simp [SubscriptionGroup.removeSubscriber, g, emptied]
  set e₂ : SubscriptionEngine := { e₁ with groups := put eqKey e.nextGroupId emptied e₁.groups } with he₂
  have hleave : e₁.leaveGroup (fails .removePath) e.nextGroupId key =
      e₂.destroyGroupOr (fails .removePath) e.nextGroupId emptied := by
    rw [leaveGroup, hg]
    simp only [hemptied]
    rfl
  rw [hleave]
  set e₃ : SubscriptionEngine := { e₂ with
    groupsByFilter := remove eqlFilterKey ⟨coll, filter⟩ e₂.groupsByFilter } with he₃
  obtain ⟨tries, htries⟩ := removeGroupFromTrieOr_eq (fails .removePath) e₃ coll e.nextGroupId filter
  have htrieAt := trieAt_removeGroupFromTrieOr (fails .removePath) e₃ coll e.nextGroupId filter
  have hbefore : e₃.trieAt = update e.trieAt coll m := e.trieAt_put coll m e₃ rfl
  rw [hbefore, update_self, update_idem] at htrieAt
  have hfilters : e₃.groupsByFilter = e.groupsByFilter := remove_put_new e.nextGroupId hunfiled
  have hgroups : remove eqKey e.nextGroupId e₂.groups = e.groups := by
    change remove eqKey e.nextGroupId (put eqKey e.nextGroupId emptied (put eqKey e.nextGroupId g e.groups)) = _
    rw [put_put, remove_put_new _ hgroup]
  have hlists : (e₃.removeGroupFromTrieOr (fails .removePath) coll e.nextGroupId filter
      |>.removeGroupFromCollectionIndex coll e.nextGroupId).groupsByCollection = e.groupsByCollection := by
    rw [htries]
    unfold removeGroupFromCollectionIndex
    have hindexed : find eqKey coll e₃.groupsByCollection = some (e.listAt coll ++ [e.nextGroupId]) :=
      find_put_self coll _ e.groupsByCollection
    simp only [hindexed, swapRemove_append (hunlisted coll)]
    change (if (e.listAt coll).length = 0 then
      remove eqKey coll (put eqKey coll (e.listAt coll ++ [e.nextGroupId]) e.groupsByCollection)
      else put eqKey coll (e.listAt coll)
        (put eqKey coll (e.listAt coll ++ [e.nextGroupId]) e.groupsByCollection)) = _
    cases hfound : find eqKey coll e.groupsByCollection with
    | none =>
      have hnil : e.listAt coll = [] := by rw [listAt, hfound]; rfl
      rw [hnil, if_pos length_nil, remove_put_new _ hfound]
    | some ids =>
      have hids : e.listAt coll = ids := by rw [listAt, hfound]; rfl
      have hne : ids ≠ [] := fun hnil => h.lists coll (hnil ▸ hfound)
      rw [hids, if_neg (by simpa using hne), put_put, put_eq_self hfound]
  have hresult : e₂.destroyGroupOr (fails .removePath) e.nextGroupId emptied =
      { e with triesByCollection := tries, nextGroupId := e.nextGroupId + 1 } := by
    obtain ⟨lists, hrest⟩ := removeGroupFromCollectionIndex_eq
      (e₃.removeGroupFromTrieOr (fails .removePath) coll e.nextGroupId filter) coll e.nextGroupId
    have hdestroy : e₂.destroyGroupOr (fails .removePath) e.nextGroupId emptied =
        let e₄ := (e₃.removeGroupFromTrieOr (fails .removePath) coll e.nextGroupId
          filter).removeGroupFromCollectionIndex coll e.nextGroupId
        { e₄ with groups := remove eqKey e.nextGroupId e₄.groups } := rfl
    rw [hrest] at hlists hdestroy
    rw [htries] at hdestroy
    rw [hdestroy]
    change { e with
      groupsByFilter := e₃.groupsByFilter
      groups := remove eqKey e.nextGroupId e₂.groups
      groupsByCollection := lists
      triesByCollection := tries
      nextGroupId := e.nextGroupId + 1 } = _
    rw [hfilters, hgroups, ← hlists]
  rw [hresult]
  have hsame : SubscriptionEngine.trieAt { e with
      triesByCollection := tries, nextGroupId := e.nextGroupId + 1 } =
      update e.trieAt coll (m.removeGroupOr (fails .removePath) e.nextGroupId filter.predicate) := by
    rw [htries] at htrieAt
    exact htrieAt
  refine ⟨⟨tries, _, Nat.le_succ _, rfl⟩, fun _ => Nat.lt_succ_self _, fun coll' => ?_, fun coll' id q => ?_⟩
  · rw [hsame]
    by_cases hc : coll' = coll
    · subst hc
      rw [update_self]
      exact (removeGroupOr_spec _ hwf hops _).1
    · rw [update_of_ne hc]
      exact h.wellFormed coll'
  · rw [hsame]
    by_cases hc : coll' = coll
    · subst hc
      rw [update_self, has_removeGroupOr hops (hfresh coll') hhas, hlost]
      simp
    · rw [update_of_ne hc]
      simp [hc]

end Subscribing

section Outcomes

variable {fails : SubscribeFailures} {e e' : SubscriptionEngine} {coll : CollectionKey} {filter : QueryFilter}
  {key : SubscriberKey}

def Succeeded (fails : SubscribeFailures) (coll : CollectionKey) (filter : QueryFilter) (key : SubscriberKey)
    (e e' : SubscriptionEngine) : Prop :=
  ¬ fails .putActive ∧ e.active key = none ∧
    ((∃ id g, e.group id = some g ∧ eqlFilterKey ⟨coll, filter⟩ g.filterKey ∧ e' = e.joined key id g) ∨
      e.byFilter ⟨coll, filter⟩ = none ∧ GroupReady fails e coll filter ∧ e' = e.created coll filter key
        ((e.trieAt coll).insertGroupOr fails e.nextGroupId filter.predicate).2)

lemma leaveGroup_joined (h : e.Steady) {id : ℕ} {g : SubscriptionGroup} (hg : e.group id = some g)
    (hnew : e.active key = none) (oom : Bool) :
    leaveGroup oom { e with groups := put eqKey id (g.putSubscriber key) e.groups } id key = e := by
  obtain ⟨reg, hc⟩ := h.coherent
  have hmember : key ∉ g.subscribers := fun hm => by
    rw [← members_of_group hg, ← hc.subscribed.active key id, hnew] at hm
    cases hm
  have hback : (g.putSubscriber key).removeSubscriber key = g := by
    unfold SubscriptionGroup.putSubscriber SubscriptionGroup.removeSubscriber
    rw [if_neg hmember]
    have hfilter : (g.subscribers ++ [key]).filter (· ≠ key) = g.subscribers := by
      rw [filter_append, List.filter_eq_self.mpr fun k hk => by
        simpa using fun he : k = key => hmember (he ▸ hk)]
      simp
    rw [hfilter]
  have hne : g.subscribers.length ≠ 0 := fun hnil => h.members id _ (keys_of_group hg)
    ((members_of_group hg).trans (length_eq_zero_iff.mp hnil))
  have hfound : group { e with groups := put eqKey id (g.putSubscriber key) e.groups } id =
      some (g.putSubscriber key) := find_put_self id _ e.groups
  have hg' : find eqKey id e.groups = some g := hg
  unfold leaveGroup
  rw [hfound]
  simp only [hback, if_neg hne, put_put, put_eq_self hg']

lemma meets_trySubscribe (fails : SubscribeFailures) (coll : CollectionKey) (filter : QueryFilter)
    (key : SubscriberKey) (h : e.Steady) (hops : filter.predicate.HasOperands) :
    (trySubscribe fails coll filter key).Meets e (fun _ => Succeeded fails coll filter key e)
      (Failed (Lost fails e coll filter key) coll filter e) := by
  obtain ⟨reg, hc⟩ := h.coherent
  rw [trySubscribe, meets_bind, meets_read]
  by_cases hactive : (find eqKey key e.activeSubs).isSome
  · rw [if_pos hactive, meets_fail]
    refine h.failed_self fun hl => ?_
    have hnone : find eqKey key e.activeSubs = none := hl.1
    rw [hnone] at hactive
    cases hactive
  have hnew : e.active key = none := Option.not_isSome_iff_eq_none.mp hactive
  rw [if_neg hactive]
  cases hfilter : find eqlFilterKey ⟨coll, filter⟩ e.groupsByFilter with
  | some id =>
    have hunlost : ¬ Lost fails e coll filter key := fun hl => by
      have hnone : find eqlFilterKey ⟨coll, filter⟩ e.groupsByFilter = none := hl.2.1
      rw [hfilter] at hnone
      cases hnone
    obtain ⟨k, hkey, hk⟩ := (hc.indexed.byFilter ⟨coll, filter⟩ id).mp hfilter
    obtain ⟨g, hg, rfl⟩ := Option.map_eq_some_iff.mp hkey
    dsimp only
    rw [meets_bind, joinGroup, meets_bind, meets_read, hg]
    dsimp only
    rw [meets_bind, meets_alloc]
    by_cases hmember : fails .putMember
    · rw [if_pos hmember]
      exact h.failed_self hunlost
    rw [if_neg hmember, meets_bind, meets_change, meets_pure, meets_bind, meets_onError, meets_alloc]
    by_cases hput : fails .putActive
    · rw [if_pos hput, leaveGroup_joined h hg hnew]
      exact h.failed_self hunlost
    · rw [if_neg hput, meets_change]
      exact ⟨hput, hnew, .inl ⟨id, g, hg, hk, rfl⟩⟩
  | none =>
    dsimp only
    rw [meets_bind]
    refine (meets_createGroup h hops hfilter).mono (fun id e₁ hdone => ?_) fun e₁ hfailed => ?_
    · obtain ⟨hready, rfl, rfl⟩ := hdone
      rw [meets_bind, meets_onError, meets_alloc]
      by_cases hput : fails .putActive
      · rw [if_pos hput]
        exact failed_leaveGroup h hops hfilter hready
          ⟨fun hl => hl.2.2.2.2, fun hs => ⟨hnew, hfilter, hready, hput, hs⟩⟩
      · rw [if_neg hput, meets_change]
        exact ⟨hput, hnew, .inr ⟨hfilter, hready, rfl⟩⟩
    · obtain ⟨hunready, ⟨tries, rfl⟩, htries⟩ := hfailed
      have hunlost : ¬ Lost fails e coll filter key := fun hl => hunready hl.2.2.1
      refine ⟨⟨tries, _, Nat.le_succ _, rfl⟩, fun hl => absurd hl hunlost, fun coll' => (htries coll').1,
        fun coll' id q => ?_⟩
      rw [(htries coll').2 id q]
      simp only [hunlost, false_and, or_false]
      exact Iff.rfl

lemma trieCoherent_failed {keys : ℕ → Option CollectionFilterKey} {next next' : ℕ} {n m : Node}
    (lost : Prop) (path : List Condition) (h : TrieCoherent keys next coll n) (hfresh : keys next = none)
    (hm : m.WellFormed) (hnext : next ≤ next') (hlost : lost → next < next')
    (hhas : ∀ id q, has id q m ↔ has id q n ∨ lost ∧ samePath path q ∧ next = id) :
    TrieCoherent keys next' coll m where
  wellFormed := hm
  single id p q hp hq := by
    rw [hhas] at hp hq
    obtain hp | ⟨-, hp, rfl⟩ := hp
    · obtain hq | ⟨-, -, rfl⟩ := hq
      · exact h.single id p q hp hq
      · exact absurd (h.issued _ p hp) (lt_irrefl _)
    · obtain hq | ⟨-, hq, -⟩ := hq
      · exact absurd (h.issued _ q hq) (lt_irrefl _)
      · exact KeyTest.trans _ _ _ (KeyTest.symm _ _ hp) hq
  issued id p hp := by
    obtain hp | ⟨hl, -, rfl⟩ := (hhas id p).mp hp
    · exact lt_of_lt_of_le (h.issued id p hp) hnext
    · exact hlost hl
  stored id k hk p := by
    have hid : next ≠ id := by
      rintro rfl
      rw [hfresh] at hk
      cases hk
    rw [hhas, ← h.stored id k hk p]
    simp [hid]

lemma Failed.coherent {reg : Registry} (hc : e.Coherent reg)
    (hf : Failed lost coll filter e e') : e'.Coherent reg := by
  obtain ⟨⟨tries, next, hnext, rfl⟩, hissued, hwf, hhas⟩ := hf
  refine ⟨⟨fun id k hk => lt_of_lt_of_le (hc.indexed.issued id k hk) hnext, hc.indexed.operands,
    hc.indexed.byFilter, fun coll' => ?_⟩, hc.subscribed, hc.registered⟩
  refine trieCoherent_failed (lost ∧ coll' = coll) (triePath filter.predicate)
    (hc.indexed.tries coll') hc.indexed.fresh (hwf coll') hnext (fun hl => hissued hl.1) fun id q => ?_
  rw [hhas coll' id q, and_assoc]

lemma Failed.steady (h : e.Steady) (hf : Failed lost coll filter e e') : e'.Steady := by
  obtain ⟨reg, hc⟩ := h.coherent
  have hcoherent := hf.coherent hc
  obtain ⟨⟨tries, next, hnext, rfl⟩, -⟩ := hf
  exact ⟨⟨h.members, h.listed, h.lists⟩, reg, hcoherent⟩

lemma handleRecordChange_perm {reg reg' : Registry} (hc : e.Coherent reg) (hc' : e'.Coherent reg')
    (hgroups : ∀ id, e'.group id = e.group id) (change : RecordChange) :
    ∃ ms ms', e.handleRecordChange change = .ok ms ∧ e'.handleRecordChange change = .ok ms' ∧ ms'.Perm ms := by
  obtain ⟨before, hb, hbn, hbm⟩ := matchedGroups_spec hc change.collection change.oldRecord
  obtain ⟨after, ha, han, ham⟩ := matchedGroups_spec hc change.collection change.newRecord
  obtain ⟨before', hb', hbn', hbm'⟩ := matchedGroups_spec hc' change.collection change.oldRecord
  obtain ⟨after', ha', han', ham'⟩ := matchedGroups_spec hc' change.collection change.newRecord
  have hbefore : before'.Perm before := (perm_ext_iff_of_nodup hbn' hbn).mpr fun id => by
    rw [hbm', hbm, hgroups]
  have hafter : after'.Perm after := (perm_ext_iff_of_nodup han' han).mpr fun id => by
    rw [ham', ham, hgroups]
  have hmatches (op : MatchOp) : e'.subscriberMatches op = e.subscriberMatches op := by
    funext id
    rw [subscriberMatches, subscriberMatches, hgroups]
  refine ⟨_, _, handleRecordChange_eq hb ha, handleRecordChange_eq hb' ha', ?_⟩
  rw [appendSubscriberMatches, appendSubscriberMatches, hmatches, hmatches]
  refine (hafter.flatMap_right _).append (List.Perm.flatMap_right _ ?_)
  have hgone : (fun groupId => decide (groupId ∉ after')) = fun groupId => decide (groupId ∉ after) := by
    funext id
    simp only [hafter.mem_iff]
  rw [hgone]
  exact hbefore.filter _

lemma Succeeded.steady (h : e.Steady) (hops : filter.predicate.HasOperands)
    (hs : Succeeded fails coll filter key e e') : e'.Steady := by
  obtain ⟨reg, hc⟩ := h.coherent
  obtain ⟨-, hnew, ⟨id, g, hg, hk, rfl⟩ | ⟨hunfiled, hready, rfl⟩⟩ := hs
  · exact ⟨h.joined hg key, _, hc.join hnew hg hk⟩
  · obtain ⟨hwf, hhas, hinsert⟩ :=
      insertGroupOr_spec fails (h.wellFormed coll) hops e.nextGroupId
    simp only [hinsert.mpr hready.2.2.2.2.2.2, Bool.true_and] at hhas
    exact ⟨h.created hc.indexed.fresh coll filter key _, _, hc.created hops hnew hunfiled hwf hhas⟩

end Outcomes

section Removing

variable {e : SubscriptionEngine}

/-- A removal that cannot copy its path leaves the group in the trie, and nothing else differs. -/
lemma removeGroupFromTrieOr_cases (oom : Bool) (e : SubscriptionEngine) (coll : CollectionKey) (id : ℕ)
    (filter : QueryFilter) :
    e.removeGroupFromTrieOr oom coll id filter = e.removeGroupFromTrie coll id filter ∨
      (e.removeGroupFromTrieOr oom coll id filter).trieAt = e.trieAt := by
  have htrie := trieAt_removeGroupFromTrieOr oom e coll id filter
  unfold removeGroupFromTrieOr removeGroupFromTrie
  unfold removeGroupFromTrieOr at htrie
  unfold removeGroupOr at htrie ⊢
  split_ifs at htrie ⊢ with hstays
  · refine .inr (htrie.trans ?_)
    exact update_eq_self _ _
  · exact .inl rfl

lemma removeGroupFromCollectionIndex_withTries (e : SubscriptionEngine) (coll : CollectionKey) (id : ℕ)
    (tries : List (CollectionKey × Node)) :
    removeGroupFromCollectionIndex { e with triesByCollection := tries } coll id =
      { e.removeGroupFromCollectionIndex coll id with triesByCollection := tries } := by
  unfold removeGroupFromCollectionIndex
  dsimp only
  cases find eqKey coll e.groupsByCollection <;> rfl

lemma destroyGroupOr_cases (oom : Bool) (e : SubscriptionEngine) (id : ℕ) (g : SubscriptionGroup) :
    e.destroyGroupOr oom id g = e.destroyGroup id g ∨
      ∃ tries, e.destroyGroupOr oom id g = { e.destroyGroup id g with triesByCollection := tries } ∧
        (e.destroyGroupOr oom id g).trieAt = e.trieAt := by
  set e₁ : SubscriptionEngine :=
    { e with groupsByFilter := remove eqlFilterKey g.filterKey e.groupsByFilter } with he₁
  have hor : e.destroyGroupOr oom id g =
      let e' := (e₁.removeGroupFromTrieOr oom g.collection id g.filter).removeGroupFromCollectionIndex
        g.collection id
      { e' with groups := remove eqKey id e'.groups } := rfl
  have hdestroy : e.destroyGroup id g =
      let e' := (e₁.removeGroupFromTrie g.collection id g.filter).removeGroupFromCollectionIndex g.collection id
      { e' with groups := remove eqKey id e'.groups } := rfl
  obtain hsame | htrie := removeGroupFromTrieOr_cases oom e₁ g.collection id g.filter
  · refine .inl ?_
    rw [hor, hdestroy, hsame]
  · obtain ⟨tries, htries⟩ := removeGroupFromTrieOr_eq oom e₁ g.collection id g.filter
    obtain ⟨tries', htries'⟩ := removeGroupFromTrieOr_eq false e₁ g.collection id g.filter
    rw [removeGroupFromTrieOr_false] at htries'
    rw [htries] at htrie hor
    rw [htries'] at hdestroy
    rw [removeGroupFromCollectionIndex_withTries] at hor hdestroy
    refine .inr ⟨tries, ?_, ?_⟩
    · rw [hor, hdestroy]
    · rw [hor]
      exact htrie

lemma removeSubscriberOr_cases (oom : Bool) (e : SubscriptionEngine) (key : SubscriberKey) :
    e.removeSubscriberOr oom key = e.removeSubscriber key ∨
      ∃ tries, e.removeSubscriberOr oom key = { e.removeSubscriber key with triesByCollection := tries } ∧
        (e.removeSubscriberOr oom key).trieAt = e.trieAt := by
  unfold removeSubscriberOr removeSubscriber
  cases find eqKey key e.activeSubs with
  | none => exact .inl rfl
  | some id =>
    dsimp only
    unfold leaveGroup
    cases group { e with activeSubs := remove eqKey key e.activeSubs } id with
    | none => exact .inl rfl
    | some g =>
      dsimp only
      split_ifs with hempty
      · exact destroyGroupOr_cases oom _ id _
      · exact .inl rfl

lemma trieCoherent_fewer {keys keys' : ℕ → Option CollectionFilterKey} {next : ℕ} {coll : CollectionKey}
    {n : Node} (h : TrieCoherent keys next coll n) (hkeys : ∀ id k, keys' id = some k → keys id = some k) :
    TrieCoherent keys' next coll n :=
  ⟨h.wellFormed, h.single, h.issued, fun id k hk => h.stored id k (hkeys id k hk)⟩

lemma removeSubscriber_frame {reg : Registry} (h : e.Coherent reg) (key : SubscriberKey) :
    (e.removeSubscriber key).nextGroupId = e.nextGroupId ∧
      ∀ id k, (e.removeSubscriber key).keys id = some k → e.keys id = some k := by
  obtain ⟨-, hsame⟩ | ⟨id, g, -, hg, hcall⟩ := removeSubscriber_cases h key
  · rw [hsame]
    exact ⟨rfl, fun _ _ => id⟩
  have hkeys : (e.without key id g).keys = e.keys := without_keys hg
  rw [hcall]
  split_ifs
  · obtain ⟨vkeys, -, -, -, -, vnext⟩ :=
      destroyGroup_views (e.without key id g) id (g.removeSubscriber key)
    refine ⟨vnext, fun id' k hk => ?_⟩
    rw [vkeys, hkeys] at hk
    by_cases hid : id' = id
    · rw [hid, update_self] at hk
      cases hk
    · rw [update_of_ne hid] at hk
      exact hk
  · exact ⟨rfl, fun id' k hk => by rwa [hkeys] at hk⟩

lemma Steady.removeSubscriberOr (h : e.Steady) (oom : Bool) (key : SubscriberKey) :
    (e.removeSubscriberOr oom key).Steady := by
  obtain ⟨reg, hc⟩ := h.coherent
  have hremoved := hc.removeSubscriber key
  have hpopulated := h.toPopulated.removeSubscriber hc key
  obtain hsame | ⟨tries, hsame, htrie⟩ := removeSubscriberOr_cases oom e key
  · rw [hsame]
    exact ⟨hpopulated, _, hremoved⟩
  obtain ⟨hnext, hkeys⟩ := removeSubscriber_frame hc key
  rw [hsame] at htrie ⊢
  refine ⟨⟨hpopulated.members, hpopulated.listed, hpopulated.lists⟩, _,
    ⟨hremoved.indexed.issued, hremoved.indexed.operands, hremoved.indexed.byFilter, fun coll => ?_⟩,
    hremoved.subscribed, hremoved.registered⟩
  rw [htrie]
  change TrieCoherent (e.removeSubscriber key).keys (e.removeSubscriber key).nextGroupId _ _
  rw [hnext]
  exact trieCoherent_fewer (hc.indexed.tries coll) hkeys

lemma Steady.unsubscribeManyOr (h : e.Steady) (oom : ℕ → Bool) (connectionId : ℕ) (ids : List ℕ) :
    (e.unsubscribeManyOr oom connectionId ids).Steady :=
  Machine.invariant (I := Steady) (fun _ id h => h.removeSubscriberOr (oom id) ⟨connectionId, id⟩) h ids

end Removing

/-- The calls on an engine whose allocations may fail. -/
inductive FallibleCall where
  | subscribe (coll : CollectionKey) (filter : QueryFilter) (key : SubscriberKey) (fails : SubscribeFailures)
  | unsubscribe (connectionId id : ℕ) (oom : Bool)
  | unsubscribeMany (connectionId : ℕ) (ids : List ℕ) (oom : ℕ → Bool)

def attempt (e : SubscriptionEngine) : FallibleCall → SubscriptionEngine
  | .subscribe coll filter key fails => (trySubscribe fails coll filter key e).2
  | .unsubscribe connectionId id oom => e.removeSubscriberOr oom ⟨connectionId, id⟩
  | .unsubscribeMany connectionId ids oom => e.unsubscribeManyOr oom connectionId ids

/-- All that can be looked up is as it was, so that the same changes match, and the subscription that has
failed can be made later. -/
structure Restored (coll : CollectionKey) (filter : QueryFilter) (e e' : SubscriptionEngine) : Prop where
  groups : ∀ id, e'.group id = e.group id
  byFilter : ∀ k, find eqlFilterKey k e'.groupsByFilter = find eqlFilterKey k e.groupsByFilter
  active : ∀ key, find eqKey key e'.activeSubs = find eqKey key e.activeSubs
  lists : ∀ coll, find eqKey coll e'.groupsByCollection = find eqKey coll e.groupsByCollection
  tries : ∀ coll id path, has id path (e'.trieAt coll) = has id path (e.trieAt coll)
  matched : ∀ change, ∃ ms ms', e.handleRecordChange change = .ok ms ∧
    e'.handleRecordChange change = .ok ms' ∧ ms'.Perm ms
  inhabited : ∀ id g, e'.group id = some g → g.subscribers ≠ []
  again : ∀ key, find eqKey key e'.activeSubs = none → ∃ e'', e'.subscribe coll filter key = .ok e''

/-- A subscription that returns an error has undone what it did. -/
def Restores (e : SubscriptionEngine) : FallibleCall → Prop
  | .subscribe coll filter key fails => (trySubscribe fails coll filter key e).1 = none →
      Restored coll filter e (trySubscribe fails coll filter key e).2
  | _ => True

/-- The subscription does not fail at the point at which its new group would stay behind. -/
def Undoes (e : SubscriptionEngine) : FallibleCall → Prop
  | .subscribe coll filter key fails => ¬ Lost fails e coll filter key
  | _ => True

section Runs

variable {fails : SubscribeFailures} {e e' : SubscriptionEngine} {coll : CollectionKey} {filter : QueryFilter}
  {key : SubscriberKey} {lost : Prop}

lemma Failed.restored (h : e.Steady) (hops : filter.predicate.HasOperands)
    (hf : Failed lost coll filter e e') (hlost : ¬ lost) : Restored coll filter e e' := by
  have hsteady := hf.steady h
  obtain ⟨reg, hc⟩ := h.coherent
  have hc' := hf.coherent hc
  have hhas := hf.has
  obtain ⟨⟨tries, next, -, rfl⟩, -⟩ := hf
  refine ⟨fun _ => rfl, fun _ => rfl, fun _ => rfl, fun _ => rfl, fun coll' id path => ?_,
    handleRecordChange_perm hc hc' fun _ => rfl, fun id g hg => ?_, fun key hnew => ?_⟩
  · rw [Bool.eq_iff_iff, hhas]
    simp [hlost]
  · rw [← members_of_group hg]
    exact hsteady.members id _ (keys_of_group hg)
  · exact hc'.subscribe_ok hops hnew

lemma Failed.not_restored (h : e.Steady) (hf : Failed lost coll filter e e') (hlost : lost) :
    ¬ Restored coll filter e e' := by
  intro hr
  have hfresh := h.fresh.2.1 coll (triePath filter.predicate)
  rw [← hr.tries, ← Bool.not_eq_true, hf.has] at hfresh
  exact hfresh (.inr ⟨hlost, rfl, KeyTest.self (sameList sameStep) _, rfl⟩)

lemma restores_iff (h : e.Steady) {c : FallibleCall}
    (hops : ∀ coll filter key fails, c = .subscribe coll filter key fails → filter.predicate.HasOperands) :
    e.Restores c ↔ e.Undoes c := by
  cases c with
  | unsubscribe connectionId id oom => exact Iff.rfl
  | unsubscribeMany connectionId ids oom => exact Iff.rfl
  | subscribe coll filter key fails =>
    have hops := hops coll filter key fails rfl
    have hmeets := meets_trySubscribe fails coll filter key h hops
    unfold Meets at hmeets
    unfold Restores Undoes
    dsimp only
    cases htry : trySubscribe fails coll filter key e with
    | mk result e' =>
      rw [htry] at hmeets
      cases result with
      | some _ =>
        have hdone : Succeeded fails coll filter key e e' := hmeets
        exact iff_of_true (fun herr => by cases herr) fun hl => hdone.1 hl.2.2.2.1
      | none =>
        have hfailed : Failed (Lost fails e coll filter key) coll filter e e' := hmeets
        exact ⟨fun hr hl => hfailed.not_restored h hl (hr rfl), fun hl _ => hfailed.restored h hops hl⟩

lemma Steady.attempt (h : e.Steady) {c : FallibleCall}
    (hops : ∀ coll filter key fails, c = .subscribe coll filter key fails → filter.predicate.HasOperands) :
    (e.attempt c).Steady := by
  cases c with
  | unsubscribe connectionId id oom => exact h.removeSubscriberOr oom _
  | unsubscribeMany connectionId ids oom => exact h.unsubscribeManyOr oom connectionId ids
  | subscribe coll filter key fails =>
    have hops := hops coll filter key fails rfl
    exact Meets.snd ((meets_trySubscribe fails coll filter key h hops).mono (fun _ _ hs => hs.steady h hops)
      fun _ hf => hf.steady h)

lemma steady_init : Steady {} :=
  ⟨stocked_init.toPopulated, _, coherent_init⟩

end Runs

/-- After any calls, with any allocations failing, every subscription with a parsed filter that returns an
error has left all indexes as they were, exactly as long as none of them loses its group at the last step. -/
theorem failed_subscribes_restore_iff (calls : List FallibleCall)
    (hp : ∀ coll filter key fails, .subscribe coll filter key fails ∈ calls → ParsedFilter filter) :
    Along attempt Restores {} calls ↔ Along attempt Undoes {} calls := by
  have hops (c : FallibleCall) (hc : c ∈ calls) (coll : CollectionKey) (filter : QueryFilter)
      (key : SubscriberKey) (fails : SubscribeFailures) (he : c = .subscribe coll filter key fails) :
      filter.predicate.HasOperands :=
    (hp coll filter key fails (he ▸ hc)).hasOperands
  exact along_iff (I := Steady) (fun e c hc h _ => h.attempt (hops c hc))
    (fun e c hc h => restores_iff h (hops c hc)) steady_init

namespace LostGroupExample

open LeavingExample

/-- The filter has OR clauses alone, and the subscriber of the new group cannot be made active. -/
def lostGroup : List FallibleCall :=
  [.subscribe ⟨1, 0⟩ recentFilter ⟨7, 1⟩ fun site => site = .putActive]

lemma lostGroup_parsed (coll : CollectionKey) (filter : QueryFilter) (key : SubscriberKey)
    (fails : SubscribeFailures) (h : .subscribe coll filter key fails ∈ lostGroup) : ParsedFilter filter := by
  simp only [lostGroup, mem_cons, not_mem_nil, or_false, FallibleCall.subscribe.injEq] at h
  obtain ⟨-, rfl, -⟩ := h
  exact ⟨_, _, _, _, parse_recentEvents⟩

/-- The call fails, there is no group, and its id is in the trie. -/
theorem lostGroup_not_restored :
    (∀ coll filter key fails, .subscribe coll filter key fails ∈ lostGroup → ParsedFilter filter) ∧
      (lostGroup.foldl attempt {}).group 1 = none ∧
      has 1 [] ((lostGroup.foldl attempt {}).trieAt ⟨1, 0⟩) ∧ ¬ Along attempt Restores {} lostGroup := by
  have hleft : has 1 [] ((lostGroup.foldl attempt {}).trieAt ⟨1, 0⟩) := by decide
  refine ⟨lostGroup_parsed, rfl, hleft, fun h => ?_⟩
  have hrestored := h.1 rfl
  have htrie := hrestored.tries ⟨1, 0⟩ 1 []
  rw [show has 1 [] (trieAt {} ⟨1, 0⟩) = false from rfl] at htrie
  exact Bool.false_ne_true (htrie.symm.trans hleft)

theorem failed_subscribes_restore_iff_lostGroup :
    Along attempt Restores {} lostGroup ↔ Along attempt Undoes {} lostGroup :=
  failed_subscribes_restore_iff lostGroup lostGroup_parsed

end LostGroupExample

end SubscriptionEngine

end ZyncBase
