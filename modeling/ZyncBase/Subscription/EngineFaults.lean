import ZyncBase.Subscription.Coherence

/-! The engine when its allocations fail: what a failed subscription leaves, and a removal whose
path cannot be copied. Subscribers stay in step with their groups. -/
namespace ZyncBase

open AssocMap Function

/-- The allocation that fails while a subscriber is registered. -/
inductive SubscribeFault where
  | cloneFilter | putSubscriber | putGroup | putFilter | putList | appendList | putTrie | insertTrie
  | putActive
  deriving DecidableEq, Repr

/-- Paths of up to 16 conditions are sorted in place; the copy of a longer one may fail, and then the
group stays. -/
def Node.removeGroupOr (oom : Bool) (groupId : ℕ) (p : FilterPredicate) (n : Node) : Node :=
  if oom ∧ p.state = .conditional ∧ 16 < (p.conditions.getD []).length then n
  else n.removeGroup groupId p

namespace SubscriptionEngine

def removeGroupFromTrieOr (oom : Bool) (e : SubscriptionEngine) (coll : CollectionKey)
    (groupId : ℕ) (filter : QueryFilter) : SubscriptionEngine :=
  match find eqKey coll e.triesByCollection with
  | none => e
  | some trie =>
    let trie := trie.removeGroupOr oom groupId filter.predicate
    { e with
      triesByCollection :=
        if trie.isEmpty then remove eqKey coll e.triesByCollection
        else put eqKey coll trie e.triesByCollection }

def destroyGroupOr (oom : Bool) (e : SubscriptionEngine) (groupId : ℕ) (g : SubscriptionGroup) :
    SubscriptionEngine :=
  let e := { e with groupsByFilter := remove eqlFilterKey g.filterKey e.groupsByFilter }
  let e := e.removeGroupFromTrieOr oom g.collection groupId g.filter
  let e := e.removeGroupFromCollectionIndex g.collection groupId
  { e with groups := remove eqKey groupId e.groups }

/-- Take a subscriber out of its group, and the group away with its last subscriber. -/
def leaveGroup (oom : Bool) (e : SubscriptionEngine) (groupId : ℕ) (key : SubscriberKey) :
    SubscriptionEngine :=
  match e.group groupId with
  | none => e
  | some g =>
    let g := g.removeSubscriber key
    let e := { e with groups := put eqKey groupId g e.groups }
    if g.subscribers.length = 0 then e.destroyGroupOr oom groupId g else e

def removeSubscriberOr (oom : Bool) (e : SubscriptionEngine) (key : SubscriberKey) :
    SubscriptionEngine :=
  match find eqKey key e.activeSubs with
  | none => e
  | some groupId =>
    leaveGroup oom { e with activeSubs := remove eqKey key e.activeSubs } groupId key

/-- `oom` says which of the removals cannot copy their path. -/
def unsubscribeManyOr (oom : ℕ → Bool) (e : SubscriptionEngine) (connectionId : ℕ)
    (ids : List ℕ) : SubscriptionEngine :=
  ids.foldl (fun e id => e.removeSubscriberOr (oom id) ⟨connectionId, id⟩) e

/-- A new group that could not be completed: the steps done so far are undone, last first. `left` is
the trie as the failed insertion leaves it. -/
def failedGroup (fault : SubscribeFault) (left : Node) (oom : Bool) (e : SubscriptionEngine)
    (coll : CollectionKey) (filter : QueryFilter) (key : SubscriberKey) : SubscriptionEngine :=
  let groupId := e.nextGroupId
  let g : SubscriptionGroup :=
    { id := groupId, namespaceId := coll.namespaceId, tableIndex := coll.tableIndex, filter,
      subscribers := [key] }
  let begun := { e with nextGroupId := groupId + 1 }
  let grouped := { begun with groups := put eqKey groupId g begun.groups }
  let filed := { grouped with
    groupsByFilter := put eqlFilterKey ⟨coll, filter⟩ groupId grouped.groupsByFilter }
  let listed := { filed with
    groupsByCollection := put eqKey coll (filed.listAt coll ++ [groupId]) filed.groupsByCollection }
  let inserted := { listed with triesByCollection := put eqKey coll left listed.triesByCollection }
  let ungroup (e : SubscriptionEngine) :=
    { e with groups := remove eqKey groupId e.groups }
  let unfile (e : SubscriptionEngine) :=
    { e with groupsByFilter := remove eqlFilterKey ⟨coll, filter⟩ e.groupsByFilter }
  match fault with
  | .cloneFilter | .putSubscriber | .putGroup => begun
  | .putFilter => ungroup grouped
  -- a list that was made for the group is taken away again
  | .putList | .appendList => ungroup (unfile filed)
  | .putTrie => ungroup (unfile (listed.removeGroupFromCollectionIndex coll groupId))
  | .insertTrie | .putActive =>
    ungroup (unfile ((inserted.removeGroupFromTrieOr oom coll groupId
      filter).removeGroupFromCollectionIndex coll groupId))

/-- Register a subscriber, or fail and undo what was done. -/
def subscribeOr (fault : Option SubscribeFault) (left : Node) (oom : Bool) (e : SubscriptionEngine)
    (coll : CollectionKey) (filter : QueryFilter) (key : SubscriberKey) :
    Except SubscriptionEngine SubscriptionEngine :=
  let activate (e : SubscriptionEngine) (groupId : ℕ) :=
    if fault = some .putActive then .error (e.leaveGroup oom groupId key)
    else .ok { e with activeSubs := put eqKey key groupId e.activeSubs }
  if (find eqKey key e.activeSubs).isSome then .error e
  else
    match find eqlFilterKey ⟨coll, filter⟩ e.groupsByFilter with
    | some groupId =>
      match e.group groupId with
      | none => .error e
      | some g =>
        if fault = some .putSubscriber then .error e
        else activate { e with groups := put eqKey groupId (g.putSubscriber key) e.groups } groupId
    | none =>
      match fault, e.createSubscriptionGroup coll filter key with
      | none, .ok (e, groupId) | some .putActive, .ok (e, groupId) => activate e groupId
      | none, .error _ | some .putActive, .error _ =>
        .error (e.failedGroup .insertTrie left oom coll filter key)
      | some fault, _ => .error (e.failedGroup fault left oom coll filter key)

section Faultless

variable (e : SubscriptionEngine)

lemma removeGroupFromTrieOr_false (coll : CollectionKey) (groupId : ℕ) (filter : QueryFilter) :
    e.removeGroupFromTrieOr false coll groupId filter = e.removeGroupFromTrie coll groupId filter := by
  unfold removeGroupFromTrieOr removeGroupFromTrie
  cases find eqKey coll e.triesByCollection with
  | none => rfl
  | some trie => simp [Node.removeGroupOr]

end Faultless

/-- Every active subscriber is a member of its group, and ids of groups are not given out twice. -/
structure Seated (e : SubscriptionEngine) : Prop where
  subscribed : Subscribed e.active e.members
  issued : ∀ id g, e.group id = some g → id < e.nextGroupId

lemma seated_init : Seated {} where
  subscribed := coherent_init.subscribed
  issued := by simp [group]

section Steps

variable {e e' : SubscriptionEngine} {key : SubscriberKey} {id : ℕ}

lemma Seated.of_same (h : e.Seated) (hactive : e'.active = e.active) (hmembers : e'.members = e.members)
    (hgroups : ∀ id g, e'.group id = some g → (e.group id).isSome)
    (hnext : e.nextGroupId ≤ e'.nextGroupId) : e'.Seated where
  subscribed := by
    rw [hactive, hmembers]
    exact h.subscribed
  issued id g hg := by
    obtain ⟨g', hg'⟩ := Option.isSome_iff_exists.mp (hgroups id g hg)
    exact lt_of_lt_of_le (h.issued id g' hg') hnext

@[simp] lemma removeGroupFromTrieOr_frame (oom : Bool) (e : SubscriptionEngine)
    (coll : CollectionKey) (id : ℕ) (filter : QueryFilter) :
    (e.removeGroupFromTrieOr oom coll id filter).groups = e.groups ∧
    (e.removeGroupFromTrieOr oom coll id filter).groupsByFilter = e.groupsByFilter ∧
    (e.removeGroupFromTrieOr oom coll id filter).activeSubs = e.activeSubs ∧
    (e.removeGroupFromTrieOr oom coll id filter).nextGroupId = e.nextGroupId := by
  simp only [removeGroupFromTrieOr]
  cases find eqKey coll e.triesByCollection <;> exact ⟨rfl, rfl, rfl, rfl⟩

@[simp] lemma destroyGroupOr_frame (oom : Bool) (e : SubscriptionEngine) (id : ℕ) (g : SubscriptionGroup) :
    (e.destroyGroupOr oom id g).groups = remove eqKey id e.groups ∧
    (e.destroyGroupOr oom id g).activeSubs = e.activeSubs ∧
    (e.destroyGroupOr oom id g).nextGroupId = e.nextGroupId := by
  simp [destroyGroupOr]

lemma isSome_group_of_put {g : SubscriptionGroup} (hg : (e.group id).isSome)
    (h : e'.groups = put eqKey id g e.groups) {id' : ℕ} {g' : SubscriptionGroup}
    (hg' : e'.group id' = some g') : (e.group id').isSome := by
  rw [group, h, find_put] at hg'
  split_ifs at hg' with hid
  · rw [eqKey_iff] at hid
    rw [← hid]
    exact hg
  · change e.group id' = some g' at hg'
    rw [hg']
    rfl

lemma isSome_group_of_remove (h : e'.groups = remove eqKey id e.groups) {id' : ℕ}
    {g' : SubscriptionGroup} (hg' : e'.group id' = some g') : (e.group id').isSome := by
  rw [group, h, find_remove] at hg'
  split_ifs at hg' with hid
  change e.group id' = some g' at hg'
  rw [hg']
  rfl

@[simp] lemma leaveGroup_frame (oom : Bool) (e : SubscriptionEngine) (id : ℕ)
    (key : SubscriberKey) : (e.leaveGroup oom id key).active = e.active ∧
      (e.leaveGroup oom id key).nextGroupId = e.nextGroupId := by
  unfold leaveGroup
  cases e.group id with
  | none => exact ⟨rfl, rfl⟩
  | some g =>
    dsimp only
    split_ifs
    · refine ⟨?_, by simp⟩
      funext key'
      simp [active]
    · exact ⟨rfl, rfl⟩

lemma leaveGroup_members (oom : Bool) (e : SubscriptionEngine) (id : ℕ) (key : SubscriberKey) :
    (e.leaveGroup oom id key).members = update e.members id ((e.members id).filter (· ≠ key)) := by
  unfold leaveGroup
  cases hg : e.group id with
  | none =>
    have hnil : e.members id = [] := by rw [members, hg]; rfl
    rw [hnil, List.filter_nil, ← hnil, update_eq_self]
  | some g =>
    have hput := e.members_put id (g.removeSubscriber key)
      { e with groups := put eqKey id (g.removeSubscriber key) e.groups } rfl
    have hfilter : (g.removeSubscriber key).subscribers = (e.members id).filter (· ≠ key) := by
      rw [members_of_group hg]
      rfl
    rw [hfilter] at hput
    dsimp only
    split_ifs with hempty
    · rw [members_remove _ id _ (destroyGroupOr_frame oom _ id _).1, hput, ← hfilter,
        List.length_eq_zero_iff.mp hempty, update_idem]
    · exact hput

lemma isSome_group_of_leaveGroup {oom : Bool} {id' : ℕ} {g' : SubscriptionGroup}
    (hg' : (e.leaveGroup oom id key).group id' = some g') : (e.group id').isSome := by
  unfold leaveGroup at hg'
  cases hg : e.group id with
  | none =>
    rw [hg] at hg'
    dsimp only at hg'
    rw [hg']
    rfl
  | some g =>
    rw [hg] at hg'
    dsimp only at hg'
    have hsome : (e.group id).isSome := by rw [hg]; rfl
    split_ifs at hg'
    · obtain ⟨g'', hg''⟩ := Option.isSome_iff_exists.mp
        (isSome_group_of_remove (destroyGroupOr_frame oom _ id _).1 hg')
      exact isSome_group_of_put hsome rfl hg''
    · exact isSome_group_of_put hsome rfl hg'

lemma Seated.removeSubscriberOr (h : e.Seated) (oom : Bool) (key : SubscriberKey) :
    (e.removeSubscriberOr oom key).Seated ∧
      (e.removeSubscriberOr oom key).active = update e.active key none := by
  unfold SubscriptionEngine.removeSubscriberOr
  cases ha : find eqKey key e.activeSubs with
  | none =>
    have hnone : e.active key = none := ha
    exact ⟨h, (update_eq_self_iff.mpr hnone.symm).symm⟩
  | some id =>
    dsimp only
    set e₁ : SubscriptionEngine :=
      { e with activeSubs := remove eqKey key e.activeSubs } with he₁
    have hactive : (e₁.leaveGroup oom id key).active = update e.active key none :=
      (leaveGroup_frame oom e₁ id key).1.trans (e.active_remove key e₁ rfl)
    refine ⟨⟨?_, fun id' g' hg' => ?_⟩, hactive⟩
    · rw [hactive, leaveGroup_members]
      exact h.subscribed.leave ha
    · obtain ⟨g, hg⟩ := Option.isSome_iff_exists.mp (isSome_group_of_leaveGroup hg')
      rw [(leaveGroup_frame oom e₁ id key).2]
      exact h.issued id' g hg

lemma Seated.fresh (h : e.Seated) : e.group e.nextGroupId = none := by
  cases hg : e.group e.nextGroupId with
  | none => rfl
  | some g => exact absurd (h.issued _ g hg) (lt_irrefl _)

lemma Seated.failedGroup (h : e.Seated) (fault : SubscribeFault) (left : Node) (oom : Bool)
    (coll : CollectionKey) (filter : QueryFilter) (key : SubscriberKey) :
    (e.failedGroup fault left oom coll filter key).Seated ∧
      (e.failedGroup fault left oom coll filter key).active = e.active := by
  have hgroups : (e.failedGroup fault left oom coll filter key).groups = e.groups ∨
      ∃ g, (e.failedGroup fault left oom coll filter key).groups =
        remove eqKey e.nextGroupId (put eqKey e.nextGroupId g e.groups) := by
    cases fault
    case cloneFilter | putSubscriber | putGroup => exact .inl rfl
    all_goals
      simp only [SubscriptionEngine.failedGroup, removeGroupFromCollectionIndex_frame,
        removeGroupFromTrieOr_frame]
      exact .inr ⟨_, rfl⟩
  have hfind (id : ℕ) : (e.failedGroup fault left oom coll filter key).group id = e.group id := by
    rw [group, group]
    obtain hsame | ⟨g, hput⟩ := hgroups
    · rw [hsame]
    · rw [hput, find_remove, find_put]
      split_ifs with hid
      · rw [eqKey_iff] at hid
        rw [← hid]
        exact h.fresh.symm
      · rfl
  have hactive : (e.failedGroup fault left oom coll filter key).active = e.active := by
    funext key'
    cases fault <;> simp [SubscriptionEngine.failedGroup, active]
  have hnext : (e.failedGroup fault left oom coll filter key).nextGroupId = e.nextGroupId + 1 := by
    cases fault <;> simp [SubscriptionEngine.failedGroup]
  refine ⟨h.of_same hactive ?_ (fun id g hg => ?_) ?_, hactive⟩
  · funext id
    rw [members, hfind, members]
  · rw [hfind] at hg
    rw [hg]
    rfl
  · rw [hnext]
    exact Nat.le_succ _

lemma createSubscriptionGroup_eq {coll : CollectionKey} {filter : QueryFilter}
    {p : SubscriptionEngine × ℕ} (hp : e.createSubscriptionGroup coll filter key = .ok p) :
    ∃ trie, p = ({ e.created coll filter key trie with activeSubs := e.activeSubs },
      e.nextGroupId) := by
  unfold createSubscriptionGroup at hp
  dsimp only at hp
  cases hm : (e.trieAt coll).insertGroup e.nextGroupId filter.predicate with
  | error err =>
    rw [hm] at hp
    cases err
    cases hp
  | ok trie =>
    rw [hm] at hp
    cases hp
    exact ⟨trie, rfl⟩

section Joining

variable (e₁ : SubscriptionEngine) (h : e.Seated) (hnew : e.active key = none)
  (hactive : e₁.activeSubs = e.activeSubs)
  (hmembers : e₁.members = update e.members id (e.members id ++ [key]))
  (hissued : ∀ id g, e₁.group id = some g → id < e₁.nextGroupId)

include h hnew hactive hmembers hissued

lemma Seated.activate : Seated { e₁ with activeSubs := put eqKey key id e₁.activeSubs } ∧
      active { e₁ with activeSubs := put eqKey key id e₁.activeSubs } = update e.active key (some id) := by
  have hput := e.active_put key id { e₁ with activeSubs := put eqKey key id e₁.activeSubs } (by rw [hactive])
  refine ⟨⟨?_, hissued⟩, hput⟩
  rw [hput]
  change Subscribed _ e₁.members
  rw [hmembers]
  exact h.subscribed.join hnew id

lemma Seated.abandon (oom : Bool) :
    (e₁.leaveGroup oom id key).Seated ∧ (e₁.leaveGroup oom id key).active = e.active := by
  have hfresh : key ∉ e.members id := fun hm => by
    rw [← h.subscribed.active, hnew] at hm
    cases hm
  have hsame : (e₁.leaveGroup oom id key).active = e.active := by
    rw [(leaveGroup_frame oom e₁ id key).1]
    funext key'
    rw [active, hactive, active]
  have hleft : (e₁.leaveGroup oom id key).members = e.members := by
    have hfilter : (e.members id).filter (· ≠ key) = e.members id :=
      List.filter_eq_self.mpr fun k hk => decide_eq_true fun he => hfresh (he ▸ hk)
    rw [leaveGroup_members, hmembers, update_self, update_idem, List.filter_append, hfilter]
    simp
  refine ⟨⟨?_, fun id' g' hg' => ?_⟩, hsame⟩
  · rw [hsame, hleft]
    exact h.subscribed
  · obtain ⟨g, hg⟩ := Option.isSome_iff_exists.mp (isSome_group_of_leaveGroup hg')
    rw [(leaveGroup_frame oom e₁ id key).2]
    exact hissued id' g hg

end Joining

/-- A subscription succeeds and makes the key active, or fails and leaves the subscribers alone. -/
lemma Seated.subscribeOr (h : e.Seated) (fault : Option SubscribeFault) (left : Node)
    (oom : Bool) (coll : CollectionKey) (filter : QueryFilter) (key : SubscriberKey) :
    match e.subscribeOr fault left oom coll filter key with
    | .ok e' => e'.Seated ∧ e.active key = none ∧ ∃ id, e'.active = update e.active key (some id)
    | .error e' => e'.Seated ∧ e'.active = e.active := by
  unfold SubscriptionEngine.subscribeOr
  by_cases hsome : (find eqKey key e.activeSubs).isSome
  · simp only [if_pos hsome]
    exact ⟨h, trivial⟩
  simp only [if_neg hsome]
  have hnew : e.active key = none := Option.not_isSome_iff_eq_none.mp hsome
  cases hf : find eqlFilterKey ⟨coll, filter⟩ e.groupsByFilter with
  | some id =>
    dsimp only
    cases hg : e.group id with
    | none => exact ⟨h, rfl⟩
    | some g =>
      have hfresh : key ∉ g.subscribers := fun hm => by
        rw [← members_of_group hg, ← h.subscribed.active, hnew] at hm
        cases hm
      let e₁ : SubscriptionEngine := { e with groups := put eqKey id (g.putSubscriber key) e.groups }
      have hmembers : e₁.members = update e.members id (e.members id ++ [key]) := by
        rw [e.members_put id _ e₁ rfl, members_of_group hg]
        simp [SubscriptionGroup.putSubscriber, hfresh]
      have hissued (id' : ℕ) (g' : SubscriptionGroup) (hg' : e₁.group id' = some g') :
          id' < e₁.nextGroupId := by
        have hsome : (e.group id).isSome := by rw [hg]; rfl
        obtain ⟨g'', hg''⟩ := Option.isSome_iff_exists.mp (isSome_group_of_put hsome rfl hg')
        exact h.issued id' g'' hg''
      dsimp only
      by_cases hput : fault = some .putSubscriber
      · simp only [if_pos hput]
        exact ⟨h, trivial⟩
      simp only [if_neg hput]
      by_cases hact : fault = some .putActive
      · simp only [if_pos hact]
        exact h.abandon e₁ hnew rfl hmembers hissued oom
      · simp only [if_neg hact]
        obtain ⟨hseated, hactive⟩ := h.activate e₁ hnew rfl hmembers hissued
        exact ⟨hseated, hnew, id, hactive⟩
  | none =>
    have hfailed (fault : SubscribeFault) := h.failedGroup fault left oom coll filter key
    cases hc : e.createSubscriptionGroup coll filter key with
    | error err =>
      cases fault with
      | none => exact hfailed .insertTrie
      | some fault => cases fault <;> exact hfailed _
    | ok p =>
      obtain ⟨trie, rfl⟩ := createSubscriptionGroup_eq hc
      let e₁ : SubscriptionEngine :=
        { e.created coll filter key trie with activeSubs := e.activeSubs }
      have hnil : e.members e.nextGroupId = [] := by
        rw [members, h.fresh]
        rfl
      have hmembers : e₁.members = update e.members e.nextGroupId (e.members e.nextGroupId ++ [key]) := by
        rw [e.members_put _ _ e₁ rfl, hnil]
        rfl
      have hissued (id : ℕ) (g : SubscriptionGroup) (hg : e₁.group id = some g) : id < e₁.nextGroupId := by
        change find eqKey id (put eqKey e.nextGroupId _ e.groups) = some g at hg
        rw [find_put] at hg
        split_ifs at hg with hid
        · rw [eqKey_iff] at hid
          rw [← hid]
          exact Nat.lt_succ_self _
        · exact Nat.lt_succ_of_lt (h.issued id g hg)
      obtain ⟨hseated, hactive⟩ := h.activate e₁ hnew rfl hmembers hissued
      have habandon := h.abandon e₁ hnew rfl hmembers hissued oom
      cases fault with
      | none => exact ⟨hseated, hnew, _, hactive⟩
      | some fault =>
        cases fault
        case putActive => exact habandon
        all_goals exact hfailed _

end Steps

end SubscriptionEngine
end ZyncBase
