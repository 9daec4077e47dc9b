import ZyncBase.Lib.Machine
import ZyncBase.Subscription.Matching
import ZyncBase.Subscription.PrunedTries

/-! The five indexes of the engine describe the same live groups, unless the last subscriber of a
group with OR clauses alone has left: that group stays in the trie. -/
namespace ZyncBase

open AssocMap Function List SubscriptionEngine

/-- The list of every collection names its live groups, each once. -/
structure Listed (keys : ℕ → Option CollectionFilterKey) (list : CollectionKey → List ℕ) : Prop where
  nodup : ∀ coll, (list coll).Nodup
  mem : ∀ coll id, id ∈ list coll ↔ ∃ k, keys id = some k ∧ k.collection = coll

/-- The tries hold live groups only. -/
def TriesLive (keys : ℕ → Option CollectionFilterKey) (trie : CollectionKey → Node) : Prop :=
  ∀ coll id path, Node.has id path (trie coll) → (keys id).isSome

section Views

variable {keys : ℕ → Option CollectionFilterKey} {byFilter : CollectionFilterKey → Option ℕ}
  {trie : CollectionKey → Node} {list : CollectionKey → List ℕ} {next : ℕ}

lemma Listed.create (h : Listed keys list) {id : ℕ} (hfresh : keys id = none) (k : CollectionFilterKey) :
    Listed (update keys id (some k)) (update list k.collection (list k.collection ++ [id])) where
  nodup := by
    intro coll
    by_cases hc : coll = k.collection
    · subst hc
      rw [update_self]
      refine nodup_append.mpr ⟨h.nodup _, nodup_singleton id, fun a ha b hb hab => ?_⟩
      rw [mem_singleton] at hb
      rw [hab, hb, h.mem, hfresh] at ha
      simp at ha
    · rw [update_of_ne hc]
      exact h.nodup coll
  mem := by
    intro coll id'
    have hold := h.mem coll id'
    by_cases hid : id' = id
    · subst hid
      rw [hfresh] at hold
      by_cases hc : coll = k.collection
      · subst hc
        simp
      · rw [update_of_ne hc, hold]
        simp [Ne.symm hc]
    · rw [update_of_ne hid]
      by_cases hc : coll = k.collection
      · subst hc
        rw [update_self, mem_append, mem_singleton, hold]
        simp [hid]
      · rw [update_of_ne hc, hold]

lemma Listed.destroy (h : Listed keys list) {id : ℕ} {k : CollectionFilterKey} (hk : keys id = some k) :
    Listed (update keys id none) (update list k.collection
      (swapRemove id (list k.collection))) where
  nodup := by
    intro coll
    by_cases hc : coll = k.collection
    · subst hc
      rw [update_self]
      exact (swapRemove_perm id _).nodup_iff.mpr ((h.nodup _).erase id)
    · rw [update_of_ne hc]
      exact h.nodup coll
  mem := by
    intro coll id'
    have hold := h.mem coll id'
    by_cases hc : coll = k.collection
    · subst hc
      rw [update_self, (swapRemove_perm id _).mem_iff, (h.nodup _).mem_erase_iff, hold]
      by_cases hid : id' = id
      · simp [hid]
      · simp [hid]
    · rw [update_of_ne hc, hold]
      by_cases hid : id' = id
      · subst hid
        rw [hk, update_self]
        simp [Ne.symm hc]
      · rw [update_of_ne hid]

lemma TriesLive.create_iff (h : Indexed keys byFilter trie next) {k : CollectionFilterKey}
    (hk : k.filter.predicate.HasOperands) {m : Node}
    (hm : (trie k.collection).insertGroup next k.filter.predicate = .ok m) :
    TriesLive (update keys next (some k)) (update trie k.collection m) ↔ TriesLive keys trie := by
  obtain ⟨m', hm', -, hhas⟩ := insertGroup_spec (h.tries k.collection).wellFormed hk next
  rw [hm] at hm'
  cases hm'
  constructor
  · intro hl coll id path hp
    have hnew := hl coll id path
    rw [update_of_ne (Nat.ne_of_lt ((h.tries coll).issued id path hp))] at hnew
    apply hnew
    by_cases hc : coll = k.collection
    · subst hc
      rw [update_self, hhas, hp, Bool.true_or]
    · rw [update_of_ne hc]
      exact hp
  · intro hl coll id path hp
    by_cases hid : id = next
    · rw [hid, update_self]
      rfl
    rw [update_of_ne hid]
    by_cases hc : coll = k.collection
    · subst hc
      rw [update_self, hhas] at hp
      have : ¬ next = id := fun he => hid he.symm
      exact hl _ id path (by simpa [this] using hp)
    · rw [update_of_ne hc] at hp
      exact hl coll id path hp

lemma TriesLive.destroy_iff (h : Indexed keys byFilter trie next) {k : CollectionFilterKey}
    {id₀ : ℕ} (hk : keys id₀ = some k) :
    TriesLive (update keys id₀ none) (update trie k.collection
      ((trie k.collection).removeGroup id₀ k.filter.predicate)) ↔
      TriesLive keys trie ∧ ¬ k.filter.predicate.OrOnly := by
  have hops := h.operands id₀ k hk
  have hstored := (h.tries k.collection).stored id₀ k hk
  constructor
  · refine fun hl => ⟨fun coll id path hp => ?_, fun hor => ?_⟩
    · by_cases hid : id = id₀
      · rw [hid, hk]
        rfl
      have hnew := hl coll id path
      rw [update_of_ne hid] at hnew
      apply hnew
      by_cases hc : coll = k.collection
      · subst hc
        rw [update_self, has_removeGroup hops]
        exact ⟨hp, fun hq => hid hq.2.2.2.symm⟩
      · rw [update_of_ne hc]
        exact hp
    · have hstate : k.filter.predicate.state ≠ .matchNone := by
        rw [hor.1]
        decide
      have hnew := hl k.collection id₀ (triePath k.filter.predicate)
      rw [update_self, update_self, has_removeGroup hops, hstored] at hnew
      have := hnew ⟨⟨rfl, hstate, KeyTest.self (sameList sameStep) _⟩, fun hq => hq.2.1 hor⟩
      cases this
  · rintro ⟨hl, hor⟩ coll id path hp
    by_cases hc : coll = k.collection
    · subst hc
      rw [update_self, has_removeGroup hops] at hp
      by_cases hid : id = id₀
      · subst hid
        rw [hstored] at hp
        exact absurd ⟨hp.1.2.1, hor, hp.1.2.2, rfl⟩ hp.2
      · rw [update_of_ne hid]
        exact hl _ id path hp.1
    · rw [update_of_ne hc] at hp
      by_cases hid : id = id₀
      · subst hid
        exact absurd (((h.tries coll).stored id k hk path).mp hp).1.symm hc
      · rw [update_of_ne hid]
        exact hl coll id path hp

end Views

variable {coll : CollectionKey} {e : SubscriptionEngine}

namespace SubscriptionEngine

/-- Every group has members, and the lists name the groups. -/
structure Populated (e : SubscriptionEngine) : Prop where
  members : ∀ id k, e.keys id = some k → e.members id ≠ []
  listed : Listed e.keys e.listAt
  lists : ∀ coll, find eqKey coll e.groupsByCollection ≠ some []

/-- What every call keeps, whatever filters it brings. -/
structure Stocked (e : SubscriptionEngine) : Prop where
  populated : ∀ id k, e.keys id = some k → e.members id ≠ []
  listed : Listed e.keys e.listAt
  lists : ∀ coll, find eqKey coll e.groupsByCollection ≠ some []
  pruned : ∀ coll, (e.trieAt coll).Pruned
  tries : ∀ coll n, find eqKey coll e.triesByCollection = some n →
    n.isEmpty = false ∨ ∃ id k, e.keys id = some k ∧ k.collection = coll

lemma stocked_init : Stocked {} where
  populated := by simp [keys, group]
  listed := { nodup := by simp [listAt], mem := by simp [listAt, keys, group] }
  lists := by simp
  pruned coll := Node.pruned_empty
  tries := by simp

section Steps

variable {e : SubscriptionEngine} {reg : Registry}

lemma listAt_put (e : SubscriptionEngine) (coll : CollectionKey) (ids : List ℕ)
    (e' : SubscriptionEngine) (h : e'.groupsByCollection = put eqKey coll ids e.groupsByCollection) :
    e'.listAt = update e.listAt coll ids := by
  funext coll'
  have := congrFun (find_put_eqKey coll ids e.groupsByCollection) coll'
  rw [listAt, h, this]
  by_cases hc : coll' = coll
  · subst hc
    simp
  · simp [hc, listAt]

lemma listAt_removeGroupFromCollectionIndex (e : SubscriptionEngine) (coll : CollectionKey)
    (id : ℕ) : (e.removeGroupFromCollectionIndex coll id).listAt =
      update e.listAt coll (swapRemove id (e.listAt coll)) := by
  simp only [removeGroupFromCollectionIndex]
  cases hf : find eqKey coll e.groupsByCollection with
  | none =>
    have hnil : e.listAt coll = [] := by rw [listAt, hf]; rfl
    rw [hnil, swapRemove, ← hnil, update_eq_self]
  | some ids =>
    have hids : e.listAt coll = ids := by rw [listAt, hf]; rfl
    rw [hids]
    dsimp only
    split_ifs with hempty
    · funext coll'
      have := congrFun (find_remove_eqKey coll e.groupsByCollection) coll'
      rw [listAt, this]
      by_cases hc : coll' = coll
      · subst hc
        simp [length_eq_zero_iff.mp hempty]
      · simp [hc, listAt]
    · exact e.listAt_put coll _ _ rfl

@[simp] lemma removeGroupFromTrie_groupsByCollection (e : SubscriptionEngine)
    (coll : CollectionKey) (id : ℕ) (filter : QueryFilter) :
    (e.removeGroupFromTrie coll id filter).groupsByCollection = e.groupsByCollection := by
  simp only [removeGroupFromTrie]
  cases find eqKey coll e.triesByCollection <;> rfl

lemma destroyGroup_listAt (e : SubscriptionEngine) (id : ℕ) (g : SubscriptionGroup) :
    (e.destroyGroup id g).listAt = update e.listAt g.collection (swapRemove id (e.listAt g.collection)) := by
  let e' := { e with groupsByFilter := AssocMap.remove eqlFilterKey g.filterKey e.groupsByFilter }
  have hlist := listAt_removeGroupFromCollectionIndex
    (e'.removeGroupFromTrie g.collection id g.filter) g.collection id
  have hsame : (e'.removeGroupFromTrie g.collection id g.filter).listAt = e.listAt := by
    funext coll
    rw [listAt, removeGroupFromTrie_groupsByCollection]
    rfl
  rw [hsame] at hlist
  exact hlist

lemma destroyGroup_lists (h : ∀ coll, find eqKey coll e.groupsByCollection ≠ some [])
    (id : ℕ) (g : SubscriptionGroup) (coll : CollectionKey) :
    find eqKey coll (e.destroyGroup id g).groupsByCollection ≠ some [] := by
  simp only [destroyGroup, removeGroupFromCollectionIndex, removeGroupFromTrie_groupsByCollection]
  cases hf : find eqKey g.collection e.groupsByCollection with
  | none => simpa using h coll
  | some ids =>
    dsimp only
    split_ifs with hempty
    · rw [find_remove]
      split_ifs
      · simp
      · exact h coll
    · rw [find_put]
      split_ifs
      · exact fun hnil => hempty (by rw [Option.some.inj hnil]; rfl)
      · exact h coll

lemma destroyGroup_tries {id : ℕ} {g : SubscriptionGroup} {n : Node}
    (hn : find eqKey coll (e.destroyGroup id g).triesByCollection = some n) :
    n.isEmpty = false ∨ (coll ≠ g.collection ∧ find eqKey coll e.triesByCollection = some n) := by
  simp only [destroyGroup, removeGroupFromCollectionIndex_frame, removeGroupFromTrie] at hn
  cases hf : find eqKey g.collection e.triesByCollection with
  | none =>
    rw [hf] at hn
    refine .inr ⟨?_, hn⟩
    rintro rfl
    change find eqKey g.collection e.triesByCollection = some n at hn
    rw [hf] at hn
    cases hn
  | some m =>
    rw [hf] at hn
    dsimp only at hn
    split_ifs at hn with hempty
    · rw [find_remove] at hn
      split_ifs at hn with hc
      exact .inr ⟨fun he => hc (by simp [he]), hn⟩
    · rw [find_put] at hn
      split_ifs at hn with hc
      · cases hn
        exact .inl (by simpa using hempty)
      · exact .inr ⟨fun he => hc (by simp [he]), hn⟩

variable {filter : QueryFilter}

lemma subscribe_cases (h : e.Coherent reg) (hops : filter.predicate.HasOperands) (key : SubscriberKey) :
    e.call (.subscribe coll filter key) = e ∨
    (∃ id g, e.group id = some g ∧
      e.call (.subscribe coll filter key) = e.joined key id g) ∨
    ∃ m, (e.trieAt coll).insertGroup e.nextGroupId filter.predicate = .ok m ∧
      e.call (.subscribe coll filter key) = e.created coll filter key m := by
  simp only [call, subscribe]
  split_ifs with hactive
  · exact .inl rfl
  cases hf : find eqlFilterKey ⟨coll, filter⟩ e.groupsByFilter with
  | none =>
    obtain ⟨m, hm, -, -⟩ := insertGroup_spec (h.indexed.tries coll).wellFormed hops e.nextGroupId
    refine .inr (.inr ⟨m, hm, ?_⟩)
    simp [createSubscriptionGroup, hm, Except.toOption, created]
  | some id =>
    obtain ⟨k, hkey, -⟩ := (h.indexed.byFilter _ id).mp hf
    rw [keys, Option.map_eq_some_iff] at hkey
    obtain ⟨g, hg, -⟩ := hkey
    refine .inr (.inl ⟨id, g, hg, ?_⟩)
    simp [hg, Except.toOption, joined]

lemma Stocked.toPopulated (hs : e.Stocked) : e.Populated := ⟨hs.populated, hs.listed, hs.lists⟩

lemma Populated.joined (hs : e.Populated) {id : ℕ} {g : SubscriptionGroup} (hg : e.group id = some g)
    (key : SubscriberKey) : (e.joined key id g).Populated := by
  have hkeys : (e.joined key id g).keys = e.keys := joined_keys hg
  refine ⟨fun id' k hk => ?_, ?_, hs.lists⟩
  · rw [hkeys] at hk
    rw [e.members_put id _ (e.joined key id g) rfl]
    by_cases hid : id' = id
    · rw [hid, update_self, SubscriptionGroup.putSubscriber]
      dsimp only
      split_ifs with hmem
      · exact ne_nil_of_mem hmem
      · simp
    · rw [update_of_ne hid]
      exact hs.members id' k hk
  · rw [hkeys]
    exact hs.listed

lemma Populated.created (hs : e.Populated) (hfresh : e.keys e.nextGroupId = none) (coll : CollectionKey)
    (filter : QueryFilter) (key : SubscriberKey) (m : Node) : (e.created coll filter key m).Populated := by
  have hkeys : (e.created coll filter key m).keys =
      update e.keys e.nextGroupId (some ⟨coll, filter⟩) := created_keys coll filter key m
  refine ⟨fun id k hk => ?_, ?_, fun coll' => ?_⟩
  · rw [e.members_put _ _ (e.created coll filter key m) rfl]
    by_cases hid : id = e.nextGroupId
    · rw [hid, update_self]
      simp
    · rw [hkeys, update_of_ne hid] at hk
      rw [update_of_ne hid]
      exact hs.members id k hk
  · rw [hkeys, e.listAt_put coll _ (e.created coll filter key m) rfl]
    exact hs.listed.create hfresh ⟨coll, filter⟩
  · change find eqKey coll' (put eqKey coll _ e.groupsByCollection) ≠ some []
    rw [find_put]
    split_ifs
    · simp
    · exact hs.lists coll'

lemma Populated.removeSubscriber (hs : e.Populated) (h : e.Coherent reg) (key : SubscriberKey) :
    (e.removeSubscriber key).Populated := by
  obtain ⟨-, hsame⟩ | ⟨id, g, -, hg, hcall⟩ := removeSubscriber_cases h key
  · rw [hsame]
    exact hs
  rw [hcall]
  have hkeys : (e.without key id g).keys = e.keys := without_keys hg
  have hmembers : (e.without key id g).members = _ := without_members
  split_ifs with hempty
  · obtain ⟨vkeys, vmembers, -⟩ := destroyGroup_views (e.without key id g) id (g.removeSubscriber key)
    refine ⟨fun id' k hk' => ?_, ?_, fun coll => ?_⟩
    · rw [vkeys, hkeys] at hk'
      have hid : id' ≠ id := by
        rintro rfl
        rw [update_self] at hk'
        cases hk'
      rw [update_of_ne hid] at hk'
      rw [vmembers, update_of_ne hid, hmembers, update_of_ne hid]
      exact hs.members id' k hk'
    · rw [vkeys, hkeys, destroyGroup_listAt]
      exact hs.listed.destroy (keys_of_group hg)
    · exact destroyGroup_lists (e := e.without key id g) hs.lists id _ coll
  · refine ⟨fun id' k hk' => ?_, ?_, hs.lists⟩
    · rw [hkeys] at hk'
      rw [hmembers]
      by_cases hid : id' = id
      · rw [hid, update_self]
        exact fun hnil => hempty (by rw [hnil]; rfl)
      · rw [update_of_ne hid]
        exact hs.members id' k hk'
    · rw [hkeys]
      exact hs.listed

lemma Populated.stocked (hs : e.Populated) (hpruned : ∀ coll, (e.trieAt coll).Pruned)
    (htries : ∀ coll n, find eqKey coll e.triesByCollection = some n →
      n.isEmpty = false ∨ ∃ id k, e.keys id = some k ∧ k.collection = coll) : e.Stocked :=
  ⟨hs.members, hs.listed, hs.lists, hpruned, htries⟩

lemma Stocked.subscribe (hs : e.Stocked) (h : e.Coherent reg)
    (hops : filter.predicate.HasOperands) (key : SubscriberKey) :
    (e.call (.subscribe coll filter key)).Stocked := by
  obtain hsame | ⟨id, g, hg, hcall⟩ | ⟨m, hm, hcall⟩ := subscribe_cases h hops key
  · rw [hsame]
    exact hs
  · rw [hcall]
    have hkeys : (e.joined key id g).keys = e.keys := joined_keys hg
    refine (hs.toPopulated.joined hg key).stocked hs.pruned fun coll' n hn => ?_
    rw [hkeys]
    exact hs.tries coll' n hn
  · rw [hcall]
    have hkeys : (e.created coll filter key m).keys =
        update e.keys e.nextGroupId (some ⟨coll, filter⟩) := created_keys coll filter key m
    refine (hs.toPopulated.created h.indexed.fresh coll filter key m).stocked (fun coll' => ?_)
      fun coll' n hn => ?_
    · rw [e.trieAt_put coll m (e.created coll filter key m) rfl]
      by_cases hc : coll' = coll
      · rw [hc, update_self]
        exact (hs.pruned coll).insertGroup hops hm
      · rw [update_of_ne hc]
        exact hs.pruned coll'
    · rw [hkeys]
      change find eqKey coll' (put eqKey coll m e.triesByCollection) = some n at hn
      rw [find_put] at hn
      split_ifs at hn with hc
      · refine .inr ⟨e.nextGroupId, _, update_self _ _ _, ?_⟩
        exact (eqKey_iff _ _).mp hc
      · refine (hs.tries coll' n hn).imp_right ?_
        rintro ⟨id, k, hk, hcoll⟩
        refine ⟨id, k, ?_, hcoll⟩
        rw [update_of_ne, hk]
        rintro rfl
        rw [h.indexed.fresh] at hk
        cases hk

lemma Stocked.removeSubscriber (hs : e.Stocked) (h : e.Coherent reg) (key : SubscriberKey) :
    (e.removeSubscriber key).Stocked := by
  have hpopulated := hs.toPopulated.removeSubscriber h key
  obtain ⟨-, hsame⟩ | ⟨id, g, -, hg, hcall⟩ := removeSubscriber_cases h key
  · rw [hsame]
    exact hs
  rw [hcall] at hpopulated ⊢
  have hkeys : (e.without key id g).keys = e.keys := without_keys hg
  split_ifs at hpopulated ⊢ with hempty
  · obtain ⟨vkeys, -, -, -, vtrie, -⟩ :=
      destroyGroup_views (e.without key id g) id (g.removeSubscriber key)
    have hk : e.keys id = some g.filterKey := keys_of_group hg
    have htrie : (e.without key id g).trieAt = e.trieAt := rfl
    refine hpopulated.stocked (fun coll => ?_) fun coll n hn => ?_
    · rw [vtrie, htrie]
      by_cases hc : coll = g.collection
      · rw [hc]
        change (update e.trieAt g.collection _ g.collection).Pruned
        rw [update_self]
        exact (hs.pruned _).removeGroup (h.indexed.operands id _ hk) id
      · change (update e.trieAt g.collection _ coll).Pruned
        rw [update_of_ne hc]
        exact hs.pruned coll
    · obtain hfull | ⟨hc, hold⟩ := destroyGroup_tries hn
      · exact .inl hfull
      refine (hs.tries coll n hold).imp_right ?_
      rintro ⟨id', k, hk', hcoll⟩
      refine ⟨id', k, ?_, hcoll⟩
      rw [vkeys, hkeys, update_of_ne, hk']
      rintro rfl
      rw [hk] at hk'
      cases hk'
      exact hc hcoll.symm
  · refine hpopulated.stocked hs.pruned fun coll n hn => ?_
    rw [hkeys]
    exact hs.tries coll n hn

/-- The key is the last subscriber of a group with OR clauses alone. -/
def EndsOrOnly (e : SubscriptionEngine) (key : SubscriberKey) : Prop :=
  ∃ id g, e.active key = some id ∧ e.group id = some g ∧ (∀ k ∈ g.subscribers, k = key) ∧
    g.filter.predicate.OrOnly

/-- Leaving keeps the tries free of groups that are gone unless it ends a group with OR clauses
alone. -/
lemma triesLive_removeSubscriber (h : e.Coherent reg) (key : SubscriberKey) :
    TriesLive (e.removeSubscriber key).keys (e.removeSubscriber key).trieAt ↔
      TriesLive e.keys e.trieAt ∧ ¬ e.EndsOrOnly key := by
  obtain ⟨ha, hsame⟩ | ⟨id, g, ha, hg, hcall⟩ := removeSubscriber_cases h key
  · rw [hsame]
    refine ⟨fun hl => ⟨hl, ?_⟩, fun hl => hl.1⟩
    rintro ⟨id, g, ha', -⟩
    rw [ha] at ha'
    cases ha'
  have hends : e.EndsOrOnly key ↔ (g.removeSubscriber key).subscribers = [] ∧ g.filter.predicate.OrOnly := by
    have hlast : (g.removeSubscriber key).subscribers = [] ↔ ∀ k ∈ g.subscribers, k = key := by
      simp [SubscriptionGroup.removeSubscriber, filter_eq_nil_iff]
    rw [hlast]
    constructor
    · rintro ⟨id', g', ha', hg', hall, hor⟩
      rw [ha] at ha'
      cases ha'
      rw [hg] at hg'
      cases hg'
      exact ⟨hall, hor⟩
    · exact fun hh => ⟨id, g, ha, hg, hh.1, hh.2⟩
  rw [hcall, hends]
  have hkeys : (e.without key id g).keys = e.keys := without_keys hg
  have htrie : (e.without key id g).trieAt = e.trieAt := rfl
  split_ifs with hempty
  · obtain ⟨vkeys, -, -, -, vtrie, -⟩ :=
      destroyGroup_views (e.without key id g) id (g.removeSubscriber key)
    rw [vkeys, vtrie, hkeys, htrie, length_eq_zero_iff.mp hempty]
    simp only [true_and]
    exact TriesLive.destroy_iff h.indexed (keys_of_group hg)
  · rw [hkeys, htrie]
    refine ⟨fun hl => ⟨hl, fun hh => hempty (by rw [hh.1]; rfl)⟩, fun hl => hl.1⟩

lemma triesLive_subscribe (h : e.Coherent reg) (hops : filter.predicate.HasOperands) (key : SubscriberKey) :
    TriesLive (e.call (.subscribe coll filter key)).keys
      (e.call (.subscribe coll filter key)).trieAt ↔ TriesLive e.keys e.trieAt := by
  obtain hsame | ⟨id, g, hg, hcall⟩ | ⟨m, hm, hcall⟩ := subscribe_cases h hops key
  · rw [hsame]
  · rw [hcall]
    have hkeys : (e.joined key id g).keys = e.keys := joined_keys hg
    have htrie : (e.joined key id g).trieAt = e.trieAt := rfl
    rw [hkeys, htrie]
  · rw [hcall]
    have hkeys : (e.created coll filter key m).keys =
        update e.keys e.nextGroupId (some ⟨coll, filter⟩) := created_keys coll filter key m
    rw [hkeys, e.trieAt_put coll m (e.created coll filter key m) rfl]
    exact TriesLive.create_iff (k := ⟨coll, filter⟩) h.indexed hops hm

/-- Coherence with some registry, and what every call keeps. -/
def Sound (e : SubscriptionEngine) : Prop := (∃ reg, e.Coherent reg) ∧ e.Stocked

lemma Sound.removeSubscriber (h : e.Sound) (key : SubscriberKey) : (e.removeSubscriber key).Sound := by
  obtain ⟨⟨reg, hc⟩, hs⟩ := h
  exact ⟨⟨_, hc.removeSubscriber key⟩, hs.removeSubscriber hc key⟩

end Steps

/-- No subscriber that the call takes away is the last of a group with OR clauses alone. -/
def KeepsTries (e : SubscriptionEngine) : SubscriptionCall → Prop
  | .subscribe _ _ _ => True
  | .unsubscribe connectionId id => ¬ e.EndsOrOnly ⟨connectionId, id⟩
  | .unsubscribeMany connectionId ids =>
    Machine.Along (fun e id => e.removeSubscriber ⟨connectionId, id⟩)
      (fun e id => ¬ e.EndsOrOnly ⟨connectionId, id⟩) e ids

lemma Sound.call (h : e.Sound) {c : SubscriptionCall}
    (hc : ∀ coll filter key, c = .subscribe coll filter key → filter.predicate.HasOperands) :
    (e.call c).Sound := by
  obtain ⟨⟨reg, hcoh⟩, hs⟩ := h
  cases c with
  | subscribe coll filter key =>
    have hops := hc coll filter key rfl
    exact ⟨⟨_, hcoh.subscribe hops key⟩, hs.subscribe hcoh hops key⟩
  | unsubscribe connectionId id => exact Sound.removeSubscriber ⟨⟨reg, hcoh⟩, hs⟩ _
  | unsubscribeMany connectionId ids =>
    exact Machine.invariant (I := Sound) (fun e id he => he.removeSubscriber _) ⟨⟨reg, hcoh⟩, hs⟩ ids

lemma triesLive_call (h : e.Sound) {c : SubscriptionCall}
    (hc : ∀ coll filter key, c = .subscribe coll filter key → filter.predicate.HasOperands) :
    TriesLive (e.call c).keys (e.call c).trieAt ↔ TriesLive e.keys e.trieAt ∧ e.KeepsTries c := by
  cases c with
  | subscribe coll filter key =>
    obtain ⟨⟨reg, hcoh⟩, -⟩ := h
    rw [triesLive_subscribe hcoh (hc coll filter key rfl), KeepsTries, and_true]
  | unsubscribe connectionId id =>
    obtain ⟨⟨reg, hcoh⟩, -⟩ := h
    exact triesLive_removeSubscriber hcoh _
  | unsubscribeMany connectionId ids =>
    refine Machine.foldl_iff_along (I := fun e => TriesLive e.keys e.trieAt) (J := Sound)
      (fun e id _ he => he.removeSubscriber _) (fun e id _ he => ?_) h
    obtain ⟨⟨reg, hcoh⟩, -⟩ := he
    exact triesLive_removeSubscriber hcoh _

/-- The group lies at the end of one path of the trie, and of no other. -/
def HoldsOnce (n : Node) (id : ℕ) : Prop := ∃ path, ∀ q, Node.has id q n ↔ samePath path q

/-- The five indexes describe the same live groups. -/
structure IndexesAgree (e : SubscriptionEngine) : Prop where
  active : ∀ key id, find eqKey key e.activeSubs = some id ↔ ∃ g, e.group id = some g ∧ key ∈ g.subscribers
  populated : ∀ id g, e.group id = some g → g.subscribers ≠ []
  filed : ∀ id g, e.group id = some g → find eqlFilterKey g.filterKey e.groupsByFilter = some id
  listed : ∀ id g, e.group id = some g → (e.listAt g.collection).count id = 1
  stored : ∀ id g, e.group id = some g → g.filter.predicate.state ≠ .matchNone →
    HoldsOnce (e.trieAt g.collection) id
  listsLive : ∀ coll id, id ∈ e.listAt coll → (e.group id).isSome
  triesLive : ∀ coll id path, Node.has id path (e.trieAt coll) → (e.group id).isSome
  emptied : e.activeSubs = [] → e.groups = [] ∧ e.groupsByFilter = [] ∧
    e.groupsByCollection = [] ∧ e.triesByCollection = []

lemma eq_nil_of_find {κ ν : Type*} (same : κ → κ → Bool) [KeyTest same] {m : List (κ × ν)}
    (h : ∀ k, find same k m = none) : m = [] := by
  cases m with
  | nil => rfl
  | cons e es =>
    have := h e.1
    rw [find, if_pos (KeyTest.self same e.1)] at this
    cases this

lemma isSome_keys (e : SubscriptionEngine) (id : ℕ) : (e.keys id).isSome = (e.group id).isSome := by
  rw [keys, Option.isSome_map]

lemma Sound.emptied (h : e.Sound) (hl : TriesLive e.keys e.trieAt)
    (hnone : e.activeSubs = []) : e.groups = [] ∧ e.groupsByFilter = [] ∧
      e.groupsByCollection = [] ∧ e.triesByCollection = [] := by
  obtain ⟨⟨reg, hc⟩, hs⟩ := h
  have hkeys (id : ℕ) : e.keys id = none := by
    cases hk : e.keys id with
    | none => rfl
    | some k =>
      obtain ⟨key, hkey⟩ := exists_mem_of_ne_nil _ (hs.populated id k hk)
      rw [← hc.subscribed.active, active, hnone] at hkey
      cases hkey
  refine ⟨eq_nil_of_find eqKey fun id => ?_, eq_nil_of_find eqlFilterKey fun k => ?_,
    eq_nil_of_find eqKey fun coll => ?_, eq_nil_of_find eqKey fun coll => ?_⟩
  · have := hkeys id
    rw [keys, Option.map_eq_none_iff] at this
    exact this
  · cases hf : find eqlFilterKey k e.groupsByFilter with
    | none => rfl
    | some id =>
      obtain ⟨k', hk', -⟩ := (hc.indexed.byFilter k id).mp hf
      rw [hkeys] at hk'
      cases hk'
  · cases hf : find eqKey coll e.groupsByCollection with
    | none => rfl
    | some ids =>
      cases ids with
      | nil => exact absurd hf (hs.lists coll)
      | cons id ids =>
        have hm : id ∈ e.listAt coll := by
          rw [listAt, hf]
          exact mem_cons_self
        obtain ⟨k, hk, -⟩ := (hs.listed.mem coll id).mp hm
        rw [hkeys] at hk
        cases hk
  · cases hf : find eqKey coll e.triesByCollection with
    | none => rfl
    | some n =>
      have hn : e.trieAt coll = n := by rw [trieAt, hf]; rfl
      obtain hfull | ⟨id, k, hk, -⟩ := hs.tries coll n hf
      · have hempty : n = .empty := by
          rw [← hn]
          refine (hs.pruned coll).eq_empty (hc.indexed.tries coll).wellFormed fun id path hp => ?_
          have := hl coll id path hp
          rw [hkeys] at this
          cases this
        rw [hempty] at hfull
        cases hfull
      · rw [hkeys] at hk
        cases hk

/-- In a sound engine the indexes can only disagree about groups that are gone from the others and
still in a trie. -/
lemma Sound.agree_iff_triesLive (h : e.Sound) : e.IndexesAgree ↔ TriesLive e.keys e.trieAt := by
  constructor
  · intro ha coll id path hp
    rw [isSome_keys]
    exact ha.triesLive coll id path hp
  · intro hl
    have hempty := h.emptied hl
    obtain ⟨⟨reg, hc⟩, hs⟩ := h
    refine ⟨fun key id => ?_, fun id g hg => ?_, fun id g hg => ?_, fun id g hg => ?_,
      fun id g hg hstate => ?_, fun coll id hid => ?_, fun coll id path hp => ?_, hempty⟩
    · change e.active key = some id ↔ _
      constructor
      · exact group_of_active hc
      · rintro ⟨g, hg, hkey⟩
        rw [hc.subscribed.active, members_of_group hg]
        exact hkey
    · have := hs.populated id _ (keys_of_group hg)
      rw [members_of_group hg] at this
      exact this
    · exact (hc.indexed.byFilter g.filterKey id).mpr ⟨_, keys_of_group hg, KeyTest.refl _⟩
    · refine count_eq_one_of_mem (hs.listed.nodup _) ?_
      exact (hs.listed.mem _ id).mpr ⟨_, keys_of_group hg, rfl⟩
    · refine ⟨triePath g.filter.predicate, fun q => ?_⟩
      rw [(hc.indexed.tries g.collection).stored id _ (keys_of_group hg) q]
      exact ⟨fun hq => hq.2.2, fun hq => ⟨rfl, hstate, hq⟩⟩
    · obtain ⟨k, hk, -⟩ := (hs.listed.mem coll id).mp hid
      rw [← isSome_keys, hk]
      rfl
    · rw [← isSome_keys]
      exact hl coll id path hp

/-- After any calls with parsed filters the indexes agree exactly when no call took away the last
subscriber of a group with OR clauses alone. -/
theorem indexesAgree_iff (calls : List SubscriptionCall)
    (hp : ∀ coll filter key, .subscribe coll filter key ∈ calls → ParsedFilter filter) :
    (run calls).IndexesAgree ↔ Machine.Along call KeepsTries {} calls := by
  have hops (c : SubscriptionCall) (hc : c ∈ calls) (coll : CollectionKey) (filter : QueryFilter)
      (key : SubscriberKey) (he : c = .subscribe coll filter key) :
      filter.predicate.HasOperands :=
    (hp coll filter key (he ▸ hc)).hasOperands
  have hinit : Sound {} := ⟨⟨_, coherent_init⟩, stocked_init⟩
  have hlive : TriesLive (keys {}) (trieAt {}) := by
    intro coll id path hpath
    simp [trieAt] at hpath
  have hrun : TriesLive (run calls).keys (run calls).trieAt ↔
      TriesLive (keys {}) (trieAt {}) ∧ Machine.Along call KeepsTries {} calls :=
    Machine.foldl_iff_along (I := fun e => TriesLive e.keys e.trieAt) (J := Sound)
      (fun e c hc he => he.call (hops c hc)) (fun e c hc he => triesLive_call he (hops c hc)) hinit
  have hsound : (run calls).Sound :=
    List.foldlRecOn calls call hinit fun e he c hc => he.call (hops c hc)
  rw [hsound.agree_iff_triesLive, hrun, and_iff_right hlive]

namespace LeavingExample

/-- Events that are new or changed lately: two conditions of which one has to hold. -/
def recentEvents : Payload := .map [(.str (asciiBytes "orConditions"),
  .arr [.arr [.uint 3, .uint 2, .uint 7], .arr [.uint 4, .uint 2, .uint 7]])]

def later (fieldIndex : ℕ) : Condition where
  fieldIndex
  op := .gt
  value := some (.scalar (.integer 7))
  fieldType := .integer
  itemsType := none

def recentFilter : QueryFilter where
  predicate := { state := .conditional, orClauses := some [[later 3, later 4]] }
  orderBy := [{ fieldIndex := 3, desc := false }]

lemma parse_recentEvents :
    parseQueryFilter (fun _ => none) MatchExample.eventSchema 0 recentEvents = .ok recentFilter := by
  decide

def comeAndGo : List SubscriptionCall :=
  [.subscribe ⟨1, 0⟩ recentFilter ⟨7, 1⟩, .unsubscribe 7 1]

lemma comeAndGo_parsed (coll : CollectionKey) (filter : QueryFilter) (key : SubscriberKey)
    (h : .subscribe coll filter key ∈ comeAndGo) : ParsedFilter filter := by
  simp only [comeAndGo, mem_cons, not_mem_nil, or_false, SubscriptionCall.subscribe.injEq, reduceCtorEq] at h
  obtain ⟨-, rfl, -⟩ := h
  exact ⟨_, _, _, _, parse_recentEvents⟩

/-- The only subscriber has left, and its group is still in the trie of the collection. -/
theorem left_group_in_trie : (∀ coll filter key, .subscribe coll filter key ∈ comeAndGo → ParsedFilter filter) ∧
    (run comeAndGo).activeSubs = [] ∧ (run comeAndGo).group 1 = none ∧
    Node.has 1 [] ((run comeAndGo).trieAt ⟨1, 0⟩) ∧ ¬ (run comeAndGo).IndexesAgree := by
  have hgone : (run comeAndGo).group 1 = none := rfl
  have hleft : Node.has 1 [] ((run comeAndGo).trieAt ⟨1, 0⟩) := by decide
  refine ⟨comeAndGo_parsed, rfl, hgone, hleft, fun h => ?_⟩
  have hlive := h.triesLive ⟨1, 0⟩ 1 [] hleft
  rw [hgone] at hlive
  cases hlive

theorem indexesAgree_iff_comeAndGo :
    (run comeAndGo).IndexesAgree ↔ Machine.Along call KeepsTries {} comeAndGo :=
  indexesAgree_iff comeAndGo comeAndGo_parsed

end LeavingExample
end SubscriptionEngine
end ZyncBase
