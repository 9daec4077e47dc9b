import ZyncBase.Subscription.FilterKeys

/-! What the indexes of the engine agree on, as functions of group ids, filters and collections,
and how it survives the creation and the removal of a group. -/
namespace ZyncBase

open AssocMap Function

/-- What the trie of a collection holds: each live group of the collection on its own path. A group
that is gone may still lie there, but its id is not given out again. -/
structure TrieCoherent (keys : ℕ → Option CollectionFilterKey) (next : ℕ) (coll : CollectionKey)
    (n : Node) : Prop where
  wellFormed : n.WellFormed
  single : n.Single
  issued : ∀ id path, Node.has id path n → id < next
  stored : ∀ id k, keys id = some k → ∀ path, Node.has id path n ↔
    k.collection = coll ∧ k.filter.predicate.state ≠ .matchNone ∧ samePath (triePath k.filter.predicate) path

/-- The indexes agree on the live groups and their filters. -/
structure Indexed (keys : ℕ → Option CollectionFilterKey)
    (byFilter : CollectionFilterKey → Option ℕ) (trie : CollectionKey → Node) (next : ℕ) :
    Prop where
  issued : ∀ id k, keys id = some k → id < next
  operands : ∀ id k, keys id = some k → k.filter.predicate.HasOperands
  byFilter : ∀ k id, byFilter k = some id ↔ ∃ k', keys id = some k' ∧ eqlFilterKey k k'
  tries : ∀ coll, TrieCoherent keys next coll (trie coll)

/-- Every active subscriber is a member of its group. -/
structure Subscribed (active : SubscriberKey → Option ℕ) (members : ℕ → List SubscriberKey) :
    Prop where
  nodup : ∀ id, (members id).Nodup
  active : ∀ key id, active key = some id ↔ key ∈ members id

variable {k : CollectionFilterKey}

section Indexes

variable {keys : ℕ → Option CollectionFilterKey} {byFilter : CollectionFilterKey → Option ℕ}
  {trie : CollectionKey → Node} {next : ℕ}

lemma Indexed.fresh (h : Indexed keys byFilter trie next) : keys next = none := by
  cases hk : keys next with
  | none => rfl
  | some k => exact absurd (h.issued next k hk) (lt_irrefl next)

variable {coll : CollectionKey}

lemma TrieCoherent.insert {n m : Node}
    (h : TrieCoherent keys next coll n) (hcoll : k.collection = coll) (hm : m.WellFormed)
    (hhas : ∀ id q, Node.has id q m = (Node.has id q n ||
      (k.filter.predicate.state ≠ .matchNone && samePath (triePath k.filter.predicate) q &&
        next = id))) : TrieCoherent (update keys next (some k)) (next + 1) coll m where
  wellFormed := hm
  single := by
    intro id p q hp hq
    rw [hhas, Bool.or_eq_true] at hp hq
    simp only [Bool.and_eq_true, decide_eq_true_eq] at hp hq
    cases hp with
    | inl hp =>
      cases hq with
      | inl hq => exact h.single id p q hp hq
      | inr hq => exact absurd (h.issued id p hp) (by omega)
    | inr hp =>
      cases hq with
      | inl hq => exact absurd (h.issued id q hq) (by omega)
      | inr hq => exact KeyTest.trans _ _ _ (KeyTest.symm _ _ hp.1.2) hq.1.2
  issued := by
    intro id p hp
    rw [hhas, Bool.or_eq_true] at hp
    cases hp with
    | inl hp => exact Nat.lt_succ_of_lt (h.issued id p hp)
    | inr hp =>
      simp only [Bool.and_eq_true, decide_eq_true_eq] at hp
      omega
  stored := by
    intro id k' hk' path
    rw [hhas]
    by_cases hid : id = next
    · subst hid
      rw [update_self] at hk'
      cases hk'
      have hold : Node.has id path n = false := by
        rw [← Bool.not_eq_true]
        exact fun hp => absurd (h.issued id path hp) (lt_irrefl id)
      simp [hold, hcoll]
    · rw [update_of_ne hid] at hk'
      have : ¬ next = id := fun he => hid he.symm
      simp [this, h.stored id k' hk' path]

lemma TrieCoherent.elsewhere {n : Node} (h : TrieCoherent keys next coll n) (hcoll : k.collection ≠ coll) :
    TrieCoherent (update keys next (some k)) (next + 1) coll n where
  wellFormed := h.wellFormed
  single := h.single
  issued id p hp := Nat.lt_succ_of_lt (h.issued id p hp)
  stored := by
    intro id k' hk' path
    by_cases hid : id = next
    · subst hid
      rw [update_self] at hk'
      cases hk'
      simp only [hcoll, false_and, iff_false]
      exact fun hp => absurd (h.issued id path hp) (lt_irrefl id)
    · rw [update_of_ne hid] at hk'
      exact h.stored id k' hk' path

lemma TrieCoherent.erase {n m : Node} {id₀ : ℕ} (h : TrieCoherent keys next coll n) (hm : m.WellFormed)
    (hsub : ∀ id q, Node.has id q m → Node.has id q n)
    (hsame : ∀ id q, id ≠ id₀ → Node.has id q m = Node.has id q n) :
    TrieCoherent (update keys id₀ none) next coll m where
  wellFormed := hm
  single id p q hp hq := h.single id p q (hsub id p hp) (hsub id q hq)
  issued id p hp := h.issued id p (hsub id p hp)
  stored := by
    intro id k hk path
    by_cases hid : id = id₀
    · subst hid
      rw [update_self] at hk
      cases hk
    · rw [update_of_ne hid] at hk
      rw [hsame id path hid]
      exact h.stored id k hk path

lemma Indexed.create (h : Indexed keys byFilter trie next)
    (hk : k.filter.predicate.HasOperands) (hnew : byFilter k = none) {m : Node} (hm : m.WellFormed)
    (hhas : ∀ id q, Node.has id q m = (Node.has id q (trie k.collection) ||
      (k.filter.predicate.state ≠ .matchNone && samePath (triePath k.filter.predicate) q &&
        next = id))) :
    Indexed (update keys next (some k)) (fun k' => if eqlFilterKey k k' then some next else byFilter k')
      (update trie k.collection m) (next + 1) where
  issued := by
    intro id k' hk'
    by_cases hid : id = next
    · omega
    · rw [update_of_ne hid] at hk'
      exact Nat.lt_succ_of_lt (h.issued id k' hk')
  operands := by
    intro id k' hk'
    by_cases hid : id = next
    · subst hid
      rw [update_self] at hk'
      cases hk'
      exact hk
    · rw [update_of_ne hid] at hk'
      exact h.operands id k' hk'
  byFilter := by
    intro k' id
    by_cases hid : id = next
    · subst hid
      simp only [update_self, Option.some.injEq, exists_eq_left']
      rw [KeyTest.comm eqlFilterKey k' k]
      by_cases he : eqlFilterKey k k'
      · simp [he]
      · simp only [he, Bool.false_eq_true, if_false, iff_false]
        intro hb
        obtain ⟨k'', hk'', -⟩ := (h.byFilter k' id).mp hb
        rw [h.fresh] at hk''
        cases hk''
    · rw [update_of_ne hid]
      by_cases he : eqlFilterKey k k'
      · simp only [he, if_true, Option.some.injEq]
        refine ⟨fun hn => absurd hn.symm hid, ?_⟩
        rintro ⟨k'', hk'', he'⟩
        have := (h.byFilter k id).mpr ⟨k'', hk'', KeyTest.trans _ _ _ he he'⟩
        rw [hnew] at this
        cases this
      · simp only [he]
        exact h.byFilter k' id
  tries := by
    intro coll
    by_cases hc : k.collection = coll
    · subst hc
      rw [update_self]
      exact (h.tries k.collection).insert rfl hm hhas
    · rw [update_of_ne (Ne.symm hc)]
      exact (h.tries coll).elsewhere hc

lemma Indexed.destroy (h : Indexed keys byFilter trie next) {id₀ : ℕ} (hk : keys id₀ = some k) :
    Indexed (update keys id₀ none) (fun k' => if eqlFilterKey k k' then none else byFilter k')
      (update trie k.collection ((trie k.collection).removeGroup id₀ k.filter.predicate)) next where
  issued := by
    intro id k' hk'
    by_cases hid : id = id₀
    · subst hid
      simp at hk'
    · rw [update_of_ne hid] at hk'
      exact h.issued id k' hk'
  operands := by
    intro id k' hk'
    by_cases hid : id = id₀
    · subst hid
      simp at hk'
    · rw [update_of_ne hid] at hk'
      exact h.operands id k' hk'
  byFilter := by
    intro k' id
    have hfiled : byFilter k = some id₀ := (h.byFilter k id₀).mpr ⟨k, hk, KeyTest.refl k⟩
    by_cases hid : id = id₀
    · subst hid
      simp only [update_self, reduceCtorEq, false_and, exists_false, iff_false]
      split_ifs with he
      · simp
      · intro hb
        obtain ⟨k'', hk'', he'⟩ := (h.byFilter k' id).mp hb
        rw [hk] at hk''
        cases hk''
        exact he (KeyTest.symm _ _ he')
    · rw [update_of_ne hid]
      split_ifs with he
      · simp only [false_iff, not_exists, not_and]
        intro k'' hk'' he'
        have := (h.byFilter k id).mpr ⟨k'', hk'', KeyTest.trans _ _ _ he he'⟩
        rw [hfiled] at this
        cases this
        exact hid rfl
      · exact h.byFilter k' id
  tries := by
    intro coll
    by_cases hc : coll = k.collection
    · subst hc
      rw [update_self]
      obtain ⟨hwf, hsub, hsame⟩ :=
        removeGroup_spec (h.tries k.collection).wellFormed (h.operands id₀ k hk) id₀
      exact (h.tries k.collection).erase hwf hsub hsame
    · rw [update_of_ne hc]
      exact (h.tries coll).erase (h.tries coll).wellFormed (fun _ _ => id) fun _ _ _ => rfl

end Indexes

section Members

variable {active : SubscriberKey → Option ℕ} {members : ℕ → List SubscriberKey}

lemma Subscribed.join (h : Subscribed active members) {key : SubscriberKey}
    (hnew : active key = none) (id : ℕ) :
    Subscribed (update active key (some id)) (update members id (members id ++ [key])) where
  nodup := by
    intro id'
    by_cases hid : id' = id
    · subst hid
      rw [update_self]
      refine List.nodup_append.mpr ⟨h.nodup id', List.nodup_singleton key, fun a ha b hb he => ?_⟩
      rw [List.mem_singleton] at hb
      subst he
      subst hb
      rw [(h.active a id').mpr ha] at hnew
      cases hnew
    · rw [update_of_ne hid]
      exact h.nodup id'
  active := by
    intro key' id'
    have hold := h.active key' id'
    by_cases hkey : key' = key
    · subst hkey
      rw [hnew] at hold
      rw [update_self]
      by_cases hid : id' = id
      · subst hid
        simp
      · rw [update_of_ne hid, ← hold]
        simp [Ne.symm hid]
    · rw [update_of_ne hkey, hold]
      by_cases hid : id' = id
      · subst hid
        simp [hkey]
      · rw [update_of_ne hid]

lemma Subscribed.leave (h : Subscribed active members) {key : SubscriberKey} {id : ℕ}
    (hkey : active key = some id) :
    Subscribed (update active key none) (update members id ((members id).filter (· ≠ key))) where
  nodup := by
    intro id'
    by_cases hid : id' = id
    · subst hid
      rw [update_self]
      exact (h.nodup id').filter _
    · rw [update_of_ne hid]
      exact h.nodup id'
  active := by
    intro key' id'
    have hold := h.active key' id'
    by_cases hk : key' = key
    · subst hk
      rw [update_self]
      by_cases hid : id' = id
      · subst hid
        simp
      · rw [update_of_ne hid, ← hold, hkey]
        simp [Ne.symm hid]
    · rw [update_of_ne hk, hold]
      by_cases hid : id' = id
      · subst hid
        simp [hk]
      · rw [update_of_ne hid]

end Members

end ZyncBase
