import ZyncBase.Subscription.Engine
import ZyncBase.Subscription.TrieMatching

/-! Filters that share a group are true on the same records, and a predicate splits into its path
in the trie and the rest. -/
namespace ZyncBase

open AssocMap FilterPredicate

section FilterKeys

lemma eqlFilter_iff (a b : QueryFilter) : eqlFilter a b ↔ a.predicate.state = b.predicate.state ∧
    eqlConditionsSorted a.predicate.conditions b.predicate.conditions ∧
    eqlOrClauses a.predicate.orClauses b.predicate.orClauses ∧
    a.orderBy = b.orderBy ∧ a.limit = b.limit ∧
    sameOption (sameList Value.eql) (a.after.map Cursor.values) (b.after.map Cursor.values) := by
  simp only [eqlFilter, Bool.and_eq_true, decide_eq_true_eq, and_assoc]

instance : KeyTest eqlConditionsSorted :=
  inferInstanceAs (KeyTest (sameOption (sameList eqlCondition)))

instance : KeyTest eqlOrClauses :=
  inferInstanceAs (KeyTest (sameOption (sameList (sameList eqlCondition))))

instance : KeyTest eqlFilter where
  refl a := by
    rw [eqlFilter_iff]
    exact ⟨rfl, KeyTest.self eqlConditionsSorted _, KeyTest.self eqlOrClauses _, rfl, rfl,
      KeyTest.self (sameOption (sameList Value.eql)) _⟩
  symm a b h := by
    rw [eqlFilter_iff] at h ⊢
    obtain ⟨hs, hc, ho, hd, hl, ha⟩ := h
    exact ⟨hs.symm, KeyTest.symm _ _ hc, KeyTest.symm _ _ ho, hd.symm, hl.symm, KeyTest.symm _ _ ha⟩
  trans a b c h g := by
    rw [eqlFilter_iff] at h g ⊢
    obtain ⟨hs, hc, ho, hd, hl, ha⟩ := h
    obtain ⟨gs, gc, go, gd, gl, ga⟩ := g
    exact ⟨hs.trans gs, KeyTest.trans _ _ _ hc gc, KeyTest.trans _ _ _ ho go, hd.trans gd,
      hl.trans gl, KeyTest.trans _ _ _ ha ga⟩

lemma eqlFilterKey_iff (a b : CollectionFilterKey) :
    eqlFilterKey a b ↔ a.collection = b.collection ∧ eqlFilter a.filter b.filter := by
  simp [eqlFilterKey]

instance : KeyTest eqlFilterKey where
  refl a := by simp [eqlFilterKey_iff, KeyTest.self eqlFilter]
  symm a b h := by
    rw [eqlFilterKey_iff] at h ⊢
    exact ⟨h.1.symm, KeyTest.symm _ _ h.2⟩
  trans a b c h g := by
    rw [eqlFilterKey_iff] at h g ⊢
    exact ⟨h.1.trans g.1, KeyTest.trans _ _ _ h.2 g.2⟩

lemma getD_sameList {κ : Type*} {same : κ → κ → Bool} {as bs : Option (List κ)}
    (h : sameOption (sameList same) as bs) : sameList same (as.getD []) (bs.getD []) := by
  obtain ⟨rfl, rfl⟩ | ⟨x, y, rfl, rfl, hxy⟩ := sameOption_cases h
  · rfl
  · exact hxy

lemma clauseHolds_congr {a b : OrClause} (h : sameList eqlCondition a b) (r : Record) :
    clauseHolds r a = clauseHolds r b := by
  have hany : a.any (·.holds r) = b.any (·.holds r) :=
    sameList_any_eq (f := (·.holds r)) (fun x y hxy => Condition.holds_congr hxy r) h
  rw [clauseHolds, clauseHolds, hany]
  cases a with
  | nil =>
    cases b with
    | nil => rfl
    | cons y ys => simp [sameList] at h
  | cons x xs =>
    cases b with
    | nil => simp [sameList] at h
    | cons y ys => rfl

lemma FilterPredicate.holds_congr {a b : QueryFilter} (h : eqlFilter a b) (r : Record) :
    a.predicate.holds r = b.predicate.holds r := by
  obtain ⟨hs, hc, ho, -, -, -⟩ := (eqlFilter_iff a b).mp h
  simp only [holds, hs]
  have hconds : (a.predicate.conditions.getD []).all (·.holds r) =
      (b.predicate.conditions.getD []).all (·.holds r) :=
    sameList_all_eq (f := (·.holds r)) (fun c d hcd => Condition.holds_congr hcd r) (getD_sameList hc)
  have hclauses : (a.predicate.orClauses.getD []).all (clauseHolds r) =
      (b.predicate.orClauses.getD []).all (clauseHolds r) :=
    sameList_all_eq (f := clauseHolds r) (fun c d hcd => clauseHolds_congr hcd r) (getD_sameList ho)
  cases b.predicate.state with
  | matchAll => rfl
  | matchNone => rfl
  | conditional => exact congrArg₂ (· && ·) hconds hclauses

end FilterKeys

variable {p : FilterPredicate}

section TrieOfGroups

/-- The path under which a predicate is kept. -/
def triePath (p : FilterPredicate) : List Condition :=
  match p.state with
  | .conditional => buildPath p
  | _ => []

lemma mem_buildPath (p : FilterPredicate) (c : Condition) :
    c ∈ buildPath p ↔ c ∈ p.conditions.getD [] := List.mem_insertionSort _

lemma buildPath_operands (h : p.HasOperands) : ∀ c ∈ buildPath p, c.HasOperand := fun c hc =>
  h c (mem_allConditions_of_conditions ((mem_buildPath p c).mp hc))

lemma insertGroup_spec {n : Node} (hn : n.WellFormed) (h : p.HasOperands)
    (g : ℕ) : ∃ m, n.insertGroup g p = .ok m ∧ m.WellFormed ∧ ∀ k q, Node.has k q m =
        (Node.has k q n || (p.state ≠ .matchNone && samePath (triePath p) q && g = k)) := by
  simp only [Node.insertGroup, triePath]
  cases p.state with
  | matchNone => exact ⟨n, rfl, hn, by simp⟩
  | matchAll =>
    refine ⟨_, rfl, hn.putLeaf g, fun k q => ?_⟩
    rw [Node.has_putLeaf]
    cases q <;> simp [samePath, sameList]
  | conditional =>
    obtain ⟨m, hm, hhas⟩ := Node.insertAlongPath_spec g (buildPath_operands h) n
    exact ⟨m, hm, hn.insertAlongPath (buildPath_operands h) hm, fun k q => by simp [hhas]⟩

lemma removeGroup_spec {n : Node} (hn : n.WellFormed) (h : p.HasOperands)
    (g : ℕ) : (n.removeGroup g p).WellFormed ∧ (∀ k q, Node.has k q (n.removeGroup g p) → Node.has k q n) ∧
      ∀ k q, k ≠ g → Node.has k q (n.removeGroup g p) = Node.has k q n := by
  simp only [Node.removeGroup]
  cases p.state with
  | matchNone => exact ⟨hn, fun _ _ => id, fun _ _ _ => rfl⟩
  | matchAll =>
    refine ⟨hn.removeLeaf g, fun k q hk => ?_, fun k q hk => ?_⟩
    · rw [Node.has_removeLeaf, Bool.and_eq_true] at hk
      exact hk.1
    · simp [Node.has_removeLeaf, hk.symm]
  | conditional =>
    cases p.conditions with
    | none => exact ⟨hn, fun _ _ => id, fun _ _ _ => rfl⟩
    | some _ =>
      have hhas := Node.has_removeAlongPath g (buildPath_operands h) n
      refine ⟨hn.removeAlongPath (buildPath_operands h) g, fun k q hk => ?_, fun k q hk => ?_⟩
      · dsimp only at hk
        rw [hhas, Bool.and_eq_true] at hk
        exact hk.1
      · simp [hhas, hk.symm]

/-- The part of a predicate that is not in its path. -/
def residualHolds (p : FilterPredicate) (r : Record) : Bool :=
  p.state ≠ .matchNone && (p.state ≠ .conditional || (p.orClauses.getD []).all (clauseHolds r))

lemma holds_eq_path (p : FilterPredicate) (r : Record) :
    p.holds r = ((triePath p).all (·.holds r) && residualHolds p r) := by
  simp only [holds, triePath, residualHolds]
  cases p.state with
  | matchAll => rfl
  | matchNone => rfl
  | conditional =>
    have : (buildPath p).all (·.holds r) = (p.conditions.getD []).all (·.holds r) :=
      (List.perm_insertionSort _ _).all_eq
    simp [this]

lemma residualMatches_eq (h : p.HasOperands) (r : Record) : residualMatches p r = .ok (residualHolds p r) := by
  simp only [residualMatches, residualHolds]
  cases p.state with
  | matchAll => rfl
  | matchNone => rfl
  | conditional =>
    dsimp only
    rw [evaluateClauses_eq r _ fun clause hp c hc =>
      h c (mem_allConditions_of_clause hp hc)]
    simp

lemma path_holds_congr {p q : List Condition} (h : samePath p q) (r : Record) :
    p.all (·.holds r) = q.all (·.holds r) := by
  refine sameList_all_eq (f := (·.holds r)) (fun a b hab => ?_) h
  simp only [sameStep] at hab
  split_ifs at hab with ha
  · simp only [Bool.and_eq_true, decide_eq_true_eq] at hab
    obtain ⟨⟨hb, hf⟩, hv⟩ := hab
    simp only [Condition.holds, ha, hb, hf, Operator.isNullary]
    obtain ⟨hx, hy⟩ | ⟨x, y, hx, hy, hxy⟩ := sameOption_cases hv
    · rw [hx, hy]
    · rw [hx, hy]
      cases r.values[b.fieldIndex]? with
      | none => rfl
      | some v => exact compareValues_congr_right .eq v hxy
  · exact Condition.holds_congr hab r

end TrieOfGroups

end ZyncBase
