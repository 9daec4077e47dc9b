import ZyncBase.Lib.Outcome
import ZyncBase.Subscription.PredicateTrie

/-! The paths of a trie: insertion and removal change exactly one path and keep the nodes
well-formed. -/
namespace ZyncBase

open AssocMap List Option

/-- Steps that lead along the same edge: equalities by field and value, others by condition. -/
def sameStep (a b : Condition) : Bool :=
  if a.op = .eq then
    b.op = .eq && a.fieldIndex = b.fieldIndex && sameOption Value.eql a.value b.value
  else eqlCondition a b

instance : KeyTest sameStep where
  refl a := by
    simp only [sameStep]
    split_ifs with h
    · simp [h, KeyTest.self (sameOption Value.eql)]
    · exact KeyTest.refl a
  symm a b h := by
    simp only [sameStep] at h ⊢
    by_cases ha : a.op = .eq
    · simp only [ha, if_true, Bool.and_eq_true, decide_eq_true_eq] at h ⊢
      simp only [h.1.1, if_true, h.1.2, decide_true, Bool.true_and]
      exact KeyTest.symm _ _ h.2
    · rw [if_neg ha] at h
      have hb : b.op ≠ .eq := fun hb => ha (((eqlCondition_iff a b).mp h).2.1.trans hb)
      rw [if_neg hb]
      exact KeyTest.symm _ _ h
  trans a b c h g := by
    simp only [sameStep] at h g ⊢
    by_cases ha : a.op = .eq
    · simp only [ha, if_true, Bool.and_eq_true, decide_eq_true_eq] at h ⊢
      simp only [h.1.1, if_true, Bool.and_eq_true, decide_eq_true_eq] at g
      exact ⟨⟨g.1.1, h.1.2.trans g.1.2⟩, KeyTest.trans _ _ _ h.2 g.2⟩
    · rw [if_neg ha] at h ⊢
      have hb : b.op ≠ .eq := fun hb => ha (((eqlCondition_iff a b).mp h).2.1.trans hb)
      rw [if_neg hb] at g
      exact KeyTest.trans _ _ _ h g

abbrev samePath : List Condition → List Condition → Bool := sameList sameStep

variable {path : List Condition} {n : Node}

namespace Node

/-- Does the group lie at the end of the path? -/
def has (groupId : ℕ) : List Condition → Node → Bool
  | [], n => groupId ∈ n.leafGroups
  | step :: path, n => (n.child step).any (has groupId path)

@[simp] lemma has_empty (g : ℕ) (path : List Condition) : has g path empty = false := by
  cases path with
  | nil => rfl
  | cons step path =>
    rw [has, empty, child]
    split_ifs
    · cases step.value <;> rfl
    · rfl

section Edges

lemma child_setChild {step : Condition} (hs : step.HasOperand) (t : Condition) (c n : Node) :
    (n.setChild step c).child t = if sameStep step t then some c else n.child t := by
  obtain ⟨leaves, eqs, conds⟩ := n
  simp only [setChild, sameStep]
  by_cases h : step.op = .eq
  · obtain ⟨v, hv⟩ := isSome_iff_exists.mp (hs (by rw [h]; rfl))
    simp only [h, if_true, hv, child]
    by_cases ht : t.op = .eq
    · cases hw : t.value with
      | none => simp [ht, sameOption]
      | some w =>
        simp only [ht, if_true, find_put, decide_true, Bool.true_and, sameOption,
          Bool.and_eq_true, decide_eq_true_eq, eqKey_iff]
        by_cases hf : step.fieldIndex = t.fieldIndex
        · simp only [hf, if_true, bind_some, find_put, true_and]
          split_ifs
          · rfl
          · cases find eqKey t.fieldIndex eqs <;> rfl
        · simp [hf]
    · simp [ht]
  · simp only [h, if_false, child]
    by_cases ht : t.op = .eq
    · have : ¬ eqlCondition step t := fun he =>
        h (((eqlCondition_iff step t).mp he).2.1.trans ht)
      simp [ht, this]
    · simp only [ht, if_false, find_put]

lemma find_removed_value (eqs : List (ℕ × List (Value × Node))) (field : ℕ) (v w : Value) :
    find Value.eql w (remove Value.eql v ((find eqKey field eqs).getD [])) =
      if v.eql w then none else (find eqKey field eqs).bind (find Value.eql w) := by
  rw [find_remove]
  cases find eqKey field eqs <;> rfl

lemma child_removeChild {step : Condition} (hs : step.HasOperand) (t : Condition) (n : Node) :
    (n.removeChild step).child t = if sameStep step t then none else n.child t := by
  obtain ⟨leaves, eqs, conds⟩ := n
  by_cases h : step.op = .eq
  · obtain ⟨v, hv⟩ := isSome_iff_exists.mp (hs (by rw [h]; rfl))
    simp only [removeChild, sameStep, h, if_true, hv]
    by_cases ht : t.op = .eq
    · cases hw : t.value with
      | none => split_ifs <;> simp_all [child]
      | some w =>
        have hrest := find_removed_value eqs step.fieldIndex v w
        by_cases hf : step.fieldIndex = t.fieldIndex
        · simp only [ht, hf, decide_true, Bool.true_and, sameOption]
          rw [hf] at hrest
          split_ifs with hl hvw hvw
          · simp [child, ht, hw, find_remove]
          · rw [length_eq_zero_iff.mp hl, find_nil, if_neg hvw] at hrest
            simp [child, ht, hw, find_remove, ← hrest]
          · simp [child, ht, hw, find_put, hrest, hvw]
          · simp [child, ht, hw, find_put, hrest, hvw]
        · split_ifs <;> simp_all [child, find_put, find_remove]
    · split_ifs <;> simp_all [child]
  · simp only [removeChild, sameStep, h, if_false, child]
    by_cases ht : t.op = .eq
    · have : ¬ eqlCondition step t := fun he =>
        h (((eqlCondition_iff step t).mp he).2.1.trans ht)
      simp [ht, this]
    · simp only [ht, if_false, find_remove]

@[simp] lemma leafGroups_setChild (n : Node) (step : Condition) (c : Node) :
    (n.setChild step c).leafGroups = n.leafGroups := by
  obtain ⟨leaves, eqs, conds⟩ := n
  simp only [setChild]
  split_ifs
  · cases step.value <;> rfl
  · rfl

@[simp] lemma leafGroups_removeChild (n : Node) (step : Condition) :
    (n.removeChild step).leafGroups = n.leafGroups := by
  obtain ⟨leaves, eqs, conds⟩ := n
  simp only [removeChild]
  split_ifs
  · cases step.value with
    | none => rfl
    | some v => dsimp only; split_ifs <;> rfl
  · rfl

lemma mem_leafGroups_putLeaf (n : Node) (g h : ℕ) :
    h ∈ (n.putLeaf g).leafGroups ↔ g = h ∨ h ∈ n.leafGroups := by
  obtain ⟨leaves, eqs, conds⟩ := n
  simp only [putLeaf, leafGroups]
  split_ifs with hg
  · exact ⟨.inr, fun hh => hh.elim (fun he => he ▸ hg) id⟩
  · rw [mem_append, mem_singleton, or_comm, eq_comm]

lemma mem_leafGroups_removeLeaf (n : Node) (g h : ℕ) :
    h ∈ (n.removeLeaf g).leafGroups ↔ h ∈ n.leafGroups ∧ g ≠ h := by
  obtain ⟨leaves, eqs, conds⟩ := n
  simp only [removeLeaf, leafGroups, mem_filter, decide_eq_true_eq]
  exact and_congr_right fun _ => ne_comm

@[simp] lemma child_putLeaf (n : Node) (g : ℕ) (t : Condition) :
    (n.putLeaf g).child t = n.child t := by cases n; rfl

@[simp] lemma child_removeLeaf (n : Node) (g : ℕ) (t : Condition) :
    (n.removeLeaf g).child t = n.child t := by cases n; rfl

lemma child_congr {s t : Condition} (h : sameStep s t) (n : Node) : n.child s = n.child t := by
  obtain ⟨leaves, eqs, conds⟩ := n
  simp only [sameStep] at h
  simp only [child]
  by_cases hs : s.op = .eq
  · simp only [hs, if_true, Bool.and_eq_true, decide_eq_true_eq] at h
    obtain ⟨⟨ht, hf⟩, hv⟩ := h
    obtain ⟨hx, hy⟩ | ⟨x, y, hx, hy, hxy⟩ := sameOption_cases hv
    · simp [hs, ht, hx, hy]
    · simp only [hs, ht, hx, hy, hf, if_true]
      exact congrArg _ (funext fun m => find_congr Value.eql hxy m)
  · rw [if_neg hs] at h
    have ht : t.op ≠ .eq := fun ht => hs (((eqlCondition_iff s t).mp h).2.1.trans ht)
    rw [if_neg hs, if_neg ht, find_congr eqlCondition h]

end Edges

section Paths

lemma has_putLeaf (g h : ℕ) (path : List Condition) (n : Node) :
    has h path (n.putLeaf g) = (has h path n || (path.isEmpty && g = h)) := by
  cases path with
  | nil => simp [has, mem_leafGroups_putLeaf, Bool.or_comm, Bool.decide_or]
  | cons step path => simp [has]

lemma has_removeLeaf (g h : ℕ) (path : List Condition) (n : Node) :
    has h path (n.removeLeaf g) = (has h path n && !(path.isEmpty && g = h)) := by
  cases path with
  | nil => simp [has, mem_leafGroups_removeLeaf]
  | cons step path => simp [has]

lemma insertAlongPath_spec (g : ℕ) (hp : ∀ c ∈ path, c.HasOperand) (n : Node) :
    ∃ m, insertAlongPath g path n = .ok m ∧ ∀ h q, has h q m = (has h q n || (samePath path q && g = h)) := by
  induction path generalizing n with
  | nil =>
    refine ⟨_, rfl, fun h q => ?_⟩
    rw [has_putLeaf]
    cases q <;> rfl
  | cons step path ih =>
    obtain ⟨hs, hp⟩ := forall_mem_cons.mp hp
    obtain ⟨c, hc, hhas⟩ := ih hp ((n.child step).getD empty)
    have hval : ¬ (step.op = .eq ∧ step.value = none) := by
      rintro ⟨he, hv⟩
      have := hs (by rw [he]; rfl)
      rw [hv] at this
      cases this
    refine ⟨n.setChild step c, by rw [insertAlongPath, if_neg hval, hc]; rfl, fun h q => ?_⟩
    cases q with
    | nil => simp [has, samePath, sameList]
    | cons t q =>
      simp only [has, child_setChild hs, samePath, sameList]
      by_cases hst : sameStep step t
      · rw [if_pos hst, hst, any_some, hhas, Bool.true_and, child_congr hst]
        cases n.child t with
        | none => rw [getD_none, has_empty]; rfl
        | some d => rfl
      · simp [hst]

lemma isEmpty_has (h : n.isEmpty) (g : ℕ) (path : List Condition) : has g path n = false := by
  obtain ⟨leaves, eqs, conds⟩ := n
  simp only [isEmpty, Bool.and_eq_true, decide_eq_true_eq, length_eq_zero_iff] at h
  obtain ⟨⟨rfl, rfl⟩, rfl⟩ := h
  exact has_empty g path

lemma has_removeAlongPath (g : ℕ) (hp : ∀ c ∈ path, c.HasOperand) (n : Node) (h : ℕ) (q : List Condition) :
    has h q (removeAlongPath g path n) = (has h q n && !(samePath path q && g = h)) := by
  induction path generalizing n q with
  | nil =>
    rw [removeAlongPath, has_removeLeaf]
    cases q <;> rfl
  | cons step path ih =>
    obtain ⟨hs, hp⟩ := forall_mem_cons.mp hp
    rw [removeAlongPath]
    cases hc : n.child step with
    | none =>
      cases q with
      | nil => simp [samePath, sameList]
      | cons t q =>
        simp only [has, samePath, sameList]
        by_cases hst : sameStep step t
        · rw [← child_congr hst, hc]
          rfl
        · simp [hst]
    | some c =>
      have hih := ih hp c
      cases q with
      | nil =>
        dsimp only
        split_ifs <;> simp [has, samePath, sameList]
      | cons t q =>
        dsimp only
        by_cases hst : sameStep step t
        · split_ifs with he
          · have hnone := isEmpty_has he h q
            rw [hih] at hnone
            simp only [has, samePath, sameList, child_removeChild hs, hst, if_true,
              ← child_congr hst, hc, any_some, any_none, Bool.true_and]
            exact hnone.symm
          · simp only [has, samePath, sameList, child_setChild hs, hst, if_true,
              ← child_congr hst, hc, any_some, Bool.true_and]
            exact hih q
        · split_ifs <;>
            simp [has, samePath, sameList, child_removeChild hs, child_setChild hs, hst]

end Paths

/-- No two edges of a node lead along the same step, and no condition edge is an equality. -/
inductive WellFormed : Node → Prop
  | mk {leaves : List ℕ} {eqs : List (ℕ × List (Value × Node))} {conds : List (Condition × Node)}
      (leaves_nodup : leaves.Nodup) (fields : Distinct eqKey eqs)
      (values : ∀ f ∈ eqs, Distinct Value.eql f.2) (conditions : Distinct eqlCondition conds)
      (operands : ∀ e ∈ conds, e.1.op ≠ .eq ∧ e.1.HasOperand)
      (eqChildren : ∀ f ∈ eqs, ∀ e ∈ f.2, WellFormed e.2)
      (condChildren : ∀ e ∈ conds, WellFormed e.2) : WellFormed (mk leaves eqs conds)

section Preservation

lemma wellFormed_empty : empty.WellFormed :=
  ⟨nodup_nil, .nil, by simp, .nil, by simp, by simp, by simp⟩

lemma WellFormed.child {c : Node} {t : Condition} (hn : n.WellFormed)
    (h : n.child t = some c) : c.WellFormed := by
  obtain ⟨-, -, -, -, -, heqs, hconds⟩ := hn
  simp only [Node.child] at h
  split_ifs at h with ht
  · cases hv : t.value with
    | none => simp [hv] at h
    | some v =>
      rw [hv] at h
      obtain ⟨values, hf, hc⟩ := bind_eq_some_iff.mp h
      obtain ⟨f, -, hf⟩ := mem_of_find eqKey hf
      obtain ⟨w, -, hc⟩ := mem_of_find Value.eql hc
      exact heqs _ hf _ hc
  · obtain ⟨k, -, hk⟩ := mem_of_find eqlCondition h
    exact hconds _ hk

lemma WellFormed.putLeaf (hn : n.WellFormed) (g : ℕ) : (n.putLeaf g).WellFormed := by
  obtain ⟨hl, hf, hv, hc, ho, heqs, hconds⟩ := hn
  refine ⟨?_, hf, hv, hc, ho, heqs, hconds⟩
  split_ifs with hg
  · exact hl
  · exact nodup_append.mpr ⟨hl, nodup_singleton g, fun a ha b hb he =>
      hg (mem_singleton.mp hb ▸ he ▸ ha)⟩

lemma WellFormed.removeLeaf (hn : n.WellFormed) (g : ℕ) : (n.removeLeaf g).WellFormed := by
  obtain ⟨hl, hf, hv, hc, ho, heqs, hconds⟩ := hn
  exact ⟨hl.filter _, hf, hv, hc, ho, heqs, hconds⟩

lemma WellFormed.fieldValues {leaves : List ℕ} {eqs : List (ℕ × List (Value × Node))}
    {conds : List (Condition × Node)} (hn : (Node.mk leaves eqs conds).WellFormed) (field : ℕ) :
    Distinct Value.eql ((find eqKey field eqs).getD []) ∧
      ∀ e ∈ (find eqKey field eqs).getD [], e.2.WellFormed := by
  obtain ⟨-, -, hv, -, -, heqs, -⟩ := hn
  cases hf : find eqKey field eqs with
  | none => exact ⟨.nil, by simp⟩
  | some values =>
    obtain ⟨f, -, hm⟩ := mem_of_find eqKey hf
    exact ⟨hv _ hm, heqs _ hm⟩

lemma WellFormed.setChild {c : Node} (hn : n.WellFormed) (hc : c.WellFormed)
    {step : Condition} (hs : step.HasOperand) : (n.setChild step c).WellFormed := by
  obtain ⟨leaves, eqs, conds⟩ := n
  simp only [Node.setChild]
  split_ifs with h
  · cases hv : step.value with
    | none => exact hn
    | some v =>
      obtain ⟨hdist, hchildren⟩ := hn.fieldValues step.fieldIndex
      obtain ⟨hl, hf, hvs, hcs, ho, heqs, hconds⟩ := hn
      refine ⟨hl, distinct_put eqKey hf, fun f hm => ?_, hcs, ho, fun f hm e he => ?_, hconds⟩
      · obtain ⟨hnew, -⟩ | hold := fst_of_mem_put eqKey hm
        · exact hnew ▸ distinct_put Value.eql hdist
        · exact hvs f hold
      · obtain ⟨hnew, -⟩ | hold := fst_of_mem_put eqKey hm
        · rw [hnew] at he
          obtain ⟨hval, -⟩ | hrest := fst_of_mem_put Value.eql he
          · exact hval ▸ hc
          · exact hchildren e hrest
        · exact heqs f hold e he
  · obtain ⟨hl, hf, hvs, hcs, ho, heqs, hconds⟩ := hn
    refine ⟨hl, hf, hvs, distinct_put eqlCondition hcs, fun e he => ?_, heqs, fun e he => ?_⟩
    · obtain ⟨-, hk⟩ | hold := fst_of_mem_put eqlCondition he
      · have hk := KeyTest.symm _ _ hk
        exact ⟨fun hop => h (((eqlCondition_iff _ _).mp hk).2.1.trans hop), Condition.hasOperand_congr hk hs⟩
      · exact ho e hold
    · obtain ⟨hnew, -⟩ | hold := fst_of_mem_put eqlCondition he
      · exact hnew ▸ hc
      · exact hconds e hold

lemma WellFormed.removeChild (hn : n.WellFormed) (step : Condition) : (n.removeChild step).WellFormed := by
  obtain ⟨leaves, eqs, conds⟩ := n
  simp only [Node.removeChild]
  split_ifs with h
  · cases hv : step.value with
    | none => exact hn
    | some v =>
      obtain ⟨hdist, hchildren⟩ := hn.fieldValues step.fieldIndex
      obtain ⟨hl, hf, hvs, hcs, ho, heqs, hconds⟩ := hn
      dsimp only
      split_ifs
      · exact ⟨hl, distinct_remove eqKey hf, fun f hm => hvs f (mem_of_mem_filter hm), hcs, ho,
          fun f hm => heqs f (mem_of_mem_filter hm), hconds⟩
      · refine ⟨hl, distinct_put eqKey hf, fun f hm => ?_, hcs, ho, fun f hm e he => ?_, hconds⟩
        · obtain ⟨hnew, -⟩ | hold := fst_of_mem_put eqKey hm
          · exact hnew ▸ distinct_remove Value.eql hdist
          · exact hvs f hold
        · obtain ⟨hnew, -⟩ | hold := fst_of_mem_put eqKey hm
          · exact hchildren e (mem_of_mem_filter (hnew ▸ he))
          · exact heqs f hold e he
  · obtain ⟨hl, hf, hvs, hcs, ho, heqs, hconds⟩ := hn
    exact ⟨hl, hf, hvs, distinct_remove eqlCondition hcs, fun e he => ho e (mem_of_mem_filter he), heqs,
      fun e he => hconds e (mem_of_mem_filter he)⟩

lemma WellFormed.insertAlongPath {g : ℕ} (hp : ∀ c ∈ path, c.HasOperand) {m : Node} (hn : n.WellFormed)
    (h : insertAlongPath g path n = .ok m) : m.WellFormed := by
  induction path generalizing n m with
  | nil =>
    cases h
    exact hn.putLeaf g
  | cons step path ih =>
    obtain ⟨hs, hp⟩ := forall_mem_cons.mp hp
    rw [Node.insertAlongPath] at h
    split_ifs at h
    obtain ⟨c, hc, h⟩ := Outcome.bind_eq_ok.mp h
    cases h
    refine hn.setChild (ih hp ?_ hc) hs
    cases hch : n.child step with
    | none => exact wellFormed_empty
    | some d => exact hn.child hch

lemma WellFormed.removeAlongPath (hp : ∀ c ∈ path, c.HasOperand)
    (hn : n.WellFormed) (g : ℕ) : (removeAlongPath g path n).WellFormed := by
  induction path generalizing n with
  | nil => exact hn.removeLeaf g
  | cons step path ih =>
    obtain ⟨hs, hp⟩ := forall_mem_cons.mp hp
    rw [Node.removeAlongPath]
    cases hc : n.child step with
    | none => exact hn
    | some c =>
      dsimp only
      split_ifs
      · exact hn.removeChild step
      · exact hn.setChild (ih hp (hn.child hc)) hs

end Preservation

end Node
end ZyncBase
