import ZyncBase.Subscription.Coherence

/-! A trie keeps no edge to an empty node, so one that holds no group is empty. -/
namespace ZyncBase

open AssocMap

namespace Node

def FieldsStocked : Node → Prop
  | mk _ eqs _ => ∀ f ∈ eqs, f.2 ≠ []

/-- Every edge leads to a node with something in it. -/
inductive Pruned : Node → Prop
  | mk {n : Node} (fields : n.FieldsStocked) (nonempty : ∀ step c, n.child step = some c → c ≠ empty)
      (children : ∀ step c, n.child step = some c → Pruned c) : Pruned n

lemma child_empty (step : Condition) : empty.child step = none := by
  rw [empty, child]
  split_ifs
  · cases step.value <;> rfl
  · rfl

lemma pruned_empty : empty.Pruned := by
  refine ⟨by simp [empty, FieldsStocked], fun step c hc => ?_, fun step c hc => ?_⟩
  · rw [child_empty] at hc
    cases hc
  · rw [child_empty] at hc
    cases hc

lemma put_ne_nil {κ ν : Type*} {same : κ → κ → Bool} (k : κ) (v : ν) (m : List (κ × ν)) :
    put same k v m ≠ [] := by
  cases m with
  | nil => simp [put]
  | cons e es =>
    rw [put]
    split_ifs <;> simp

section Preservation

variable {n c : Node}

lemma Pruned.putLeaf (h : n.Pruned) (g : ℕ) : (n.putLeaf g).Pruned := by
  obtain ⟨hf, hn, hc⟩ := h
  refine ⟨?_, fun step c => ?_, fun step c => ?_⟩
  · obtain ⟨leaves, eqs, conds⟩ := n
    exact hf
  · rw [child_putLeaf]
    exact hn step c
  · rw [child_putLeaf]
    exact hc step c

lemma Pruned.removeLeaf (h : n.Pruned) (g : ℕ) : (n.removeLeaf g).Pruned := by
  obtain ⟨hf, hn, hc⟩ := h
  refine ⟨?_, fun step c => ?_, fun step c => ?_⟩
  · obtain ⟨leaves, eqs, conds⟩ := n
    exact hf
  · rw [child_removeLeaf]
    exact hn step c
  · rw [child_removeLeaf]
    exact hc step c

lemma FieldsStocked.setChild (h : n.FieldsStocked) (step : Condition) (c : Node) :
    (n.setChild step c).FieldsStocked := by
  obtain ⟨leaves, eqs, conds⟩ := n
  rw [Node.setChild]
  split_ifs
  · cases step.value with
    | none => exact h
    | some v =>
      intro f hf
      obtain ⟨hnew, -⟩ | hold := fst_of_mem_put eqKey hf
      · rw [hnew]
        exact put_ne_nil _ _ _
      · exact h f hold
  · exact h

lemma FieldsStocked.removeChild (h : n.FieldsStocked) (step : Condition) :
    (n.removeChild step).FieldsStocked := by
  obtain ⟨leaves, eqs, conds⟩ := n
  rw [Node.removeChild]
  split_ifs
  · cases step.value with
    | none => exact h
    | some v =>
      dsimp only
      split_ifs with hl
      · exact fun f hf => h f (List.mem_of_mem_filter hf)
      · intro f hf
        obtain ⟨hnew, -⟩ | hold := fst_of_mem_put eqKey hf
        · rw [hnew]
          exact fun hnil => hl (List.length_eq_zero_iff.mpr hnil)
        · exact h f hold
  · exact h

lemma Pruned.setChild (h : n.Pruned) {step : Condition} (hs : step.HasOperand)
    (hc : c.Pruned) (hne : c ≠ empty) : (n.setChild step c).Pruned := by
  obtain ⟨hf, hn, hch⟩ := h
  refine ⟨hf.setChild step c, fun t d hd => ?_, fun t d hd => ?_⟩
  all_goals
    rw [child_setChild hs] at hd
    split_ifs at hd
  · cases hd
    exact hne
  · exact hn t d hd
  · cases hd
    exact hc
  · exact hch t d hd

lemma Pruned.removeChild (h : n.Pruned) {step : Condition} (hs : step.HasOperand) :
    (n.removeChild step).Pruned := by
  obtain ⟨hf, hn, hch⟩ := h
  refine ⟨hf.removeChild step, fun t d hd => ?_, fun t d hd => ?_⟩
  all_goals
    rw [child_removeChild hs] at hd
    split_ifs at hd
  · exact hn t d hd
  · exact hch t d hd

lemma Pruned.insertAlongPath {g : ℕ} {path : List Condition} (hp : ∀ c ∈ path, c.HasOperand)
    {m : Node} (h : n.Pruned) (hm : insertAlongPath g path n = .ok m) : m.Pruned := by
  induction path generalizing n m with
  | nil =>
    cases hm
    exact h.putLeaf g
  | cons step path ih =>
    obtain ⟨hs, hp⟩ := List.forall_mem_cons.mp hp
    rw [Node.insertAlongPath] at hm
    split_ifs at hm
    obtain ⟨c, hc, hm⟩ := Outcome.bind_eq_ok.mp hm
    cases hm
    refine h.setChild hs (ih hp ?_ hc) ?_
    · cases hch : n.child step with
      | none => exact pruned_empty
      | some d =>
        obtain ⟨-, -, hchildren⟩ := h
        exact hchildren step d hch
    · rintro rfl
      obtain ⟨m, hm, hhas⟩ := insertAlongPath_spec g hp ((n.child step).getD empty)
      rw [hc] at hm
      cases hm
      have hself := hhas g path
      rw [has_empty, samePath, KeyTest.self (sameList sameStep)] at hself
      simp at hself

lemma Pruned.removeAlongPath {path : List Condition} (hp : ∀ c ∈ path, c.HasOperand)
    (h : n.Pruned) (g : ℕ) : (removeAlongPath g path n).Pruned := by
  induction path generalizing n with
  | nil => exact h.removeLeaf g
  | cons step path ih =>
    obtain ⟨hs, hp⟩ := List.forall_mem_cons.mp hp
    rw [Node.removeAlongPath]
    cases hc : n.child step with
    | none => exact h
    | some c =>
      dsimp only
      split_ifs with he
      · exact h.removeChild hs
      · have hchild : c.Pruned := by
          obtain ⟨-, -, hchildren⟩ := h
          exact hchildren step c hc
        refine h.setChild hs (ih hp hchild) fun hempty => he ?_
        rw [hempty]
        rfl

lemma Pruned.insertGroup {g : ℕ} {p : FilterPredicate} (hp : p.HasOperands) {m : Node}
    (h : n.Pruned) (hm : n.insertGroup g p = .ok m) : m.Pruned := by
  rw [Node.insertGroup] at hm
  cases hs : p.state with
  | matchNone =>
    rw [hs] at hm
    cases hm
    exact h
  | matchAll =>
    rw [hs] at hm
    cases hm
    exact h.putLeaf g
  | conditional =>
    rw [hs] at hm
    exact h.insertAlongPath (buildPath_operands hp) hm

lemma Pruned.removeGroup {p : FilterPredicate} (hp : p.HasOperands) (h : n.Pruned) (g : ℕ) :
    (n.removeGroup g p).Pruned := by
  rw [Node.removeGroup]
  cases p.state with
  | matchNone => exact h
  | matchAll => exact h.removeLeaf g
  | conditional =>
    cases p.conditions with
    | none => exact h
    | some _ => exact h.removeAlongPath (buildPath_operands hp) g

end Preservation

lemma Pruned.eq_empty {n : Node} (h : n.Pruned) (hw : n.WellFormed)
    (hnone : ∀ g path, ¬ has g path n) : n = empty := by
  induction h with
  | @mk n hf hn hc ih =>
    have hchild (step : Condition) : n.child step = none := by
      cases hch : n.child step with
      | none => rfl
      | some c =>
        refine absurd (ih step c hch (hw.child hch) fun g path hg => ?_) (hn step c hch)
        refine hnone g (step :: path) ?_
        rw [has, hch]
        exact hg
    obtain ⟨leaves, eqs, conds⟩ := n
    have hleaves : leaves = [] := by
      refine List.eq_nil_iff_forall_not_mem.mpr fun g hg => hnone g [] ?_
      exact decide_eq_true hg
    have heqs : eqs = [] := by
      cases eqs with
      | nil => rfl
      | cons f eqs =>
        obtain ⟨field, values⟩ := f
        cases values with
        | nil => exact absurd rfl (hf _ List.mem_cons_self)
        | cons e values =>
          have hstep := hchild (eqStep field e.1)
          simp [child_eqStep, find] at hstep
    have hconds : conds = [] := by
      cases conds with
      | nil => rfl
      | cons e conds =>
        obtain ⟨-, -, -, -, ho, -, -⟩ := hw
        have hstep := hchild e.1
        rw [child, if_neg (ho e List.mem_cons_self).1, find, KeyTest.self eqlCondition] at hstep
        simp at hstep
    rw [hleaves, heqs, hconds, empty]

end Node

/-- A predicate of OR clauses alone. -/
def FilterPredicate.OrOnly (p : FilterPredicate) : Prop :=
  p.state = .conditional ∧ p.conditions = none

/-- Removal takes exactly the group off its path, unless the predicate has OR clauses alone: then it
takes nothing. -/
lemma has_removeGroup {n : Node} {p : FilterPredicate} (hp : p.HasOperands) (g h : ℕ)
    (q : List Condition) : Node.has h q (n.removeGroup g p) ↔ Node.has h q n ∧
      ¬ (p.state ≠ .matchNone ∧ ¬ p.OrOnly ∧ samePath (triePath p) q ∧ g = h) := by
  simp only [Node.removeGroup, triePath, FilterPredicate.OrOnly]
  cases p.state with
  | matchNone => simp
  | matchAll =>
    rw [Node.has_removeLeaf]
    cases q <;> simp [samePath, sameList]
  | conditional =>
    cases hc : p.conditions with
    | none => simp
    | some _ =>
      dsimp only
      rw [Node.has_removeAlongPath g (buildPath_operands hp)]
      cases samePath (buildPath p) q <;> simp

end ZyncBase
