import ZyncBase.Subscription.FilterKeys

/-! How far an insertion gets into the trie of a collection when any of its allocations may fail: the paths
to groups are as before, or have the new group as well. -/
namespace ZyncBase

open AssocMap

/-- Where a subscription allocates. A child of the trie needs its node, its key and room in the map. -/
inductive SubscribeSite where
  | cloneFilter
  | putMember
  | putGroup
  | putFilter
  | putList
  | appendList
  | putTrie
  | path
  | field (i : ℕ)
  | child (i : ℕ)
  | putLeaf
  | putActive
  | removePath
  deriving DecidableEq, Repr

/-- The allocations that fail in one call. -/
abbrev SubscribeFailures := SubscribeSite → Bool

namespace Node

section Insertion

variable (fails : SubscribeFailures)

def hasField (field : ℕ) : Node → Bool
  | mk _ eqs _ => (find eqKey field eqs).isSome

/-- A field gets its map before the value is known to fit in. -/
def openField (field : ℕ) : Node → Node
  | mk leaves eqs conds =>
    mk leaves (if (find eqKey field eqs).isSome then eqs else put eqKey field [] eqs) conds

/-- The node with the child of a step, or as far as it was made. -/
def getOrCreateChild (i : ℕ) (step : Condition) (n : Node) : Bool × Node :=
  if step.op = .eq then
    if step.value = none then (false, n)
    else if !n.hasField step.fieldIndex && fails (.field i) then (false, n)
    else
      let n := n.openField step.fieldIndex
      if (n.child step).isSome then (true, n)
      else if fails (.child i) then (false, n)
      else (true, n.setChild step empty)
  else if (n.child step).isSome then (true, n)
  else if fails (.child i) then (false, n)
  else (true, n.setChild step empty)

/-- The nodes that were made stay where the insertion fails further down. -/
def insertAlongPathOr (groupId i : ℕ) : List Condition → Node → Bool × Node
  | [], n => if fails .putLeaf then (false, n) else (true, n.putLeaf groupId)
  | step :: path, n =>
    let made := getOrCreateChild fails i step n
    if made.1 then
      let below := insertAlongPathOr groupId (i + 1) path ((made.2.child step).getD empty)
      (below.1, made.2.setChild step below.2)
    else made

def insertGroupOr (groupId : ℕ) (p : FilterPredicate) (n : Node) : Bool × Node :=
  match p.state with
  | .matchNone => (true, n)
  | .matchAll => if fails .putLeaf then (false, n) else (true, n.putLeaf groupId)
  | .conditional =>
    if buildPath p ≠ [] ∧ fails .path then (false, n)
    else insertAlongPathOr fails groupId 0 (buildPath p) n

def PathReady (i : ℕ) : List Condition → Node → Prop
  | [], _ => ¬ fails .putLeaf
  | step :: path, n =>
    (step.op = .eq → n.hasField step.fieldIndex ∨ ¬ fails (.field i)) ∧
      ((n.child step).isSome ∨ ¬ fails (.child i)) ∧ PathReady (i + 1) path ((n.child step).getD empty)

def InsertReady (p : FilterPredicate) (n : Node) : Prop :=
  match p.state with
  | .matchNone => True
  | .matchAll => ¬ fails .putLeaf
  | .conditional => (buildPath p ≠ [] → ¬ fails .path) ∧ PathReady fails 0 (buildPath p) n

end Insertion

section Spec

variable {step : Condition} {n : Node}

lemma child_openField (field : ℕ) (t : Condition) : (n.openField field).child t = n.child t := by
  obtain ⟨leaves, eqs, conds⟩ := n
  by_cases hfound : (find eqKey field eqs).isSome
  · rw [openField, if_pos hfound]
  rw [openField, if_neg hfound, child, child]
  split_ifs with ht
  · cases t.value with
    | none => rfl
    | some v =>
      dsimp only
      rw [find_put]
      split_ifs with hfield
      · rw [eqKey_iff] at hfield
        rw [← hfield, Option.not_isSome_iff_eq_none.mp hfound]
        rfl
      · rfl
  · rfl

lemma leafGroups_openField (field : ℕ) : (n.openField field).leafGroups = n.leafGroups := by
  obtain ⟨leaves, eqs, conds⟩ := n
  rfl

lemma has_openField (field g : ℕ) (q : List Condition) : has g q (n.openField field) = has g q n := by
  cases q with
  | nil => rw [has, has, leafGroups_openField]
  | cons t q => rw [has, has, child_openField]

lemma WellFormed.openField (hn : n.WellFormed) (field : ℕ) : (n.openField field).WellFormed := by
  obtain ⟨hl, hf, hv, hc, ho, heqs, hconds⟩ := hn
  rw [Node.openField]
  split_ifs with hfound
  · exact ⟨hl, hf, hv, hc, ho, heqs, hconds⟩
  · refine ⟨hl, distinct_put eqKey hf, fun f hm => ?_, hc, ho, fun f hm => ?_, hconds⟩
    · obtain ⟨hnew, -⟩ | hold := fst_of_mem_put eqKey hm
      · rw [hnew]
        exact .nil
      · exact hv f hold
    · obtain ⟨hnew, -⟩ | hold := fst_of_mem_put eqKey hm
      · rw [hnew]
        simp
      · exact heqs f hold

lemma has_setChild_empty (hs : step.HasOperand) (hnone : n.child step = none) (g : ℕ)
    (q : List Condition) : has g q (n.setChild step empty) = has g q n := by
  cases q with
  | nil => rw [has, has, leafGroups_setChild]
  | cons t q =>
    rw [has, has, child_setChild hs]
    split_ifs with hst
    · rw [← child_congr hst, hnone, Option.any_some, has_empty]
      rfl
    · rfl

lemma getOrCreateChild_spec (fails : SubscribeFailures) (i : ℕ) (hs : step.HasOperand) (hn : n.WellFormed) :
    (getOrCreateChild fails i step n).2.WellFormed ∧
      (∀ g q, has g q (getOrCreateChild fails i step n).2 = has g q n) ∧
      ((getOrCreateChild fails i step n).1 = true →
        ((getOrCreateChild fails i step n).2.child step).getD empty = (n.child step).getD empty) ∧
      ((getOrCreateChild fails i step n).1 = true ↔
        (step.op = .eq → n.hasField step.fieldIndex ∨ ¬ fails (.field i)) ∧
          ((n.child step).isSome ∨ ¬ fails (.child i))) := by
  have hreach (x : Node) (hx : x.WellFormed) (hchild : x.child step = n.child step)
      (hhas : ∀ g q, has g q x = has g q n) :
      let made := if (x.child step).isSome then (true, x)
        else if fails (.child i) then (false, x) else (true, x.setChild step empty)
      made.2.WellFormed ∧ (∀ g q, has g q made.2 = has g q n) ∧
        (made.1 = true → (made.2.child step).getD empty = (n.child step).getD empty) ∧
        (made.1 = true ↔ (n.child step).isSome ∨ ¬ fails (.child i)) := by
    dsimp only
    rw [hchild]
    split_ifs with hsome hfails
    · exact ⟨hx, hhas, fun _ => by rw [hchild], by simp [hsome]⟩
    · exact ⟨hx, hhas, fun h => h.elim, by simp [hsome, hfails]⟩
    · have hnone : x.child step = none := by
        rw [hchild]
        simpa using hsome
      refine ⟨hx.setChild wellFormed_empty hs, fun g q => ?_, fun _ => ?_, by simp [hfails]⟩
      · rw [has_setChild_empty hs hnone, hhas]
      · rw [child_setChild hs, if_pos (KeyTest.refl step), ← hchild, hnone]
        rfl
  rw [getOrCreateChild]
  by_cases heq : step.op = .eq
  · obtain ⟨v, hv⟩ := Option.isSome_iff_exists.mp (hs (by rw [heq]; rfl))
    rw [if_pos heq, hv, if_neg (by simp)]
    by_cases hfield : (!n.hasField step.fieldIndex && fails (.field i)) = true
    · rw [if_pos hfield]
      refine ⟨hn, fun _ _ => rfl, fun h => absurd h Bool.false_ne_true, ?_⟩
      rw [Bool.and_eq_true, Bool.not_eq_true'] at hfield
      simp [heq, hfield.1, hfield.2]
    · rw [if_neg hfield]
      obtain ⟨hwf, hhas, hgetD, hok⟩ := hreach (n.openField step.fieldIndex) (hn.openField _)
        (child_openField _ step) (has_openField _)
      refine ⟨hwf, hhas, hgetD, hok.trans ?_⟩
      rw [and_iff_right]
      intro _
      cases hf : n.hasField step.fieldIndex <;> simp_all
  · rw [if_neg heq]
    obtain ⟨hwf, hhas, hgetD, hok⟩ := hreach n hn rfl fun _ _ => rfl
    exact ⟨hwf, hhas, hgetD, hok.trans (and_iff_right fun h => absurd h heq).symm⟩

lemma insertAlongPathOr_spec (fails : SubscribeFailures) (i groupId : ℕ) {path : List Condition} (hp : ∀ c ∈ path, c.HasOperand)
    (hn : n.WellFormed) :
    (insertAlongPathOr fails groupId i path n).2.WellFormed ∧
      (∀ g q, has g q (insertAlongPathOr fails groupId i path n).2 =
        (has g q n || ((insertAlongPathOr fails groupId i path n).1 && samePath path q && groupId = g))) ∧
      ((insertAlongPathOr fails groupId i path n).1 = true ↔ PathReady fails i path n) := by
  induction path generalizing i n with
  | nil =>
    rw [insertAlongPathOr, PathReady]
    split_ifs with hfails
    · exact ⟨hn, fun g q => by simp, by simp [hfails]⟩
    · refine ⟨hn.putLeaf groupId, fun g q => ?_, by simp [hfails]⟩
      rw [has_putLeaf, Bool.true_and]
      cases q <;> rfl
  | cons step path ih =>
    obtain ⟨hs, hp⟩ := List.forall_mem_cons.mp hp
    obtain ⟨hwf, hhas, hgetD, hok⟩ := getOrCreateChild_spec fails i hs hn
    rw [insertAlongPathOr, PathReady]
    cases hmade : (getOrCreateChild fails i step n).1 with
    | false =>
      rw [hmade] at hok
      simp only [Bool.false_eq_true, if_false]
      refine ⟨hwf, fun g q => ?_, ?_⟩
      · rw [hhas, hmade, Bool.false_and, Bool.false_and, Bool.or_false]
      · rw [hmade, ← and_assoc, ← hok]
        simp
    | true =>
      rw [hmade] at hok
      simp only [if_true]
      rw [hgetD hmade]
      have hchild : ((n.child step).getD empty).WellFormed := by
        cases hc : n.child step with
        | none => exact wellFormed_empty
        | some c => exact hn.child hc
      obtain ⟨hwf', hhas', hok'⟩ := ih (i + 1) hp hchild
      refine ⟨hwf.setChild hwf' hs, fun g q => ?_, ?_⟩
      · cases q with
        | nil =>
          have h0 := hhas g []
          rw [has, has] at h0
          rw [has, has, leafGroups_setChild]
          simp only [samePath, sameList, Bool.and_false, Bool.false_and, Bool.or_false]
          exact h0
        | cons t q =>
          have h1 := hhas g (t :: q)
          rw [has, has] at h1
          rw [has, child_setChild hs, has]
          by_cases hst : sameStep step t
          · rw [if_pos hst, Option.any_some, hhas']
            simp only [samePath, sameList, hst, Bool.true_and, ← child_congr hst]
            congr 1
            cases n.child step with
            | none => rw [Option.getD_none, has_empty]; rfl
            | some d => rfl
          · rw [if_neg hst, h1]
            simp [samePath, sameList, hst]
      · rw [hok', ← and_assoc, and_iff_right (hok.mp rfl)]

end Spec

end Node

lemma insertGroupOr_spec (fails : SubscribeFailures) {n : Node} (hn : n.WellFormed) {p : FilterPredicate}
    (hp : p.HasOperands) (groupId : ℕ) :
    (n.insertGroupOr fails groupId p).2.WellFormed ∧
      (∀ g q, Node.has g q (n.insertGroupOr fails groupId p).2 =
        (Node.has g q n || ((n.insertGroupOr fails groupId p).1 &&
          (p.state ≠ .matchNone && samePath (triePath p) q && groupId = g)))) ∧
      ((n.insertGroupOr fails groupId p).1 = true ↔ n.InsertReady fails p) := by
  simp only [Node.insertGroupOr, Node.InsertReady, triePath]
  cases p.state with
  | matchNone => exact ⟨hn, fun g q => by simp, by simp⟩
  | matchAll =>
    dsimp only
    split_ifs with hfails
    · exact ⟨hn, fun g q => by simp, by simp [hfails]⟩
    · refine ⟨hn.putLeaf groupId, fun g q => ?_, by simp [hfails]⟩
      rw [Node.has_putLeaf]
      cases q <;> simp [samePath, sameList]
  | conditional =>
    dsimp only
    by_cases hpath : buildPath p ≠ [] ∧ fails .path
    · rw [if_pos hpath]
      exact ⟨hn, fun g q => by simp, by simpa using fun h => absurd hpath.2 (by simp [h hpath.1])⟩
    · rw [if_neg hpath]
      obtain ⟨hwf, hhas, hok⟩ :=
        Node.insertAlongPathOr_spec fails 0 groupId (buildPath_operands hp) hn
      refine ⟨hwf, fun g q => ?_, hok.trans (and_iff_right fun h hf => hpath ⟨h, hf⟩).symm⟩
      rw [hhas]
      simp [Bool.and_assoc]

end ZyncBase
