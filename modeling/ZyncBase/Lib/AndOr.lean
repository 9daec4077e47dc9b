import ZyncBase.Lib.Kleene

/-! Trees of conjunctions and disjunctions over atomic comparisons: truth under an assignment,
and partial evaluation where some atoms are not yet known. -/
namespace AndOr

inductive Formula (α : Type*) where
  | boolean (b : Bool)
  | logicalAnd (fs : List (Formula α))
  | logicalOr (fs : List (Formula α))
  | comparison (a : α)

namespace Formula

variable {α : Type*}

mutual

theorem inductChildren {p : Formula α → Prop} (hb : ∀ b, p (boolean b))
    (ha : ∀ fs, (∀ f ∈ fs, p f) → p (logicalAnd fs))
    (ho : ∀ fs, (∀ f ∈ fs, p f) → p (logicalOr fs)) (hc : ∀ a, p (comparison a)) : ∀ f : Formula α, p f
  | boolean b => hb b
  | logicalAnd fs => ha fs (inductList hb ha ho hc fs)
  | logicalOr fs => ho fs (inductList hb ha ho hc fs)
  | comparison a => hc a

theorem inductList {p : Formula α → Prop} (hb : ∀ b, p (boolean b))
    (ha : ∀ fs, (∀ f ∈ fs, p f) → p (logicalAnd fs))
    (ho : ∀ fs, (∀ f ∈ fs, p f) → p (logicalOr fs)) (hc : ∀ a, p (comparison a)) :
    ∀ fs : List (Formula α), ∀ f ∈ fs, p f
  | [], _, h => absurd h List.not_mem_nil
  | g :: gs, f, h => (List.mem_cons.mp h).elim
      (fun he => he ▸ inductChildren hb ha ho hc g) (inductList hb ha ho hc gs f)

end

mutual

/-- Truth of a tree under an assignment of its atoms. -/
def eval (leaf : α → Bool) : Formula α → Bool
  | boolean b => b
  | logicalAnd fs => evalAll leaf fs
  | logicalOr fs => evalAny leaf fs
  | comparison a => leaf a

def evalAll (leaf : α → Bool) : List (Formula α) → Bool
  | [] => true
  | f :: fs => eval leaf f && evalAll leaf fs

def evalAny (leaf : α → Bool) : List (Formula α) → Bool
  | [] => false
  | f :: fs => eval leaf f || evalAny leaf fs

end

lemma evalAll_eq (leaf : α → Bool) (fs : List (Formula α)) : evalAll leaf fs = fs.all (eval leaf) := by
  induction fs with
  | nil => rw [evalAll]; rfl
  | cons f fs ih => rw [evalAll, ih, List.all_cons]

lemma evalAny_eq (leaf : α → Bool) (fs : List (Formula α)) : evalAny leaf fs = fs.any (eval leaf) := by
  induction fs with
  | nil => rw [evalAny]; rfl
  | cons f fs ih => rw [evalAny, ih, List.any_cons]

@[simp] lemma eval_boolean (leaf : α → Bool) (b : Bool) : eval leaf (boolean b) = b := by
  rw [eval]

@[simp] lemma eval_comparison (leaf : α → Bool) (a : α) : eval leaf (comparison a) = leaf a := by rw [eval]

@[simp] lemma eval_logicalAnd (leaf : α → Bool) (fs : List (Formula α)) :
    eval leaf (logicalAnd fs) ↔ ∀ f ∈ fs, eval leaf f := by
  rw [eval, evalAll_eq, List.all_eq_true]

@[simp] lemma eval_logicalOr (leaf : α → Bool) (fs : List (Formula α)) :
    eval leaf (logicalOr fs) ↔ ∃ f ∈ fs, eval leaf f := by
  rw [eval, evalAny_eq, List.any_eq_true]

mutual

/-- Every atom of a tree satisfies a predicate. -/
def Forall (p : α → Prop) : Formula α → Prop
  | boolean _ => True
  | logicalAnd fs => ForallList p fs
  | logicalOr fs => ForallList p fs
  | comparison a => p a

def ForallList (p : α → Prop) : List (Formula α) → Prop
  | [] => True
  | f :: fs => Forall p f ∧ ForallList p fs

end

lemma forallList_iff (p : α → Prop) (fs : List (Formula α)) : ForallList p fs ↔ ∀ f ∈ fs, Forall p f := by
  induction fs with
  | nil => simp [ForallList]
  | cons f fs ih => rw [ForallList, ih, List.forall_mem_cons]

@[simp] lemma forall_boolean (p : α → Prop) (b : Bool) : Forall p (boolean b) := by
  rw [Forall]; trivial

@[simp] lemma forall_comparison (p : α → Prop) (a : α) : Forall p (comparison a) ↔ p a := by
  rw [Forall]

@[simp] lemma forall_logicalAnd (p : α → Prop) (fs : List (Formula α)) :
    Forall p (logicalAnd fs) ↔ ∀ f ∈ fs, Forall p f := by
  rw [Forall, forallList_iff]

@[simp] lemma forall_logicalOr (p : α → Prop) (fs : List (Formula α)) :
    Forall p (logicalOr fs) ↔ ∀ f ∈ fs, Forall p f := by
  rw [Forall, forallList_iff]

lemma eval_mono {leaf leaf' : α → Bool} (h : ∀ a, leaf a → leaf' a) (f : Formula α) :
    eval leaf f → eval leaf' f := by
  induction f using inductChildren with
  | hb b => simp
  | hc a => simpa using h a
  | ha fs ih =>
    intro hf
    rw [eval_logicalAnd] at hf ⊢
    exact fun f hm => ih f hm (hf f hm)
  | ho fs ih =>
    intro hf
    rw [eval_logicalOr] at hf ⊢
    obtain ⟨f, hm, hf⟩ := hf
    exact ⟨f, hm, ih f hm hf⟩

mutual

/-- What is known of a tree when only some of its atoms are. -/
def known (leaf : α → Kleene.Truth) : Formula α → Kleene.Truth
  | boolean b => some b
  | logicalAnd fs => knownAll leaf fs
  | logicalOr fs => knownAny leaf fs
  | comparison a => leaf a

def knownAll (leaf : α → Kleene.Truth) : List (Formula α) → Kleene.Truth
  | [] => some true
  | f :: fs => Kleene.and3 (known leaf f) (knownAll leaf fs)

def knownAny (leaf : α → Kleene.Truth) : List (Formula α) → Kleene.Truth
  | [] => some false
  | f :: fs => Kleene.or3 (known leaf f) (knownAny leaf fs)

end

lemma knownAll_eq (leaf : α → Kleene.Truth) (fs : List (Formula α)) :
    knownAll leaf fs = Kleene.all3 (fs.map (known leaf)) := by
  induction fs with
  | nil => rw [knownAll]; rfl
  | cons f fs ih => rw [knownAll, ih]; rfl

lemma knownAny_eq (leaf : α → Kleene.Truth) (fs : List (Formula α)) :
    knownAny leaf fs = Kleene.any3 (fs.map (known leaf)) := by
  induction fs with
  | nil => rw [knownAny]; rfl
  | cons f fs ih => rw [knownAny, ih]; rfl

lemma eval_of_known {leaf : α → Kleene.Truth} {decided : α → Bool}
    (h : ∀ a b, leaf a = some b → decided a = b) (f : Formula α) :
    ∀ b, known leaf f = some b → eval decided f = b := by
  induction f using inductChildren with
  | hb c =>
    intro b hb
    rw [known, Option.some.injEq] at hb
    rw [eval_boolean, hb]
  | hc a =>
    intro b hb
    rw [known] at hb
    rw [eval_comparison, h a b hb]
  | ha fs ih =>
    intro b hb
    rw [known, knownAll_eq] at hb
    cases b with
    | true =>
      rw [Kleene.all3_eq_true, List.forall_mem_map] at hb
      rw [eval_logicalAnd]
      exact fun f hf => ih f hf true (hb f hf)
    | false =>
      obtain ⟨t, ht, hfalse⟩ := (Kleene.all3_eq_false _).mp hb
      obtain ⟨f, hf, rfl⟩ := List.mem_map.mp ht
      rw [Bool.eq_false_iff, ne_eq, eval_logicalAnd]
      exact fun hall => Bool.eq_false_iff.mp (ih f hf false hfalse) (hall f hf)
  | ho fs ih =>
    intro b hb
    rw [known, knownAny_eq] at hb
    cases b with
    | true =>
      obtain ⟨t, ht, htrue⟩ := (Kleene.any3_eq_true _).mp hb
      obtain ⟨f, hf, rfl⟩ := List.mem_map.mp ht
      rw [eval_logicalOr]
      exact ⟨f, hf, ih f hf true htrue⟩
    | false =>
      rw [Kleene.any3_eq_false, List.forall_mem_map] at hb
      rw [Bool.eq_false_iff, ne_eq, eval_logicalOr]
      rintro ⟨f, hf, htrue⟩
      exact Bool.eq_false_iff.mp (ih f hf false (hb f hf)) htrue

lemma known_some (leaf : α → Bool) (f : Formula α) : known (fun a => some (leaf a)) f = some (eval leaf f) := by
  induction f using inductChildren with
  | hb b => rw [known, eval_boolean]
  | hc a => rw [known, eval_comparison]
  | ha fs ih =>
    rw [known, eval]
    induction fs with
    | nil => rw [knownAll, evalAll]
    | cons f fs ihs =>
      rw [List.forall_mem_cons] at ih
      rw [knownAll, evalAll, ih.1, ihs ih.2]
      cases eval leaf f <;> cases evalAll leaf fs <;> rfl
  | ho fs ih =>
    rw [known, eval]
    induction fs with
    | nil => rw [knownAny, evalAny]
    | cons f fs ihs =>
      rw [List.forall_mem_cons] at ih
      rw [knownAny, evalAny, ih.1, ihs ih.2]
      cases eval leaf f <;> cases evalAny leaf fs <;> rfl

end Formula
end AndOr
