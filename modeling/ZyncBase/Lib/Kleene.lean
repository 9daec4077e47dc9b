import Mathlib.Data.List.Basic

/-! Three-valued logic as SQL uses it: `none` is unknown, and only `some true` selects. -/
namespace Kleene

abbrev Truth := Option Bool

def not3 : Truth → Truth := Option.map (!·)

def and3 : Truth → Truth → Truth
  | some false, _ => some false
  | _, some false => some false
  | some true, b => b
  | a, some true => a
  | none, none => none

def or3 : Truth → Truth → Truth
  | some true, _ => some true
  | _, some true => some true
  | some false, b => b
  | a, some false => a
  | none, none => none

def all3 : List Truth → Truth := List.foldr and3 (some true)
def any3 : List Truth → Truth := List.foldr or3 (some false)

@[simp] lemma and3_eq_true (a b : Truth) : and3 a b = some true ↔ a = some true ∧ b = some true := by
  rcases a with _ | _ | _ <;> rcases b with _ | _ | _ <;> decide

@[simp] lemma or3_eq_true (a b : Truth) : or3 a b = some true ↔ a = some true ∨ b = some true := by
  rcases a with _ | _ | _ <;> rcases b with _ | _ | _ <;> decide

@[simp] lemma or3_eq_false (a b : Truth) : or3 a b = some false ↔ a = some false ∧ b = some false := by
  rcases a with _ | _ | _ <;> rcases b with _ | _ | _ <;> decide

@[simp] lemma and3_eq_false (a b : Truth) : and3 a b = some false ↔ a = some false ∨ b = some false := by
  rcases a with _ | _ | _ <;> rcases b with _ | _ | _ <;> decide

@[simp] lemma not3_eq_true (a : Truth) : not3 a = some true ↔ a = some false := by
  rcases a with _ | _ | _ <;> decide

lemma all3_eq_true (ts : List Truth) : all3 ts = some true ↔ ∀ t ∈ ts, t = some true := by
  induction ts with
  | nil => simp [all3]
  | cons t ts ih =>
    rw [List.forall_mem_cons, ← ih]
    exact and3_eq_true t _

lemma all3_eq_false (ts : List Truth) : all3 ts = some false ↔ ∃ t ∈ ts, t = some false := by
  induction ts with
  | nil => simp [all3]
  | cons t ts ih =>
    rw [List.exists_mem_cons_iff, ← ih]
    exact and3_eq_false t _

lemma any3_eq_true (ts : List Truth) : any3 ts = some true ↔ ∃ t ∈ ts, t = some true := by
  induction ts with
  | nil => simp [any3]
  | cons t ts ih =>
    rw [List.exists_mem_cons_iff, ← ih]
    exact or3_eq_true t _

lemma any3_eq_false (ts : List Truth) : any3 ts = some false ↔ ∀ t ∈ ts, t = some false := by
  induction ts with
  | nil => simp [any3]
  | cons t ts ih =>
    rw [List.forall_mem_cons, ← ih]
    exact or3_eq_false t _

end Kleene
