import Mathlib.Data.List.Basic
import Mathlib.Data.List.Forall2

/-! Texts with values written in them, and what is left of such a text when a placeholder stands for
every value and the values are listed apart. -/
namespace Placeholders

variable {α V : Type*}

abbrev Written (α V : Type*) := List (α ⊕ V)

def chars (cs : List α) : Written α V := cs.map .inl

def slot (v : V) : Written α V := [.inr v]

/-- The text with the placeholder for every value. -/
def blank (mark : α) (w : Written α V) : List α := w.map (Sum.elim id fun _ => mark)

/-- The values in the order of their places. -/
def values (w : Written α V) : List V := w.filterMap Sum.getRight?

@[simp] lemma blank_inl (mark c : α) (w : Written α V) : blank mark (.inl c :: w) = c :: blank mark w := rfl

@[simp] lemma blank_inr (mark : α) (v : V) (w : Written α V) :
    blank mark (.inr v :: w) = mark :: blank mark w := rfl

@[simp] lemma values_inl (c : α) (w : Written α V) : values (.inl c :: w) = values w := rfl

@[simp] lemma values_inr (v : V) (w : Written α V) : values (.inr v :: w) = v :: values w := rfl

@[simp] lemma blank_append (mark : α) (w w' : Written α V) :
    blank mark (w ++ w') = blank mark w ++ blank mark w' := List.map_append

@[simp] lemma values_append (w w' : Written α V) : values (w ++ w') = values w ++ values w' :=
  List.filterMap_append

@[simp] lemma blank_chars (mark : α) (cs : List α) : blank mark (chars cs : Written α V) = cs := by
  simp [blank, chars]

@[simp] lemma values_chars (cs : List α) : values (chars cs : Written α V) = [] := by
  simp [values, chars, List.filterMap_eq_nil_iff]

/-- A text and its values that are left of a text without placeholders of its own. -/
structure Reads (mark : α) (text : List α) (bound : List V) (w : Written α V) : Prop where
  text : text = blank mark w
  bound : bound = values w
  unmarked : Sum.inl mark ∉ w

namespace Reads

variable {mark : α} {text text' : List α} {bound bound' : List V} {w w' : Written α V}

lemma nil : Reads mark [] ([] : List V) [] := ⟨rfl, rfl, List.not_mem_nil⟩

lemma append (h : Reads mark text bound w) (h' : Reads mark text' bound' w') :
    Reads mark (text ++ text') (bound ++ bound') (w ++ w') := by
  refine ⟨?_, ?_, fun hm => ?_⟩
  · rw [h.text, h'.text, blank_append]
  · rw [h.bound, h'.bound, values_append]
  · exact (List.mem_append.mp hm).elim h.unmarked h'.unmarked

lemma chars {cs : List α} (h : mark ∉ cs) : Reads mark cs ([] : List V) (chars cs) := by
  refine ⟨(blank_chars mark cs).symm, (values_chars cs).symm, fun hm => ?_⟩
  obtain ⟨c, hc, heq⟩ := List.mem_map.mp hm
  cases heq
  exact h hc

lemma slot (v : V) : Reads mark [mark] [v] (slot v) :=
  ⟨rfl, rfl, fun h => by cases List.mem_singleton.mp h⟩

variable [DecidableEq α]

lemma count (h : Reads mark text bound w) : text.count mark = bound.length := by
  obtain ⟨rfl, rfl, hw⟩ := h
  induction w with
  | nil => rfl
  | cons x w ih =>
    rw [List.mem_cons, not_or] at hw
    have hrest := ih hw.2
    cases x with
    | inl c =>
      have hc : c ≠ mark := fun h => hw.1 (h ▸ rfl)
      simpa [hc] using hrest
    | inr v => simpa using hrest

/-- Where the text has a placeholder a value is written, and the number of placeholders before it is
its position among the values. -/
lemma at_mark (h : Reads mark text bound w) {p : ℕ} (hp : text[p]? = some mark) :
    ∃ v, w[p]? = some (.inr v) ∧ bound[(text.take p).count mark]? = some v := by
  obtain ⟨rfl, rfl, hw⟩ := h
  induction w generalizing p with
  | nil => simp [blank] at hp
  | cons x w ih =>
    rw [List.mem_cons, not_or] at hw
    cases p with
    | zero =>
      cases x with
      | inl c => exact absurd (Option.some.inj hp) fun h => hw.1 (h ▸ rfl)
      | inr v => exact ⟨v, rfl, rfl⟩
    | succ p =>
      obtain ⟨v, hv, hbound⟩ := ih hw.2 hp
      refine ⟨v, hv, ?_⟩
      cases x with
      | inl c =>
        have hc : c ≠ mark := fun h => hw.1 (h ▸ rfl)
        simpa [hc] using hbound
      | inr u => simpa using hbound

end Reads

/-- The values with the numbers of their placeholders. -/
def numbered : ℕ → List V → List (ℕ × V)
  | _, [] => []
  | i, v :: vs => (i, v) :: numbered (i + 1) vs

@[simp] lemma length_numbered (i : ℕ) (vs : List V) : (numbered i vs).length = vs.length := by
  induction vs generalizing i with
  | nil => rfl
  | cons v vs ih => rw [numbered, List.length_cons, List.length_cons, ih]

lemma numbered_append (i : ℕ) (vs vs' : List V) :
    numbered i (vs ++ vs') = numbered i vs ++ numbered (i + vs.length) vs' := by
  induction vs generalizing i with
  | nil => rfl
  | cons v vs ih =>
    rw [List.cons_append, numbered, numbered, ih, List.cons_append, List.length_cons]
    congr 3
    omega

lemma getElem?_numbered (i : ℕ) {vs : List V} {k : ℕ} {v : V} (h : vs[k]? = some v) :
    (numbered i vs)[k]? = some (i + k, v) := by
  induction vs generalizing i k with
  | nil => simp at h
  | cons u vs ih =>
    cases k with
    | zero =>
      cases h
      rfl
    | succ k =>
      rw [numbered, List.getElem?_cons_succ, ih (i + 1) h]
      congr 2
      omega

end Placeholders
