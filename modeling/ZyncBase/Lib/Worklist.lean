import Mathlib.Data.List.Nodup
import Mathlib.Data.List.Perm.Subperm
import Mathlib.Logic.Relation

/-! Breadth-first search with a worklist: the items seen so far and those still to be expanded.
When successors stay within a finite list, the search ends with exactly the items reachable from
its start. -/
namespace Worklist

open List

variable {α : Type*} [DecidableEq α]

/-- A search in progress. -/
structure Search (α : Type*) where
  seen : List α
  pending : List α

namespace Search

/-- An item enters the worklist the first time it is met. -/
def enqueue (s : Search α) (x : α) : Search α :=
  if x ∈ s.seen then s else ⟨s.seen ++ [x], s.pending ++ [x]⟩

def enqueueAll (s : Search α) (xs : List α) : Search α := xs.foldl enqueue s

/-- Expand at most `fuel` items, first in, first out. -/
def run (succ : α → List α) : ℕ → Search α → Search α
  | 0, s => s
  | fuel + 1, s =>
    match s.pending with
    | [] => s
    | x :: rest => run succ fuel (enqueueAll { s with pending := rest } (succ x))

def start (a : α) : Search α := ⟨[a], [a]⟩

@[simp] lemma enqueueAll_nil (s : Search α) : s.enqueueAll [] = s := rfl

lemma enqueueAll_cons (s : Search α) (x : α) (xs : List α) :
    s.enqueueAll (x :: xs) = (s.enqueue x).enqueueAll xs := rfl

lemma enqueueAll_append (s : Search α) (xs ys : List α) :
    s.enqueueAll (xs ++ ys) = (s.enqueueAll xs).enqueueAll ys := foldl_append

lemma mem_seen_enqueue (s : Search α) (x y : α) : y ∈ (s.enqueue x).seen ↔ y ∈ s.seen ∨ y = x := by
  unfold enqueue
  split_ifs with h
  · exact ⟨.inl, fun hy => hy.elim id (fun e => e ▸ h)⟩
  · simp

lemma mem_seen_enqueueAll (s : Search α) (xs : List α) (y : α) :
    y ∈ (s.enqueueAll xs).seen ↔ y ∈ s.seen ∨ y ∈ xs := by
  induction xs generalizing s with
  | nil => simp
  | cons x xs ih => rw [enqueueAll_cons, ih, mem_seen_enqueue, mem_cons, or_assoc]

lemma length_enqueueAll (s : Search α) (xs : List α) : (s.enqueueAll xs).pending.length + s.seen.length =
    s.pending.length + (s.enqueueAll xs).seen.length := by
  induction xs generalizing s with
  | nil => rfl
  | cons x xs ih =>
    have h := ih (s.enqueue x)
    rw [enqueueAll_cons]
    unfold enqueue at *
    split_ifs with hx
    · rwa [if_pos hx] at h
    · rw [if_neg hx] at h
      simp only [length_append, length_singleton] at h
      omega

section Invariant

variable {succ : α → List α} {univ : List α} {a : α} {busy : List α} {s : Search α}

/-- What holds while the items in `busy` are being expanded: all other seen items are pending or
have their successors seen. -/
structure Inv (succ : α → List α) (univ : List α) (a : α) (busy : List α) (s : Search α) :
    Prop where
  start_mem : a ∈ s.seen
  nodup : s.seen.Nodup
  within : ∀ x ∈ s.seen, x ∈ univ
  reached : ∀ x ∈ s.seen, Relation.ReflTransGen (fun x y => y ∈ succ x) a x
  pending_seen : ∀ x ∈ s.pending, x ∈ s.seen
  expanded : ∀ x ∈ s.seen, x ∉ s.pending → x ∉ busy → ∀ y ∈ succ x, y ∈ s.seen

omit [DecidableEq α] in
lemma Inv.start (ha : a ∈ univ) : Inv succ univ a [] (Search.start a) where
  start_mem := mem_singleton_self a
  nodup := nodup_singleton a
  within x hx := by rwa [mem_singleton.mp hx]
  reached x hx := by rw [mem_singleton.mp hx]
  pending_seen _ hx := hx
  expanded _ hx hn := absurd hx hn

lemma Inv.enqueue {x y : α} (h : Inv succ univ a busy s) (hx : x ∈ s.seen) (hy : y ∈ succ x)
    (hu : y ∈ univ) : Inv succ univ a busy (s.enqueue y) := by
  unfold Search.enqueue
  split_ifs with hs
  · exact h
  · refine ⟨by simp [h.start_mem], ?_, ?_, ?_, ?_, ?_⟩
    · simpa [nodup_append, h.nodup] using fun z hz (e : z = y) => hs (e ▸ hz)
    · simpa [or_imp, forall_and, hu] using h.within
    · simpa [or_imp, forall_and] using ⟨h.reached, (h.reached x hx).tail hy⟩
    · intro z hz
      rw [mem_append] at hz ⊢
      exact hz.imp_left (h.pending_seen z)
    · intro z hz hp hb w hw
      rw [mem_append, not_or] at hp
      have hz' : z ∈ s.seen := (mem_append.mp hz).resolve_right hp.2
      exact mem_append_left _ (h.expanded z hz' hp.1 hb w hw)

lemma Inv.enqueueAll {x : α} (h : Inv succ univ a busy s) (hx : x ∈ s.seen) {ys : List α}
    (hy : ∀ y ∈ ys, y ∈ succ x) (hu : ∀ y ∈ ys, y ∈ univ) : Inv succ univ a busy (s.enqueueAll ys) := by
  induction ys generalizing s with
  | nil => exact h
  | cons y ys ih =>
    rw [forall_mem_cons] at hy hu
    rw [enqueueAll_cons]
    exact ih (h.enqueue hx hy.1 hu.1) ((mem_seen_enqueue s y x).mpr (.inl hx)) hy.2 hu.2

lemma Inv.expand {x : α} {rest : List α} (h : Inv succ univ a [] s) (hp : s.pending = x :: rest)
    (hu : ∀ y ∈ succ x, y ∈ univ) :
    Inv succ univ a [] (Search.enqueueAll { s with pending := rest } (succ x)) := by
  have hx : x ∈ s.seen := h.pending_seen x (hp ▸ mem_cons_self)
  have h0 : Inv succ univ a [x] { s with pending := rest } :=
    { h with
      pending_seen := fun z hz => h.pending_seen z (hp ▸ mem_cons_of_mem _ hz)
      expanded := fun z hz hn hb =>
        h.expanded z hz (by rw [hp, mem_cons, not_or]; exact ⟨by simpa using hb, hn⟩) (by simp) }
  have h1 := h0.enqueueAll hx (fun _ hy => hy) hu
  refine { h1 with expanded := fun z hz hn _ y hy => ?_ }
  by_cases hz' : z = x
  · subst hz'
    exact (mem_seen_enqueueAll _ _ y).mpr (.inr hy)
  · exact h1.expanded z hz hn (by simpa using hz') y hy

omit [DecidableEq α] in
lemma Inv.length_seen_le (h : Inv succ univ a busy s) : s.seen.length ≤ univ.length :=
  (subperm_of_subset h.nodup h.within).length_le

lemma Inv.run (hu : ∀ x ∈ univ, ∀ y ∈ succ x, y ∈ univ) (fuel : ℕ) (h : Inv succ univ a [] s)
    (hf : univ.length + s.pending.length ≤ fuel + s.seen.length) :
    Inv succ univ a [] (s.run succ fuel) ∧ (s.run succ fuel).pending = [] := by
  induction fuel generalizing s with
  | zero =>
    have := h.length_seen_le
    have hp : s.pending.length = 0 := by omega
    exact ⟨h, eq_nil_of_length_eq_zero hp⟩
  | succ fuel ih =>
    unfold Search.run
    cases hp : s.pending with
    | nil => exact ⟨h, hp⟩
    | cons x rest =>
      have hx : x ∈ univ := h.within x (h.pending_seen x (hp ▸ mem_cons_self))
      have hl := length_enqueueAll { s with pending := rest } (succ x)
      rw [hp, length_cons] at hf
      simp only at hl
      exact ih (h.expand hp (hu x hx)) (by omega)

end Invariant

/-- The items that a run expands, in order. -/
def order (succ : α → List α) : ℕ → Search α → List α
  | 0, _ => []
  | fuel + 1, s =>
    match s.pending with
    | [] => []
    | x :: rest => x :: order succ fuel (enqueueAll { s with pending := rest } (succ x))

lemma mem_pending_enqueueAll (s : Search α) (xs : List α) (y : α) :
    y ∈ (s.enqueueAll xs).pending ↔ y ∈ s.pending ∨ y ∉ s.seen ∧ y ∈ xs := by
  induction xs generalizing s with
  | nil => simp
  | cons x xs ih =>
    rw [enqueueAll_cons, ih, mem_seen_enqueue]
    unfold enqueue
    split_ifs with hx
    · grind
    · simp only [mem_append, mem_cons]
      grind

lemma mem_order_of_mem_run (succ : α → List α) (fuel : ℕ) (s : Search α)
    (hp : (s.run succ fuel).pending = []) (x : α) (hx : x ∈ (s.run succ fuel).seen) :
    x ∈ s.order succ fuel ∨ x ∈ s.seen ∧ x ∉ s.pending := by
  induction fuel generalizing s with
  | zero =>
    unfold run at hp hx
    exact .inr ⟨hx, by simp [hp]⟩
  | succ fuel ih =>
    unfold run at hp hx
    unfold order
    cases hs : s.pending with
    | nil =>
      rw [hs] at hx
      exact .inr ⟨hx, not_mem_nil⟩
    | cons y rest =>
      rw [hs] at hp hx
      rw [mem_cons, mem_cons]
      rcases ih _ hp hx with h | ⟨hseen, hpend⟩
      · exact .inl (.inr h)
      · rw [mem_seen_enqueueAll] at hseen
        rw [mem_pending_enqueueAll] at hpend
        grind

lemma mem_run_of_mem_seen (succ : α → List α) (fuel : ℕ) (s : Search α) (x : α)
    (hx : x ∈ s.seen) : x ∈ (s.run succ fuel).seen := by
  induction fuel generalizing s with
  | zero => exact hx
  | succ fuel ih =>
    unfold run
    cases hp : s.pending with
    | nil => exact hx
    | cons y rest => exact ih _ ((mem_seen_enqueueAll _ _ _).mpr (.inl hx))

lemma mem_run_of_mem_order (succ : α → List α) (fuel : ℕ) (s : Search α)
    (hs : ∀ x ∈ s.pending, x ∈ s.seen) (x : α) (hx : x ∈ s.order succ fuel) : x ∈ (s.run succ fuel).seen := by
  induction fuel generalizing s with
  | zero => cases hx
  | succ fuel ih =>
    unfold order at hx
    unfold run
    cases hp : s.pending with
    | nil => simp [hp] at hx
    | cons y rest =>
      rw [hp] at hx
      rw [hp, forall_mem_cons] at hs
      cases mem_cons.mp hx with
      | inl h =>
        refine mem_run_of_mem_seen succ fuel _ x ((mem_seen_enqueueAll _ _ _).mpr (.inl ?_))
        rw [h]
        exact hs.1
      | inr h =>
        refine ih _ (fun z hz => ?_) h
        rw [mem_pending_enqueueAll] at hz
        rw [mem_seen_enqueueAll]
        exact hz.imp (hs.2 z) And.right

/-- A search from `a` that may expand every item of the universe expands exactly what is
reachable. -/
lemma mem_order_start {succ : α → List α} {univ : List α} {a : α} (ha : a ∈ univ)
    (hu : ∀ x ∈ univ, ∀ y ∈ succ x, y ∈ univ) (x : α) :
    x ∈ (start a).order succ univ.length ↔ Relation.ReflTransGen (fun x y => y ∈ succ x) a x := by
  have hstart : Inv succ univ a [] (start a) := Inv.start ha
  obtain ⟨h, hp⟩ := hstart.run hu univ.length (by simp [start])
  have hseen : x ∈ (start a).order succ univ.length ↔ x ∈ ((start a).run succ univ.length).seen := by
    refine ⟨mem_run_of_mem_order succ _ _ (fun _ hz => hz) x, fun hx => ?_⟩
    exact (mem_order_of_mem_run succ _ _ hp x hx).resolve_right fun hn => hn.2 hn.1
  rw [hseen]
  refine ⟨h.reached x, fun hr => ?_⟩
  clear hseen
  induction hr with
  | refl => exact h.start_mem
  | tail _ hxy ih => exact h.expanded _ ih (by simp [hp]) (by simp) _ hxy

end Search
end Worklist
