import Mathlib.Data.List.Sort
import Mathlib.Order.Basic

/-! Sorting, removal of duplicates and binary search over lists, for an explicit three-way
comparison. The comparison need not separate distinct elements, so membership is stated up to
the equivalence `cmp a b = .eq`. -/
namespace SortedSearch

variable {α : Type*} (cmp : α → α → Ordering)

/-- An element comparing equal to `a` occurs in the list. -/
def Has (a : α) (xs : List α) : Prop := ∃ x ∈ xs, cmp a x = .eq

/-- Strictly increasing for the comparison. -/
def Strict (xs : List α) : Prop := xs.Pairwise fun a b => cmp a b = .lt

instance (a : α) (xs : List α) : Decidable (Has cmp a xs) :=
  inferInstanceAs (Decidable (∃ x ∈ xs, cmp a x = .eq))

instance (xs : List α) : Decidable (Strict cmp xs) :=
  inferInstanceAs (Decidable (xs.Pairwise _))

/-- The window `[low, high)` of a binary search; `probe x` compares the target with `x`. -/
def searchWindow (probe : α → Ordering) (xs : List α) : ℕ → ℕ → ℕ → Option ℕ
  | 0, _, _ => none
  | fuel+1, low, high =>
    if low < high then
      let mid := low + (high - low) / 2
      match xs[mid]? with
      | none => none
      | some x =>
        match probe x with
        | .eq => some mid
        | .gt => searchWindow probe xs fuel (mid + 1) high
        | .lt => searchWindow probe xs fuel low mid
    else none

/-- Binary search over the whole list. Every round shortens the window, so the length of the
list is fuel enough. -/
def binarySearch (probe : α → Ordering) (xs : List α) : Option ℕ :=
  searchWindow probe xs xs.length 0 xs.length

variable {xs : List α}

lemma searchWindow_congr {β : Type*} {f : α → Ordering} {g : β → Ordering}
    {ys : List β} (h : xs.map f = ys.map g) (fuel low high : ℕ) :
    searchWindow f xs fuel low high = searchWindow g ys fuel low high := by
  induction fuel generalizing low high with
  | zero => rfl
  | succ fuel ih =>
    have hmid := congrArg (·[low + (high - low) / 2]?) h
    simp only [List.getElem?_map] at hmid
    simp only [searchWindow]
    cases hx : xs[low + (high - low) / 2]? with
    | none =>
      rw [hx, Option.map_none, eq_comm, Option.map_eq_none_iff] at hmid
      rw [hmid]
    | some x =>
      rw [hx, Option.map_some, eq_comm, Option.map_eq_some_iff] at hmid
      obtain ⟨y, hy, hxy⟩ := hmid
      simp only [hy, hxy, ih]

lemma binarySearch_congr {β : Type*} {f : α → Ordering} {g : β → Ordering}
    {ys : List β} (h : xs.map f = ys.map g) : binarySearch f xs = binarySearch g ys := by
  have hlen : xs.length = ys.length := by simpa using congrArg List.length h
  rw [binarySearch, binarySearch, hlen, searchWindow_congr h]

lemma searchWindow_sound (probe : α → Ordering) (xs : List α) (fuel low high i : ℕ)
    (h : searchWindow probe xs fuel low high = some i) : ∃ x, xs[i]? = some x ∧ probe x = .eq := by
  induction fuel generalizing low high with
  | zero => simp [searchWindow] at h
  | succ fuel ih =>
    simp only [searchWindow] at h
    split at h
    · cases hx : xs[low + (high - low) / 2]? with
      | none => simp [hx] at h
      | some x =>
        simp only [hx] at h
        cases hp : probe x with
        | eq =>
          simp only [hp, Option.some.injEq] at h
          subst h
          exact ⟨x, hx, hp⟩
        | gt => exact ih _ _ (by simpa [hp] using h)
        | lt => exact ih _ _ (by simpa [hp] using h)
    · simp at h

def ProbeMonotone (probe : α → Ordering) (xs : List α) : Prop :=
  ∀ (i j : ℕ) (x y : α), i < j → xs[i]? = some x → xs[j]? = some y →
    (probe x = .lt → probe y = .lt) ∧ (probe y = .gt → probe x = .gt) ∧
      (probe x = .eq → probe y = .lt) ∧ (probe y = .eq → probe x = .gt)

lemma searchWindow_complete (probe : α → Ordering) (xs : List α) (hm : ProbeMonotone probe xs)
    (fuel low high k : ℕ) (x : α) (hf : high - low ≤ fuel) (hh : high ≤ xs.length)
    (hlk : low ≤ k) (hkh : k < high) (hx : xs[k]? = some x) (hp : probe x = .eq) :
    (searchWindow probe xs fuel low high).isSome := by
  induction fuel generalizing low high with
  | zero => omega
  | succ fuel ih =>
    have hlt : low < high := by omega
    obtain ⟨y, hy⟩ : ∃ y, xs[low + (high - low) / 2]? = some y :=
      ⟨_, List.getElem?_eq_getElem (by omega)⟩
    simp only [searchWindow, hlt, if_true, hy]
    cases hq : probe y with
    | eq => simp
    | gt =>
      have hk : low + (high - low) / 2 < k := by
        rcases Nat.lt_trichotomy k (low + (high - low) / 2) with h | h | h
        · have := (hm _ _ _ _ h hx hy).2.1 hq
          simp [this] at hp
        · subst h
          rw [hx] at hy
          cases hy
          simp [hq] at hp
        · exact h
      exact ih _ _ (by omega) hh (by omega) hkh
    | lt =>
      have hk : k < low + (high - low) / 2 := by
        rcases Nat.lt_trichotomy k (low + (high - low) / 2) with h | h | h
        · exact h
        · subst h
          rw [hx] at hy
          cases hy
          simp [hq] at hp
        · have := (hm _ _ _ _ h hy hx).1 hq
          simp [this] at hp
      exact ih _ _ (by omega) (by omega) hlk hk

variable [Std.TransCmp cmp]

lemma strict_monotone (a : α) (xs : List α) (hs : Strict cmp xs) : ProbeMonotone (cmp a) xs := by
  intro i j x y hij hx hy
  obtain ⟨hi, rfl⟩ := List.getElem?_eq_some_iff.mp hx
  obtain ⟨hj, rfl⟩ := List.getElem?_eq_some_iff.mp hy
  have hxy : cmp xs[i] xs[j] = .lt := List.pairwise_iff_getElem.mp hs i j hi hj hij
  refine ⟨fun h => Std.TransCmp.lt_trans h hxy, fun h => ?_, fun h => ?_, fun h => ?_⟩
  · exact Std.TransCmp.gt_trans h (Std.OrientedCmp.gt_of_lt hxy)
  · exact Std.TransCmp.lt_of_eq_of_lt h hxy
  · exact Std.TransCmp.gt_of_eq_of_gt h (Std.OrientedCmp.gt_of_lt hxy)

lemma binarySearch_isSome_iff (a : α) (xs : List α) (hs : Strict cmp xs) :
    (binarySearch (cmp a) xs).isSome ↔ Has cmp a xs := by
  constructor
  · intro h
    obtain ⟨i, hi⟩ := Option.isSome_iff_exists.mp h
    obtain ⟨x, hx, hp⟩ := searchWindow_sound _ _ _ _ _ _ hi
    exact ⟨x, List.mem_of_getElem? hx, hp⟩
  · rintro ⟨x, hx, hp⟩
    obtain ⟨k, hk⟩ := List.mem_iff_getElem?.mp hx
    obtain ⟨hlt, -⟩ := List.getElem?_eq_some_iff.mp hk
    exact searchWindow_complete _ _ (strict_monotone cmp a xs hs) _ _ _ k x (by omega)
      (le_refl _) (Nat.zero_le _) hlt hk hp

omit [Std.TransCmp cmp]

/-- Drop the elements that compare equal to the last one kept. -/
def dedupFrom (last : α) : List α → List α
  | [] => []
  | x :: xs => if cmp last x = .eq then dedupFrom last xs else x :: dedupFrom x xs

/-- Keep the first of each run of neighbours that compare equal. -/
def dedup : List α → List α
  | [] => []
  | x :: xs => x :: dedupFrom cmp x xs

def sortedSet (xs : List α) : List α :=
  dedup cmp (xs.insertionSort fun a b => (cmp a b).isLE)

lemma mem_of_mem_dedupFrom (last x : α) (xs : List α) (h : x ∈ dedupFrom cmp last xs) : x ∈ xs := by
  induction xs generalizing last with
  | nil => simp [dedupFrom] at h
  | cons y ys ih =>
    simp only [dedupFrom] at h
    split_ifs at h
    · exact List.mem_cons_of_mem _ (ih last h)
    · rcases List.mem_cons.mp h with rfl | h
      · exact List.mem_cons_self
      · exact List.mem_cons_of_mem _ (ih y h)

lemma mem_of_mem_sortedSet (x : α) (xs : List α) (h : x ∈ sortedSet cmp xs) : x ∈ xs := by
  rw [← List.mem_insertionSort (fun a b => (cmp a b).isLE)]
  simp only [sortedSet] at h
  cases hs : xs.insertionSort fun a b => (cmp a b).isLE with
  | nil => simp [hs, dedup] at h
  | cons y ys =>
    rw [hs] at h
    rcases List.mem_cons.mp h with rfl | h
    · exact List.mem_cons_self
    · exact List.mem_cons_of_mem _ (mem_of_mem_dedupFrom cmp y x ys h)

variable [Std.TransCmp cmp]

lemma strict_dedupFrom (last : α) (xs : List α) (hs : (last :: xs).Pairwise fun a b => (cmp a b).isLE) :
    Strict cmp (last :: dedupFrom cmp last xs) := by
  induction xs generalizing last with
  | nil => simp [dedupFrom, Strict]
  | cons x xs ih =>
    obtain ⟨hl, hxs⟩ := List.pairwise_cons.mp hs
    simp only [dedupFrom]
    split_ifs with h
    · exact ih last (List.pairwise_cons.mpr
        ⟨fun y hy => hl y (List.mem_cons_of_mem _ hy), (List.pairwise_cons.mp hxs).2⟩)
    · have hx := ih x hxs
      have hlx : cmp last x = .lt := by
        have := hl x List.mem_cons_self
        cases hc : cmp last x <;> simp_all
      refine List.pairwise_cons.mpr ⟨fun y hy => ?_, hx⟩
      rcases List.mem_cons.mp hy with rfl | hy
      · exact hlx
      · exact Std.TransCmp.lt_trans hlx ((List.pairwise_cons.mp hx).1 y hy)

lemma insertionSort_isLE (xs : List α) :
    (xs.insertionSort fun a b => (cmp a b).isLE).Pairwise fun a b => (cmp a b).isLE := by
  have : Std.Total fun a b => (cmp a b).isLE = true :=
    ⟨fun a b => by
      rw [← @Std.OrientedCmp.isGE_iff_isLE _ cmp _ a b]
      cases cmp a b <;> simp⟩
  have : IsTrans α fun a b => (cmp a b).isLE = true :=
    ⟨fun _ _ _ h₁ h₂ => Std.TransCmp.isLE_trans h₁ h₂⟩
  exact List.pairwise_insertionSort _ _

lemma strict_sortedSet (xs : List α) : Strict cmp (sortedSet cmp xs) := by
  have h := insertionSort_isLE cmp xs
  simp only [sortedSet]
  cases hs : xs.insertionSort fun a b => (cmp a b).isLE with
  | nil => simp [dedup, Strict]
  | cons y ys => exact strict_dedupFrom cmp y ys (hs ▸ h)

omit [Std.TransCmp cmp] in
lemma dedupFrom_of_strict {last : α} (h : Strict cmp (last :: xs)) : dedupFrom cmp last xs = xs := by
  induction xs generalizing last with
  | nil => rfl
  | cons x xs ih =>
    obtain ⟨hlast, hrest⟩ := List.pairwise_cons.mp h
    rw [dedupFrom, if_neg (by rw [hlast x List.mem_cons_self]; decide), ih hrest]

omit [Std.TransCmp cmp] in
lemma sortedSet_of_strict (h : Strict cmp xs) : sortedSet cmp xs = xs := by
  have hsorted : xs.Pairwise fun a b => (cmp a b).isLE = true :=
    h.imp fun hlt => by rw [hlt]; rfl
  rw [sortedSet, hsorted.insertionSort_eq]
  cases xs with
  | nil => rfl
  | cons x xs => rw [dedup, dedupFrom_of_strict cmp h]

end SortedSearch
