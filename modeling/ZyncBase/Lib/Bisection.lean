import ZyncBase.Lib.SortedSearch

/-! Binary search in a list that need not be sorted finds the elements in place: those that lie on
their own side of every midpoint met on the way to them. -/
namespace SortedSearch

variable {α : Type*}

/-- The midpoints that a search of the window `[low, high)` meets before position `i`. -/
def midpoints (i : ℕ) : ℕ → ℕ → ℕ → List ℕ
  | 0, _, _ => []
  | fuel+1, low, high =>
    if low < high then
      let mid := low + (high - low) / 2
      if mid < i then mid :: midpoints i fuel (mid + 1) high
      else if i < mid then mid :: midpoints i fuel low mid
      else []
    else []

/-- At every midpoint the probe turns towards position `i`. -/
def Leads (probe : α → Ordering) (xs : List α) (i : ℕ) (mids : List ℕ) : Prop :=
  ∀ m ∈ mids, ∀ x, xs[m]? = some x → (m < i → probe x = .gt) ∧ (i < m → probe x = .lt)

variable {xs : List α} {probe : α → Ordering}

lemma leads_cons {i m : ℕ} {mids : List ℕ} {x : α} (hx : xs[m]? = some x) : Leads probe xs i (m :: mids) ↔
    ((m < i → probe x = .gt) ∧ (i < m → probe x = .lt)) ∧ Leads probe xs i mids := by
  rw [Leads, List.forall_mem_cons, hx]
  constructor
  · rintro ⟨h, hmids⟩
    exact ⟨h x rfl, hmids⟩
  · rintro ⟨h, hmids⟩
    refine ⟨fun y hy => ?_, hmids⟩
    cases hy
    exact h

lemma searchWindow_bounds {fuel low high i : ℕ}
    (h : searchWindow probe xs fuel low high = some i) : low ≤ i ∧ i < high := by
  induction fuel generalizing low high with
  | zero => simp [searchWindow] at h
  | succ fuel ih =>
    simp only [searchWindow] at h
    split at h
    case isTrue hlt =>
      cases hx : xs[low + (high - low) / 2]? with
      | none => simp [hx] at h
      | some x =>
        simp only [hx] at h
        cases hp : probe x with
        | eq =>
          simp only [hp, Option.some.injEq] at h
          omega
        | gt =>
          rw [hp] at h
          have := ih h
          omega
        | lt =>
          rw [hp] at h
          have := ih h
          omega
    case isFalse => simp at h

lemma searchWindow_eq_some {fuel low high i : ℕ} {a : α}
    (ha : xs[i]? = some a) (hf : high - low ≤ fuel) (hh : high ≤ xs.length) (hl : low ≤ i)
    (hi : i < high) : searchWindow probe xs fuel low high = some i ↔
      probe a = .eq ∧ Leads probe xs i (midpoints i fuel low high) := by
  induction fuel generalizing low high with
  | zero => omega
  | succ fuel ih =>
    have hlt : low < high := by omega
    obtain ⟨x, hx⟩ : ∃ x, xs[low + (high - low) / 2]? = some x :=
      ⟨_, List.getElem?_eq_getElem (by omega)⟩
    simp only [searchWindow, midpoints, hlt, if_true, hx]
    rcases Nat.lt_trichotomy (low + (high - low) / 2) i with hmid | hmid | hmid
    · rw [if_pos hmid, leads_cons hx]
      have hnot : ¬ i < low + (high - low) / 2 := by omega
      cases hp : probe x with
      | gt =>
        simp only [hmid, hnot, forall_const, true_and, false_implies]
        exact ih (by omega) hh (by omega) hi
      | eq => simp [hmid, Nat.ne_of_lt hmid]
      | lt =>
        simp only [hmid, forall_const, reduceCtorEq, false_and, and_false, iff_false]
        intro h
        have := searchWindow_bounds h
        omega
    · subst hmid
      rw [ha, Option.some.injEq] at hx
      subst hx
      rw [if_neg (lt_irrefl _), if_neg (lt_irrefl _)]
      cases hp : probe a with
      | eq => simp [Leads]
      | gt =>
        simp only [reduceCtorEq, false_and, iff_false]
        intro h
        have := searchWindow_bounds h
        omega
      | lt =>
        simp only [reduceCtorEq, false_and, iff_false]
        intro h
        have := searchWindow_bounds h
        omega
    · rw [if_neg (by omega), if_pos hmid, leads_cons hx]
      have hnot : ¬ low + (high - low) / 2 < i := by omega
      cases hp : probe x with
      | lt =>
        simp only [hmid, hnot, forall_const, true_and, and_true, false_implies]
        exact ih (by omega) (by omega) hl hmid
      | eq => simp [hmid, Nat.ne_of_gt hmid]
      | gt =>
        simp only [hmid, forall_const, reduceCtorEq, false_and, and_false, iff_false]
        intro h
        have := searchWindow_bounds h
        omega

/-- On the way to two positions of the window, some position between them is met or is one of the
two. -/
lemma exists_common_midpoint {fuel low high i j : ℕ} (hf : high - low ≤ fuel) (hl : low ≤ i)
    (hij : i < j) (hj : j < high) : ∃ m, i ≤ m ∧ m ≤ j ∧
      (m = i ∨ m ∈ midpoints i fuel low high) ∧ (m = j ∨ m ∈ midpoints j fuel low high) := by
  induction fuel generalizing low high with
  | zero => omega
  | succ fuel ih =>
    have hlt : low < high := by omega
    simp only [midpoints, hlt, if_true]
    by_cases hbefore : low + (high - low) / 2 < i
    · rw [if_pos hbefore, if_pos (by omega)]
      have hf' : high - (low + (high - low) / 2 + 1) ≤ fuel := by omega
      obtain ⟨m, him, hmj, hmi, hm⟩ := ih hf' (by omega) hj
      exact ⟨m, him, hmj, hmi.imp_right (List.mem_cons_of_mem _), hm.imp_right (List.mem_cons_of_mem _)⟩
    by_cases hafter : j < low + (high - low) / 2
    · rw [if_neg hbefore, if_pos (by omega), if_neg (by omega), if_pos hafter]
      have hf' : low + (high - low) / 2 - low ≤ fuel := by omega
      obtain ⟨m, him, hmj, hmi, hm⟩ := ih hf' hl hafter
      exact ⟨m, him, hmj, hmi.imp_right (List.mem_cons_of_mem _), hm.imp_right (List.mem_cons_of_mem _)⟩
    refine ⟨low + (high - low) / 2, by omega, by omega, ?_, ?_⟩
    · by_cases hi : i < low + (high - low) / 2
      · rw [if_neg hbefore, if_pos hi]
        exact .inr List.mem_cons_self
      · exact .inl (by omega)
    · by_cases hm : low + (high - low) / 2 < j
      · rw [if_pos hm]
        exact .inr List.mem_cons_self
      · exact .inl (by omega)

variable (cmp : α → α → Ordering)

/-- The element at position `i` lies after every midpoint on its left and before every one on its
right, of those that the search meets on the way to `i`. -/
def InPlace (xs : List α) (i : ℕ) (a : α) : Prop :=
  xs[i]? = some a ∧ Leads (cmp a) xs i (midpoints i xs.length 0 xs.length)

/-- Every element has a copy in place. -/
def Bisectable (xs : List α) : Prop := ∀ x ∈ xs, ∃ i a, cmp x a = .eq ∧ InPlace cmp xs i a

variable {cmp} [Std.TransCmp cmp]

lemma leads_congr {a b : α} (h : cmp a b = .eq) (xs : List α) (i : ℕ) (mids : List ℕ) :
    Leads (cmp a) xs i mids ↔ Leads (cmp b) xs i mids := by
  simp only [Leads, Std.TransCmp.congr_left h]

lemma binarySearch_isSome_iff_inPlace (x : α) (xs : List α) :
    (binarySearch (cmp x) xs).isSome ↔ ∃ i a, cmp x a = .eq ∧ InPlace cmp xs i a := by
  rw [Option.isSome_iff_exists]
  refine exists_congr fun i => ?_
  constructor
  · intro h
    obtain ⟨a, ha, hxa⟩ := searchWindow_sound _ _ _ _ _ _ h
    have hi := searchWindow_bounds h
    refine ⟨a, hxa, ha, (leads_congr hxa xs i _).mp ?_⟩
    exact ((searchWindow_eq_some ha (by omega) (le_refl _) hi.1 hi.2).mp h).2
  · rintro ⟨a, hxa, ha, hleads⟩
    obtain ⟨hi, -⟩ := List.getElem?_eq_some_iff.mp ha
    exact (searchWindow_eq_some ha (by omega) (le_refl _) (Nat.zero_le _) hi).mpr
      ⟨hxa, (leads_congr hxa xs i _).mpr hleads⟩

lemma binarySearch_exact_iff (xs : List α) :
    (∀ x, (binarySearch (cmp x) xs).isSome = true ↔ Has cmp x xs) ↔ Bisectable cmp xs := by
  constructor
  · intro h x hx
    exact (binarySearch_isSome_iff_inPlace x xs).mp ((h x).mpr ⟨x, hx, Std.ReflCmp.compare_self⟩)
  · intro h x
    rw [binarySearch_isSome_iff_inPlace]
    constructor
    · rintro ⟨i, a, hxa, ha, -⟩
      exact ⟨a, List.mem_of_getElem? ha, hxa⟩
    · rintro ⟨y, hy, hxy⟩
      obtain ⟨i, a, hya, hplace⟩ := h y hy
      exact ⟨i, a, Std.TransCmp.eq_trans hxy hya, hplace⟩

lemma bisectable_of_strict (h : Strict cmp xs) : Bisectable cmp xs :=
  (binarySearch_exact_iff xs).mp fun x => binarySearch_isSome_iff cmp x xs h

lemma bisectable_iff_strict (hd : xs.Pairwise fun a b => cmp a b ≠ .eq) :
    Bisectable cmp xs ↔ Strict cmp xs := by
  refine ⟨fun h => ?_, bisectable_of_strict⟩
  have hplace (i : ℕ) (hi : i < xs.length) : InPlace cmp xs i xs[i] := by
    obtain ⟨k, a, heq, ha, hleads⟩ := h xs[i] (List.getElem_mem hi)
    obtain ⟨hk, rfl⟩ := List.getElem?_eq_some_iff.mp ha
    rcases Nat.lt_trichotomy i k with hik | hik | hik
    · exact absurd heq (List.pairwise_iff_getElem.mp hd i k hi hk hik)
    · subst hik
      exact ⟨ha, hleads⟩
    · exact absurd (Std.OrientedCmp.eq_symm heq) (List.pairwise_iff_getElem.mp hd k i hk hi hik)
  refine List.pairwise_iff_getElem.mpr fun i j hi hj hij => ?_
  obtain ⟨m, him, hmj, hmi, hm⟩ :=
    exists_common_midpoint (by omega : xs.length - 0 ≤ xs.length) (Nat.zero_le i) hij hj
  have hx : xs[m]? = some xs[m] := List.getElem?_eq_getElem (by omega)
  have hleft : i < m → cmp xs[i] xs[m] = .lt := by
    intro h
    exact ((hplace i hi).2 m (hmi.resolve_left (by omega)) _ hx).2 h
  have hright : m < j → cmp xs[m] xs[j] = .lt := by
    intro h
    exact Std.OrientedCmp.lt_of_gt (((hplace j hj).2 m (hm.resolve_left (by omega)) _ hx).1 h)
  rcases Nat.lt_or_eq_of_le him with him | rfl
  · rcases Nat.lt_or_eq_of_le hmj with hmj | rfl
    · exact Std.TransCmp.lt_trans (hleft him) (hright hmj)
    · exact hleft him
  · exact hright hij

end SortedSearch
