import ZyncBase.Lib.SortedSearch

/-! Sorted listings. Keyset pagination reads one page by page, and each page starts after the last
element of the one before it; listings of the same keys in any order are sorted to listings of the
same keys in one order. -/
namespace Keyset

open List

variable {α σ : Type*}

section Pages

/-- Fetch pages until one has no successor. There is no answer when a fetch fails or the fuel runs
out. -/
def readPages (fetch : σ → Option (List α × Option σ)) : ℕ → σ → Option (List (List α))
  | 0, _ => none
  | fuel + 1, s =>
    match fetch s with
    | none => none
    | some (page, none) => some [page]
    | some (page, some next) => (readPages fetch fuel next).map (page :: ·)

/-- Each state has a rest to read. If a fetch returns the first `n` elements of it and a state with
the others, or all of it when there are no more, then the pages are the rest. -/
lemma readPages_rest {fetch : σ → Option (List α × Option σ)} {rest : σ → List α}
    {I : σ → Prop} {n : ℕ} (hn : 0 < n)
    (hlast : ∀ s, I s → (rest s).length ≤ n → fetch s = some (rest s, none))
    (hmore : ∀ s, I s → n < (rest s).length → ∃ s', I s' ∧ rest s' = (rest s).drop n ∧
      fetch s = some ((rest s).take n, some s'))
    {fuel : ℕ} {s : σ} (hs : I s) (hfuel : (rest s).length < fuel) :
    ∃ pages, readPages fetch fuel s = some pages ∧ pages.flatten = rest s := by
  induction fuel generalizing s with
  | zero => cases hfuel
  | succ fuel ih =>
    rw [readPages]
    by_cases hlen : (rest s).length ≤ n
    · rw [hlast s hs hlen]
      exact ⟨[rest s], rfl, by simp⟩
    · obtain ⟨s', hs', hrest, hfetch⟩ := hmore s hs (Nat.lt_of_not_le hlen)
      have hshorter : (rest s').length < fuel := by
        rw [hrest, length_drop]
        omega
      obtain ⟨pages, hpages, hflatten⟩ := ih hs' hshorter
      refine ⟨(rest s).take n :: pages, ?_, ?_⟩
      · rw [hfetch]
        dsimp only
        rw [hpages]
        rfl
      · rw [flatten_cons, hflatten, hrest, take_append_drop]

end Pages

section Order

open SortedSearch

lemma transCmp_key {β : Type*} {cmp : α → α → Ordering} (h : Std.TransCmp cmp) (key : β → α) :
    Std.TransCmp fun a b => cmp (key a) (key b) where
  eq_swap := h.eq_swap
  isLE_trans := h.isLE_trans

variable (cmp : α → α → Ordering)

def sort (xs : List α) : List α := xs.insertionSort fun a b => (cmp a b).isLE

lemma perm_sort (xs : List α) : (sort cmp xs).Perm xs := perm_insertionSort _ _

variable {xs : List α}

lemma sort_congr {cmp cmp' : α → α → Ordering}
    (h : ∀ a ∈ xs, ∀ b ∈ xs, cmp a b = cmp' a b) : sort cmp xs = sort cmp' xs := by
  have hmap := map_insertionSort (fun a b => (cmp a b).isLE = true)
    (fun a b => (cmp' a b).isLE = true) id xs fun a ha b hb => by rw [id, id, h a ha b hb]
  rwa [map_id, map_id] at hmap

variable {cmp} [Std.TransCmp cmp]

lemma strict_sort (h : xs.Pairwise fun a b => cmp a b ≠ .eq) : Strict cmp (sort cmp xs) := by
  have hsymm : ∀ {a b}, cmp a b ≠ .eq → cmp b a ≠ .eq :=
    fun hne heq => hne (Std.OrientedCmp.eq_symm heq)
  have hne := h.perm (perm_sort cmp xs).symm hsymm
  refine ((insertionSort_isLE cmp xs).and hne).imp fun {a b} hab => ?_
  cases hc : cmp a b with
  | lt => rfl
  | eq => exact absurd hc hab.2
  | gt => simp [hc] at hab

lemma eq_of_strict_perm {ys : List α} (hx : Strict cmp xs) (hy : Strict cmp ys)
    (hp : xs.Perm ys) : xs = ys := by
  refine List.Perm.eq_of_pairwise (fun a b _ _ hab hba => ?_) hx hy hp
  rw [Std.OrientedCmp.gt_of_lt hab] at hba
  cases hba

lemma sort_filter (h : xs.Pairwise fun a b => cmp a b ≠ .eq) (p : α → Bool) :
    sort cmp (xs.filter p) = (sort cmp xs).filter p :=
  eq_of_strict_perm (strict_sort (h.filter p)) ((strict_sort h).filter p)
    ((perm_sort cmp _).trans ((perm_sort cmp xs).symm.filter p))

lemma filter_after {ys : List α} {x : α} (h : Strict cmp (xs ++ x :: ys)) :
    (xs ++ x :: ys).filter (fun y => cmp x y = .lt) = ys := by
  obtain ⟨-, htail, hcross⟩ := pairwise_append.mp h
  have hx : xs.filter (fun y => cmp x y = .lt) = [] := by
    rw [filter_eq_nil_iff]
    intro y hy
    rw [Std.OrientedCmp.gt_of_lt (hcross y hy x mem_cons_self)]
    simp
  have hys : ys.filter (fun y => cmp x y = .lt) = ys := by
    rw [filter_eq_self]
    intro y hy
    simpa using (pairwise_cons.mp htail).1 y hy
  have hself : cmp x x = .eq := Std.ReflCmp.compare_self
  rw [filter_append, hx, filter_cons, hys, hself]
  rfl

end Order
end Keyset

namespace CanonicalSort

open Keyset SortedSearch

variable {α γ : Type*} {cmp : α → α → Ordering} [Std.TransCmp cmp]

lemma eq_iff_row (a b : α) : cmp a b = .eq ↔ cmp a = cmp b := by
  constructor
  · intro h
    funext c
    exact Std.TransCmp.congr_left h
  · intro h
    rw [h]
    exact Std.ReflCmp.compare_self

lemma map_eq_of_perm {key : α → γ} (hkey : ∀ a b, cmp a b = .eq ↔ key a = key b)
    {xs ys : List α} (hx : xs.Pairwise fun a b => (cmp a b).isLE)
    (hy : ys.Pairwise fun a b => (cmp a b).isLE) (hp : (xs.map key).Perm (ys.map key)) :
    xs.map key = ys.map key := by
  induction xs generalizing ys with
  | nil => exact hp.nil_eq
  | cons x xs ih =>
    cases ys with
    | nil => exact absurd hp.length_eq (by simp)
    | cons y ys =>
      obtain ⟨hxmin, hxs⟩ := List.pairwise_cons.mp hx
      obtain ⟨hymin, hys⟩ := List.pairwise_cons.mp hy
      -- both heads are least: each has the key of an element of the other listing
      have hxy : (cmp x y).isLE := by
        obtain ⟨z, hz, hzy⟩ := List.mem_map.mp (hp.mem_iff.mpr (List.mem_map_of_mem List.mem_cons_self))
        have hzy : cmp z y = .eq := (hkey z y).mpr hzy
        rcases List.mem_cons.mp hz with rfl | hz
        · rw [hzy]; rfl
        · rw [← Std.TransCmp.congr_right hzy]
          exact hxmin z hz
      have hyx : (cmp y x).isLE := by
        obtain ⟨z, hz, hzx⟩ := List.mem_map.mp (hp.mem_iff.mp (List.mem_map_of_mem List.mem_cons_self))
        have hzx : cmp z x = .eq := (hkey z x).mpr hzx
        rcases List.mem_cons.mp hz with rfl | hz
        · rw [hzx]; rfl
        · rw [← Std.TransCmp.congr_right hzx]
          exact hymin z hz
      have heq : key x = key y := by
        rw [← hkey]
        cases hc : cmp x y with
        | eq => rfl
        | lt =>
          rw [Std.OrientedCmp.gt_of_lt hc] at hyx
          cases hyx
        | gt =>
          rw [hc] at hxy
          cases hxy
      rw [List.map_cons, List.map_cons, heq] at hp ⊢
      rw [ih hxs hys hp.cons_inv]

lemma map_sort_eq {key : α → γ} (hkey : ∀ a b, cmp a b = .eq ↔ key a = key b)
    {xs ys : List α} (hp : (xs.map key).Perm (ys.map key)) :
    (sort cmp xs).map key = (sort cmp ys).map key := by
  refine map_eq_of_perm hkey (insertionSort_isLE cmp xs) (insertionSort_isLE cmp ys) ?_
  exact ((perm_sort cmp xs).map key).trans (hp.trans ((perm_sort cmp ys).map key).symm)

omit [Std.TransCmp cmp] in
lemma sort_eq_self {xs : List α} (h : xs.Pairwise fun a b => (cmp a b).isLE) :
    sort cmp xs = xs := h.insertionSort_eq

lemma sort_eq_self_iff (xs : List α) : sort cmp xs = xs ↔ xs.Pairwise fun a b => (cmp a b).isLE :=
  ⟨fun h => h ▸ insertionSort_isLE cmp xs, sort_eq_self⟩

@[simp] lemma sort_sort (xs : List α) : sort cmp (sort cmp xs) = sort cmp xs :=
  sort_eq_self (insertionSort_isLE cmp xs)

omit [Std.TransCmp cmp] in
lemma compareLex_eq_iff {key : α → γ} (hkey : ∀ a b, cmp a b = .eq ↔ key a = key b)
    (xs ys : List α) : List.compareLex cmp xs ys = .eq ↔ xs.map key = ys.map key := by
  induction xs generalizing ys with
  | nil => cases ys <;> simp [List.compareLex_nil_cons, List.compareLex_nil_nil]
  | cons x xs ih =>
    cases ys with
    | nil => simp [List.compareLex_cons_nil]
    | cons y ys =>
      rw [List.compareLex_cons_cons, List.map_cons, List.map_cons, List.cons.injEq, ← hkey, ← ih]
      cases cmp x y <;> simp

end CanonicalSort
