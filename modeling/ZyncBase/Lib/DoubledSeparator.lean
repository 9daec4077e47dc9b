import Mathlib.Data.List.Infix
import Mathlib.Tactic.SplitIfs

/-! Words joined by a doubled letter, and split again at its first occurrences from the left. -/
namespace DoubledSeparator

open List

variable {α : Type*} [DecidableEq α] (c : α)

/-- The letter stands twice in a row somewhere. -/
def hasDouble : List α → Bool
  | x :: y :: rest => x = c && y = c || hasDouble (y :: rest)
  | _ => false

/-- The word before the first separator, and what follows it. -/
def splitFirst : List α → List α × Option (List α)
  | x :: y :: rest =>
    if x = c ∧ y = c then ([], some rest)
    else
      let next := splitFirst (y :: rest)
      (x :: next.1, next.2)
  | xs => (xs, none)

/-- A letter in front of the first word. -/
def consFirst (x : α) : List (List α) → List (List α)
  | [] => [[x]]
  | w :: ws => (x :: w) :: ws

def split : List α → List (List α)
  | x :: y :: rest => if x = c ∧ y = c then [] :: split rest else consFirst x (split (y :: rest))
  | xs => [xs]

def join : List (List α) → List α
  | [] => []
  | [w] => w
  | w :: ws => w ++ c :: c :: join ws

variable {w : List α}

omit [DecidableEq α] in
lemma join_cons {ws : List (List α)} (h : ws ≠ []) : join c (w :: ws) = w ++ c :: c :: join c ws := by
  cases ws with
  | nil => exact absurd rfl h
  | cons v vs => rfl

lemma split_ne_nil (xs : List α) : split c xs ≠ [] := by
  induction xs using split.induct c with
  | case1 => simp_all [split]
  | case2 x y rest hne ih =>
    rw [split, if_neg hne]
    cases h : split c (y :: rest) with
    | nil => exact absurd h ih
    | cons w ws => exact cons_ne_nil _ _
  | case3 => simp_all [split]

lemma split_eq (xs : List α) :
    split c xs = (splitFirst c xs).1 :: ((splitFirst c xs).2.map (split c)).getD [] := by
  induction xs using split.induct c with
  | case1 x y rest h => simp [split, splitFirst, h]
  | case2 x y rest hne ih =>
    rw [split, splitFirst, if_neg hne, if_neg hne, ih]
    rfl
  | case3 xs h =>
    cases xs with
    | nil => rfl
    | cons x xs =>
      cases xs with
      | nil => rfl
      | cons y rest => exact absurd rfl (h x y rest)

lemma join_split (xs : List α) : join c (split c xs) = xs := by
  induction xs using split.induct c with
  | case1 x y rest h =>
    rw [split, if_pos h, join_cons c (split_ne_nil c rest)]
    simp_all
  | case2 x y rest hne ih =>
    rw [split, if_neg hne]
    cases hw : split c (y :: rest) with
    | nil => exact absurd hw (split_ne_nil c _)
    | cons w ws =>
      rw [hw] at ih
      cases ws with
      | nil => simp_all [consFirst, join]
      | cons v vs => simp_all [consFirst, join]
  | case3 => simp_all [split, join]

section Words

variable {c}

lemma hasDouble_cons {x : α} {xs : List α} (h : hasDouble c (x :: xs) = false) : hasDouble c xs = false := by
  cases xs with
  | nil => rfl
  | cons y rest =>
    rw [hasDouble, Bool.or_eq_false_iff] at h
    exact h.2

/-- A word and the separator stand in front of another word and the separator only when the words are
the same, or the other ends in the letter of the separator. -/
lemma separated_isPrefix_iff {v rest : List α} (hv : hasDouble c v = false)
    (hw : hasDouble c w = false) (hrest : rest.head? ≠ some c) :
    v ++ [c, c] <+: w ++ c :: c :: rest ↔ w = v ∨ w = v ++ [c] := by
  induction v generalizing w with
  | nil =>
    match w with
    | [] => simp
    | [x] => simp [eq_comm]
    | x :: y :: w =>
      simp only [nil_append, cons_append, cons_prefix_cons, nil_prefix, and_true]
      constructor
      · rintro ⟨rfl, rfl⟩
        simp [hasDouble] at hw
      · simp
  | cons x v ih =>
    match w with
    | [] =>
      simp only [nil_append, cons_append, cons_prefix_cons]
      constructor
      · rintro ⟨rfl, hpre⟩
        match v with
        | [] =>
          match rest with
          | [] => simp at hpre
          | z :: rest => simp_all
        | y :: v =>
          obtain ⟨rfl, -⟩ := cons_prefix_cons.mp hpre
          simp [hasDouble] at hv
      · simp
    | y :: w =>
      rw [cons_append, cons_append, cons_prefix_cons, ih (hasDouble_cons hv) (hasDouble_cons hw)]
      simp only [cons_append, List.cons.injEq]
      constructor
      · rintro ⟨rfl, h⟩
        simpa using h
      · rintro (⟨rfl, rfl⟩ | ⟨rfl, rfl⟩) <;> simp

lemma splitFirst_word (h : hasDouble c w = false) : splitFirst c w = (w, none) := by
  induction w using splitFirst.induct c with
  | case1 x y rest hxy => simp [hasDouble, hxy] at h
  | case2 x y rest hne ih =>
    rw [splitFirst, if_neg hne, ih (hasDouble_cons h)]
  | case3 => simp_all [splitFirst]

lemma splitFirst_append (h : hasDouble c w = false) (hlast : w.getLast? ≠ some c)
    (rest : List α) : splitFirst c (w ++ c :: c :: rest) = (w, some rest) := by
  induction w with
  | nil => simp [splitFirst]
  | cons x w ih =>
    have hcons := hasDouble_cons h
    cases w with
    | nil =>
      have hx : x ≠ c := fun hx => hlast (by simp [hx])
      simp [splitFirst, hx]
    | cons y w =>
      have hne : ¬(x = c ∧ y = c) := by
        rintro ⟨hx, hy⟩
        simp [hasDouble, hx, hy] at h
      have ih := ih hcons (by simpa using hlast)
      rw [cons_append, cons_append, splitFirst, if_neg hne]
      rw [cons_append] at ih
      rw [ih]

lemma splitFirst_append_of_last (h : hasDouble c (w ++ [c]) = false)
    (rest : List α) : splitFirst c (w ++ c :: c :: c :: rest) = (w, some (c :: rest)) := by
  have hw : hasDouble c w = false ∧ w.getLast? ≠ some c := by
    induction w with
    | nil => simp [hasDouble]
    | cons x w ih =>
      obtain ⟨hd, hl⟩ := ih (hasDouble_cons h)
      cases w with
      | nil =>
        refine ⟨rfl, ?_⟩
        rintro hx
        simp [hasDouble] at h hx
        exact h hx
      | cons y w =>
        rw [cons_append, cons_append, hasDouble, Bool.or_eq_false_iff] at h
        refine ⟨?_, by simpa using hl⟩
        rw [hasDouble, h.1, Bool.false_or, hd]
  exact splitFirst_append hw.1 hw.2 (c :: rest)

lemma split_join_iff {ws : List (List α)} (hne : ws ≠ []) (h : ∀ w ∈ ws, hasDouble c w = false) :
    split c (join c ws) = ws ↔ ∀ w ∈ ws.dropLast, w.getLast? ≠ some c := by
  induction ws with
  | nil => exact absurd rfl hne
  | cons w ws ih =>
    obtain ⟨hw, hws⟩ := forall_mem_cons.mp h
    cases ws with
    | nil =>
      have hsplit : split c w = [w] := by rw [split_eq, splitFirst_word hw]; rfl
      simp [join, hsplit]
    | cons v vs =>
      have hvs : v :: vs ≠ [] := cons_ne_nil v vs
      rw [join_cons c hvs, dropLast_cons_of_ne_nil hvs, forall_mem_cons, ← ih hvs hws]
      by_cases hlast : w.getLast? = some c
      · obtain ⟨u, rfl⟩ := getLast?_eq_some_iff.mp hlast
        refine iff_of_false (fun hsplit => ?_) (fun hboth => hboth.1 hlast)
        rw [split_eq, append_assoc, singleton_append, splitFirst_append_of_last hw] at hsplit
        have hlen := congrArg List.length (List.cons.inj hsplit).1
        simp at hlen
      · rw [split_eq, splitFirst_append hw hlast]
        simp [hlast]

lemma splitFirst_getLast {xs : List α} (h : (splitFirst c xs).2.isSome) :
    (splitFirst c xs).1.getLast? ≠ some c := by
  induction xs using splitFirst.induct c with
  | case1 x y rest hxy => simp [splitFirst, hxy]
  | case2 x y rest hne ih =>
    rw [splitFirst, if_neg hne] at h ⊢
    have ih := ih h
    change (x :: (splitFirst c (y :: rest)).1).getLast? ≠ some c
    cases hfst : (splitFirst c (y :: rest)).1 with
    | nil =>
      have hy : y = c := by
        cases rest with
        | nil => simp [splitFirst] at h
        | cons z rest =>
          rw [splitFirst] at hfst
          split_ifs at hfst with hyz
          exact hyz.1
      exact fun hx => hne ⟨by simpa using hx, hy⟩
    | cons w ws =>
      rw [hfst] at ih
      rw [getLast?_cons_cons]
      exact ih
  | case3 => simp_all [splitFirst]

omit [DecidableEq α] in
lemma triple_infix_iff {xs : List α} :
    [c, c, c] <:+: xs ↔ ∃ i, xs[i]? = some c ∧ xs[i + 1]? = some c ∧ xs[i + 2]? = some c := by
  rw [infix_iff_getElem?]
  constructor
  · rintro ⟨k, -, h⟩
    refine ⟨k, ?_, ?_, ?_⟩
    · simpa using h 0 (by simp)
    · simpa [Nat.add_comm] using h 1 (by simp)
    · simpa [Nat.add_comm] using h 2 (by simp)
  · rintro ⟨k, h0, h1, h2⟩
    obtain ⟨hlt, -⟩ := List.getElem?_eq_some_iff.mp h2
    refine ⟨k, by simp; omega, fun i hi => ?_⟩
    have hi : i < 3 := hi
    obtain rfl | rfl | rfl : i = 0 ∨ i = 1 ∨ i = 2 := by omega
    · simpa using h0
    · simpa [Nat.add_comm] using h1
    · simpa [Nat.add_comm] using h2

omit [DecidableEq α] in
lemma not_triple_append {p q : List α} (hp : ¬[c, c, c] <:+: p) (hq : ¬[c, c, c] <:+: q)
    (hlast : p.getLast? ≠ some c) (hhead : q.head? ≠ some c) : ¬[c, c, c] <:+: p ++ c :: c :: q := by
  rw [triple_infix_iff] at hp hq ⊢
  rintro ⟨i, h0, h1, h2⟩
  have hat : ∀ j, p.length + 2 ≤ j → (p ++ c :: c :: q)[j]? = q[j - (p.length + 2)]? := by
    intro j hj
    obtain ⟨k, rfl⟩ := Nat.exists_eq_add_of_le hj
    rw [getElem?_append_right (by omega), show p.length + 2 + k - p.length = k + 2 by omega,
      Nat.add_sub_cancel_left]
    rfl
  have hbefore : ∀ j, j < p.length → (p ++ c :: c :: q)[j]? = p[j]? := fun j hj =>
    getElem?_append_left hj
  have hend : ∀ j, j + 1 = p.length → (p ++ c :: c :: q)[j]? ≠ some c := by
    intro j hj
    rw [hbefore j (by omega)]
    rw [getLast?_eq_getElem?, ← hj] at hlast
    exact hlast
  have hstart : ∀ j, j = p.length + 2 → (p ++ c :: c :: q)[j]? ≠ some c := by
    rintro j rfl
    rw [hat _ le_rfl, Nat.sub_self, ← head?_eq_getElem?]
    exact hhead
  by_cases hin : i + 2 < p.length
  · exact hp ⟨i, by rw [← hbefore i (by omega)]; exact h0,
      by rw [← hbefore _ (by omega)]; exact h1, by rw [← hbefore _ hin]; exact h2⟩
  by_cases hout : p.length + 2 ≤ i
  · refine hq ⟨i - (p.length + 2), ?_, ?_, ?_⟩
    · rw [← hat i hout]
      exact h0
    · rw [hat _ (by omega), show i + 1 - (p.length + 2) = i - (p.length + 2) + 1 by omega] at h1
      exact h1
    · rw [hat _ (by omega), show i + 2 - (p.length + 2) = i - (p.length + 2) + 2 by omega] at h2
      exact h2
  · obtain h | h | h | h : i + 1 = p.length ∨ i + 2 = p.length ∨ i = p.length ∨ i = p.length + 1 := by omega
    · exact hend i h h0
    · exact hend (i + 1) h h1
    · exact hstart (i + 2) (by omega) h2
    · exact hstart (i + 1) (by omega) h1

lemma not_triple_of_not_double (h : hasDouble c w = false) : ¬[c, c, c] <:+: w := by
  rintro ⟨s, t, rfl⟩
  induction s with
  | nil => simp [hasDouble] at h
  | cons x s ih => exact ih (hasDouble_cons h)

omit [DecidableEq α] in
lemma triple_append {p q : List α} (hlast : p.getLast? = some c) : [c, c, c] <:+: p ++ c :: c :: q := by
  obtain ⟨u, rfl⟩ := getLast?_eq_some_iff.mp hlast
  exact ⟨u, q, by simp⟩

end Words
end DoubledSeparator
