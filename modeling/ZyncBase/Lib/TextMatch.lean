import Mathlib.Data.List.Infix

/-! Matching of texts up to a folding of their characters: prefixes, suffixes, substrings, and
the patterns of SQL's LIKE with an escape character. -/
namespace TextMatch

open List

variable {α : Type*} [DecidableEq α] (fold : α → α)

def eqlFold (a b : List α) : Bool := a.map fold = b.map fold

def startsWithFold (haystack needle : List α) : Bool :=
  needle.length ≤ haystack.length && eqlFold fold (haystack.take needle.length) needle

def endsWithFold (haystack needle : List α) : Bool :=
  needle.length ≤ haystack.length && eqlFold fold (haystack.drop (haystack.length - needle.length)) needle

/-- Position of the first occurrence of the needle. -/
def indexOfFold (haystack needle : List α) : Option ℕ :=
  (List.range (haystack.length + 1)).find? fun i => startsWithFold fold (haystack.drop i) needle

lemma startsWithFold_iff (h n : List α) : startsWithFold fold h n ↔ n.map fold <+: h.map fold := by
  simp only [startsWithFold, eqlFold, Bool.and_eq_true, decide_eq_true_eq,
    prefix_iff_eq_take, length_map, ← map_take]
  constructor
  · rintro ⟨-, he⟩
    exact he.symm
  · intro he
    have hl := congrArg List.length he
    simp only [length_map, length_take] at hl
    exact ⟨by omega, he.symm⟩

lemma endsWithFold_iff (h n : List α) : endsWithFold fold h n ↔ n.map fold <:+ h.map fold := by
  simp only [endsWithFold, eqlFold, Bool.and_eq_true, decide_eq_true_eq,
    suffix_iff_eq_drop, length_map, ← map_drop]
  constructor
  · rintro ⟨-, he⟩
    exact he.symm
  · intro he
    have hl := congrArg List.length he
    simp only [length_map, length_drop] at hl
    exact ⟨by omega, he.symm⟩

lemma indexOfFold_isSome_iff (h n : List α) : (indexOfFold fold h n).isSome ↔ n.map fold <:+: h.map fold := by
  rw [indexOfFold, List.find?_isSome]
  constructor
  · rintro ⟨i, -, hi⟩
    rw [startsWithFold_iff, map_drop] at hi
    exact hi.isInfix.trans (drop_suffix _ _).isInfix
  · rintro ⟨s, t, hst⟩
    refine ⟨s.length, ?_, ?_⟩
    · have hl := congrArg List.length hst
      simp only [length_append, length_map] at hl
      exact mem_range.mpr (by omega)
    · rw [startsWithFold_iff, map_drop, ← hst]
      simp [append_assoc]

/-- One element of a LIKE pattern. -/
inductive Token (α : Type*) where
  | any
  | one
  | lit (c : α)
  deriving DecidableEq, Repr

/-- The special characters of a LIKE pattern. -/
structure Syntax (α : Type*) where
  any : α
  one : α
  esc : α

/-- Read a pattern. A character after the escape stands for itself; a pattern that ends in the
escape character matches nothing. -/
def Syntax.tokens (s : Syntax α) : List α → Option (List (Token α))
  | [] => some []
  | c :: cs =>
    if c = s.esc then
      match cs with
      | [] => none
      | d :: ds => (Syntax.tokens s ds).map (Token.lit d :: ·)
    else if c = s.any then (Syntax.tokens s cs).map (Token.any :: ·)
    else if c = s.one then (Syntax.tokens s cs).map (Token.one :: ·)
    else (Syntax.tokens s cs).map (Token.lit c :: ·)

/-- Does the whole text match the tokens? -/
def accepts : List (Token α) → List α → Bool
  | [], t => t.isEmpty
  | .any :: ps, t => t.tails.any (accepts ps)
  | .one :: _, [] => false
  | .one :: ps, _ :: t => accepts ps t
  | .lit _ :: _, [] => false
  | .lit c :: ps, d :: t => fold c = fold d && accepts ps t

def like (s : Syntax α) (text pattern : List α) : Bool :=
  match s.tokens pattern with
  | none => false
  | some ts => accepts fold ts text

/-- Put the escape character before every special character. -/
def Syntax.escape (s : Syntax α) (text : List α) : List α :=
  text.flatMap fun c => if c = s.any ∨ c = s.one ∨ c = s.esc then [s.esc, c] else [c]

lemma tokens_cons_any (s : Syntax α) (h : s.any ≠ s.esc) (cs : List α) :
    s.tokens (s.any :: cs) = (s.tokens cs).map (Token.any :: ·) := by
  cases cs <;> simp [Syntax.tokens, h]

lemma tokens_nil (s : Syntax α) : s.tokens [] = some [] := rfl

lemma tokens_cons_lit (s : Syntax α) (c : α) (cs : List α) (ha : c ≠ s.any) (ho : c ≠ s.one)
    (he : c ≠ s.esc) : s.tokens (c :: cs) = (s.tokens cs).map (Token.lit c :: ·) := by
  cases cs <;> simp [Syntax.tokens, ha, ho, he]

lemma tokens_escape_append (s : Syntax α) (text rest : List α) :
    s.tokens (s.escape text ++ rest) = (s.tokens rest).map (text.map Token.lit ++ ·) := by
  induction text with
  | nil => simp [Syntax.escape]
  | cons c cs ih =>
    have hcs : s.escape (c :: cs) =
        (if c = s.any ∨ c = s.one ∨ c = s.esc then [s.esc, c] else [c]) ++ s.escape cs := rfl
    rw [hcs]
    split_ifs with h
    · simp only [cons_append, nil_append, Syntax.tokens, if_true, ih, Option.map_map]
      rfl
    · push Not at h
      simp only [cons_append, nil_append, tokens_cons_lit s c _ h.1 h.2.1 h.2.2, ih, Option.map_map]
      rfl

lemma accepts_any_cons (ps : List (Token α)) (t : List α) :
    accepts fold (.any :: ps) t ↔ ∃ u, u <:+ t ∧ accepts fold ps u := by
  simp only [accepts, any_eq_true, mem_tails]

lemma accepts_any (t : List α) : accepts fold [.any] t :=
  (accepts_any_cons fold [] t).mpr ⟨[], nil_suffix, rfl⟩

lemma accepts_lit_append (lits : List α) (ps : List (Token α)) (t : List α) :
    accepts fold (lits.map Token.lit ++ ps) t ↔
      lits.map fold <+: t.map fold ∧ accepts fold ps (t.drop lits.length) := by
  induction lits generalizing t with
  | nil => simp
  | cons c cs ih =>
    cases t with
    | nil => simp [accepts]
    | cons d t => simp [accepts, ih, cons_prefix_cons, and_assoc]

lemma like_prefix (s : Syntax α) (hae : s.any ≠ s.esc) (text needle : List α) :
    like fold s text (s.escape needle ++ [s.any]) = startsWithFold fold text needle := by
  rw [Bool.eq_iff_iff, startsWithFold_iff]
  simp only [like, tokens_escape_append, tokens_cons_any s hae, tokens_nil, Option.map_some]
  rw [accepts_lit_append]
  simp [accepts_any]

lemma accepts_lits (lits t : List α) : accepts fold (lits.map Token.lit) t ↔ lits.map fold = t.map fold := by
  have h := accepts_lit_append fold lits [] t
  rw [List.append_nil] at h
  rw [h]
  simp only [accepts, List.isEmpty_iff, List.drop_eq_nil_iff]
  constructor
  · rintro ⟨hp, hl⟩
    exact hp.eq_of_length_le (by simpa using hl)
  · intro he
    exact ⟨he ▸ List.prefix_refl _, by simpa using (congrArg List.length he).ge⟩

lemma like_suffix (s : Syntax α) (hae : s.any ≠ s.esc) (text needle : List α) :
    like fold s text (s.any :: s.escape needle) = endsWithFold fold text needle := by
  rw [Bool.eq_iff_iff, endsWithFold_iff]
  have ht := tokens_escape_append s needle []
  simp only [append_nil, Syntax.tokens, Option.map_some] at ht
  simp only [like, tokens_cons_any s hae, ht, Option.map_some, accepts_any_cons, accepts_lits]
  constructor
  · rintro ⟨u, hu, he⟩
    rw [he]
    exact hu.map fold
  · rintro ⟨u, hu⟩
    refine ⟨text.drop u.length, drop_suffix _ _, ?_⟩
    rw [map_drop, ← hu, drop_left]

lemma like_infix (s : Syntax α) (hae : s.any ≠ s.esc) (text needle : List α) :
    like fold s text (s.any :: s.escape needle ++ [s.any]) = (indexOfFold fold text needle).isSome := by
  rw [Bool.eq_iff_iff, indexOfFold_isSome_iff]
  simp only [like, cons_append, tokens_cons_any s hae, tokens_escape_append, tokens_nil, Option.map_some]
  rw [accepts_any_cons]
  simp only [accepts_lit_append, accepts_any, and_true]
  constructor
  · rintro ⟨u, hu, hp⟩
    exact hp.isInfix.trans (hu.map fold).isInfix
  · rintro ⟨u, v, huv⟩
    refine ⟨text.drop u.length, drop_suffix _ _, ?_⟩
    rw [map_drop, ← huv, append_assoc, drop_left']
    · exact prefix_append _ _
    · simp

end TextMatch
