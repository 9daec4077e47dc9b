import Mathlib.Data.Nat.Log
import Mathlib.Order.Monotone.Basic
import Mathlib.Tactic.Ring

/-! Finite doubles as decimal numbers: the double nearest to a decimal number, and the shortest decimal
number that reads back as a double. A double without its sign is the number of its bits. -/
namespace DoubleText

/-- The bits of the infinite double, above those of all finite ones. -/
def infinite : ℕ := 0x7FF0000000000000

/-- The binary places of the least positive double. -/
def leastPlaces : ℕ := 1074

/-- The least positive double is one part in so many. -/
def scale : ℕ := 2 ^ leastPlaces

/-- The value of a double, in units of the least positive one. -/
def units (magnitude : ℕ) : ℕ :=
  if magnitude < 2 ^ 52 then magnitude
  else (2 ^ 52 + magnitude % 2 ^ 52) * 2 ^ (magnitude / 2 ^ 52 - 1)

/-- The double nearest to a quotient, ties to even; it is not finite when the quotient is too large. -/
def nearest (num den : ℕ) : ℕ :=
  let scaled := num * scale
  let places := (scaled / den).log2 - 52
  let divisor := den * 2 ^ places
  let significand := scaled / divisor
  let rest := scaled % divisor
  let roundsUp := divisor < 2 * rest ∨ 2 * rest = divisor ∧ significand % 2 = 1
  places * 2 ^ 52 + if roundsUp then significand + 1 else significand

/-- A decimal number with a number of places after the point. -/
structure Decimal where
  whole : ℕ
  places : ℕ
  fraction : ℕ
  fraction_lt : fraction < 10 ^ places
  deriving DecidableEq

namespace Decimal

def ofNat (n : ℕ) : Decimal := ⟨n, 0, 0, Nat.one_pos⟩

def ofParts (n places : ℕ) : Decimal :=
  ⟨n / 10 ^ places, places, n % 10 ^ places, Nat.mod_lt _ (Nat.pow_pos (by decide))⟩

def nearest (d : Decimal) : ℕ :=
  DoubleText.nearest (d.whole * 10 ^ d.places + d.fraction) (10 ^ d.places)

def ofScaled (n : ℕ) (e : ℤ) : Decimal :=
  if 0 ≤ e then ofNat (n * 10 ^ e.toNat) else ofParts n (-e).toNat

/-- Where there is no fraction, one place is written. -/
def withPoint (d : Decimal) : Decimal := if d.places = 0 then ⟨d.whole, 1, 0, by decide⟩ else d

end Decimal

/-- The position of the first decimal digit of a positive quotient. -/
def decimalExponent (num den : ℕ) : ℤ :=
  if den ≤ num then (Nat.log 10 (num / den) : ℤ)
  else -(Nat.clog 10 ((den + num - 1) / num) : ℤ)

/-- The decimal numbers with so many digits next to a quotient, the nearer one first. -/
def nearby (num den digits : ℕ) : List Decimal :=
  let e := decimalExponent num den - digits + 1
  let scaledNum := num * 10 ^ (-e).toNat
  let scaledDen := den * 10 ^ e.toNat
  let below := Decimal.ofScaled (scaledNum / scaledDen) e
  let above := Decimal.ofScaled (scaledNum / scaledDen + 1) e
  if 2 * (scaledNum % scaledDen) ≤ scaledDen then [below, above] else [above, below]

def exact (magnitude : ℕ) : Decimal := .ofParts (units magnitude * 5 ^ leastPlaces) leastPlaces

/-- The decimal number with the fewest digits that reads back as the double, and of these the nearest
to it. -/
def shortest (magnitude : ℕ) : Decimal :=
  if magnitude = 0 then .ofNat 0
  else
    (((List.range 17).flatMap fun digits => nearby (units magnitude) scale (digits + 1)).find?
      fun d => d.nearest = magnitude).getD (exact magnitude)

section Rounding

lemma scale_pos : 0 < scale := Nat.two_pow_pos leastPlaces

lemma units_lt_succ (magnitude : ℕ) : units magnitude < units (magnitude + 1) := by
  unfold units
  by_cases hsmall : magnitude + 1 < 2 ^ 52
  · rw [if_pos hsmall, if_pos (by omega)]
    exact Nat.lt_succ_self _
  rw [if_neg hsmall]
  by_cases hlast : magnitude < 2 ^ 52
  · have hedge : magnitude = 2 ^ 52 - 1 := by omega
    rw [if_pos hlast, hedge]
    decide
  rw [if_neg hlast]
  obtain ⟨q, hq⟩ : ∃ q, magnitude / 2 ^ 52 = q + 1 := ⟨magnitude / 2 ^ 52 - 1, by omega⟩
  have hmod := Nat.mod_lt magnitude (Nat.two_pow_pos 52)
  have hpow := Nat.two_pow_pos q
  by_cases hcarry : magnitude % 2 ^ 52 + 1 < 2 ^ 52
  · have hdiv : (magnitude + 1) / 2 ^ 52 = q + 1 := by omega
    have hrest : (magnitude + 1) % 2 ^ 52 = magnitude % 2 ^ 52 + 1 := by omega
    rw [hdiv, hq, hrest]
    exact Nat.mul_lt_mul_of_pos_right (by omega) hpow
  · have hdiv : (magnitude + 1) / 2 ^ 52 = q + 2 := by omega
    have hrest : (magnitude + 1) % 2 ^ 52 = 0 := by omega
    have hdouble : (2 ^ 52 + 0) * 2 ^ (q + 1) = 2 ^ 53 * 2 ^ q := by ring
    rw [hdiv, hq, hrest, show q + 2 - 1 = q + 1 by omega, Nat.add_sub_cancel, hdouble]
    exact Nat.mul_lt_mul_of_pos_right (by omega) hpow

lemma units_strictMono : StrictMono units := strictMono_nat_of_lt_succ units_lt_succ

lemma nearest_mul (num den : ℕ) {k : ℕ} (hk : 0 < k) : nearest (num * k) (den * k) = nearest num den := by
  have hscaled : num * k * scale = num * scale * k := by ring
  have hplaces : num * scale * k / (den * k) = num * scale / den := Nat.mul_div_mul_right _ _ hk
  have hdivisor (p : ℕ) : den * k * 2 ^ p = den * 2 ^ p * k := by ring
  have hquotient (p : ℕ) : num * scale * k / (den * 2 ^ p * k) = num * scale / (den * 2 ^ p) :=
    Nat.mul_div_mul_right _ _ hk
  have hrest (p : ℕ) : num * scale * k % (den * 2 ^ p * k) = num * scale % (den * 2 ^ p) * k :=
    Nat.mul_mod_mul_right k _ _
  have hdouble (a b : ℕ) : (a * k < 2 * (b * k) ↔ a < 2 * b) ∧ (2 * (b * k) = a * k ↔ 2 * b = a) := by
    rw [← Nat.mul_assoc]
    exact ⟨Nat.mul_lt_mul_right hk, Nat.mul_left_inj (Nat.pos_iff_ne_zero.mp hk)⟩
  simp only [nearest, hscaled, hplaces, hdivisor, hquotient, hrest, hdouble]

lemma exists_units (magnitude : ℕ) : ∃ significand places,
    units magnitude = significand * 2 ^ places ∧ magnitude = places * 2 ^ 52 + significand ∧
      (units magnitude).log2 - 52 = places := by
  unfold units
  split_ifs with hsmall
  · refine ⟨magnitude, 0, by simp, by simp, ?_⟩
    by_cases hzero : magnitude = 0
    · simp [hzero]
    · have hlog := (Nat.log2_lt hzero).mpr hsmall
      omega
  · refine ⟨2 ^ 52 + magnitude % 2 ^ 52, magnitude / 2 ^ 52 - 1, rfl, by omega, ?_⟩
    have hmod := Nat.mod_lt magnitude (Nat.two_pow_pos 52)
    generalize magnitude % 2 ^ 52 = r at hmod
    generalize magnitude / 2 ^ 52 - 1 = t
    have hpow := Nat.two_pow_pos t
    have hne : (2 ^ 52 + r) * 2 ^ t ≠ 0 := Nat.mul_ne_zero (by omega) hpow.ne'
    have hlog : ((2 ^ 52 + r) * 2 ^ t).log2 = t + 52 := by
      refine (Nat.log2_eq_iff hne).mpr ⟨?_, ?_⟩
      · rw [Nat.add_comm, Nat.pow_add]
        exact Nat.mul_le_mul_right _ (by omega)
      · rw [show t + 52 + 1 = 53 + t by omega, Nat.pow_add]
        exact Nat.mul_lt_mul_of_pos_right (by omega) hpow
    omega

lemma nearest_units (magnitude : ℕ) : nearest (units magnitude) scale = magnitude := by
  obtain ⟨significand, places, hunits, hmagnitude, hplaces⟩ := exists_units magnitude
  have hpos : 0 < scale * 2 ^ places := Nat.mul_pos scale_pos (Nat.two_pow_pos places)
  have hscaled : units magnitude * scale = significand * (scale * 2 ^ places) := by
    rw [hunits]
    ring
  have hfirst : units magnitude * scale / scale = units magnitude := Nat.mul_div_cancel _ scale_pos
  simp only [nearest, hfirst, hplaces]
  rw [hscaled, Nat.mul_div_cancel _ hpos, Nat.mul_mod_left, if_neg (by omega)]
  exact hmagnitude.symm

lemma nearest_ofParts (n places : ℕ) : (Decimal.ofParts n places).nearest = nearest n (10 ^ places) := by
  rw [Decimal.nearest]
  exact congrArg (nearest · _) (Nat.div_add_mod' n (10 ^ places))

lemma nearest_exact (magnitude : ℕ) : (exact magnitude).nearest = magnitude := by
  have hten : 10 ^ leastPlaces = scale * 5 ^ leastPlaces := by
    rw [scale, ← Nat.mul_pow]
  rw [exact, nearest_ofParts, hten, nearest_mul _ _ (Nat.pow_pos (by decide)), nearest_units]

lemma nearest_shortest (magnitude : ℕ) : (shortest magnitude).nearest = magnitude := by
  unfold shortest
  split_ifs with hzero
  · rw [hzero]
    simp [Decimal.nearest, Decimal.ofNat, nearest]
  · generalize hfound : List.find? _ _ = found
    cases found with
    | none =>
      rw [Option.getD_none]
      exact nearest_exact magnitude
    | some d => simpa using List.find?_some hfound

lemma nearest_withPoint (d : Decimal) : d.withPoint.nearest = d.nearest := by
  unfold Decimal.withPoint
  split_ifs with hplaces
  · obtain ⟨whole, places, fraction, hfraction⟩ := d
    cases hplaces
    obtain rfl : fraction = 0 := by simpa using hfraction
    have hmul := nearest_mul whole 1 (by decide : 0 < 10)
    rw [Nat.one_mul] at hmul
    simpa only [Decimal.nearest, Nat.pow_zero, Nat.pow_one, Nat.add_zero, Nat.mul_one] using hmul
  · rfl

end Rounding

end DoubleText
