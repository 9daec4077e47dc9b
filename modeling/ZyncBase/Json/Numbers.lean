import Mathlib.Data.List.Induction
import Mathlib.Data.Nat.Digits.Lemmas
import ZyncBase.Json.Read
import ZyncBase.Json.Write

/-! Numbers that the writer prints read back as they are: integers of 64 bits, and finite doubles. -/
namespace ZyncBase

open List
namespace JsonRead

open JsonWrite

section Digits

lemma isDigit_digit {n : ℕ} (h : n < 10) : isDigit (digit n) = true ∧ (digit n).toNat - 48 = n := by
  revert n
  decide

lemma digitsValue_append (a b : Bytes) :
    digitsValue (a ++ b) = digitsValue a * 10 ^ b.length + digitsValue b := by
  induction b using List.reverseRecOn with
  | nil => simp [digitsValue]
  | append_singleton b c ih =>
    rw [← append_assoc]
    simp only [digitsValue, foldl_append, foldl_cons, foldl_nil] at ih ⊢
    rw [ih, length_append, length_singleton, Nat.pow_succ]
    ring

lemma digitsValue_map_reverse {ds : List ℕ} (h : ∀ d ∈ ds, d < 10) :
    digitsValue (ds.map digit).reverse = Nat.ofDigits 10 ds := by
  induction ds with
  | nil => rfl
  | cons d ds ih =>
    obtain ⟨hd, hds⟩ := forall_mem_cons.mp h
    have hlast : digitsValue [digit d] = d := by
      simpa [digitsValue] using (isDigit_digit hd).2
    rw [map_cons, reverse_cons, digitsValue_append, ih hds, hlast, Nat.ofDigits_cons,
      length_singleton, Nat.pow_one]
    omega

@[simp] lemma digitsValue_digits (n : ℕ) : digitsValue (digits n) = n := by
  unfold digits
  split_ifs with h
  · rw [h]
    rfl
  · rw [digitsValue_map_reverse fun d hd => Nat.digits_lt_base (by decide) hd, Nat.ofDigits_digits]

lemma isDigit_of_mem_digits {n : ℕ} {c : UInt8} (h : c ∈ digits n) : isDigit c = true := by
  unfold digits at h
  split_ifs at h with hn
  · cases mem_singleton.mp h
    rfl
  · obtain ⟨d, hd, rfl⟩ := mem_map.mp (mem_reverse.mp h)
    exact (isDigit_digit (Nat.digits_lt_base (by decide) hd)).1

lemma exists_digits (n : ℕ) : digits n = [48] ∨ ∃ c cs, digits n = c :: cs ∧ c ≠ 48 ∧ isDigit c = true := by
  by_cases hn : n = 0
  · exact .inl (if_pos hn)
  · refine .inr ?_
    have hne : Nat.digits 10 n ≠ [] := Nat.digits_ne_nil_iff_ne_zero.mpr hn
    have hlast := Nat.getLast_digit_ne_zero 10 hn
    have hsplit := dropLast_append_getLast hne
    generalize (Nat.digits 10 n).getLast hne = d at hlast hsplit
    have hd : d < 10 := Nat.digits_lt_base (b := 10) (by decide)
      (hsplit ▸ mem_append_right _ (mem_singleton_self d) : d ∈ Nat.digits 10 n)
    refine ⟨digit d, (((Nat.digits 10 n).dropLast).map digit).reverse, ?_, ?_, (isDigit_digit hd).1⟩
    · rw [digits, if_neg hn, ← hsplit]
      simp
    · intro hzero
      have hvalue := (isDigit_digit hd).2
      rw [hzero] at hvalue
      exact hlast hvalue.symm

lemma length_fixedDigits (places n : ℕ) : (fixedDigits places n).length = places := by
  induction places generalizing n with
  | zero => rfl
  | succ places ih => rw [fixedDigits, length_append, ih, length_singleton]

lemma digitsValue_fixedDigits (places n : ℕ) : digitsValue (fixedDigits places n) = n % 10 ^ places := by
  induction places generalizing n with
  | zero => rw [Nat.pow_zero, Nat.mod_one]; rfl
  | succ places ih =>
    have hlast : digitsValue [digit (n % 10)] = n % 10 := by
      simpa [digitsValue] using (isDigit_digit (Nat.mod_lt n (by decide))).2
    rw [fixedDigits, digitsValue_append, ih, hlast, Nat.pow_succ', Nat.mod_mul, length_singleton, Nat.pow_one]
    omega

lemma isDigit_of_mem_fixedDigits {places n : ℕ} {c : UInt8} (h : c ∈ fixedDigits places n) :
    isDigit c = true := by
  induction places generalizing n with
  | zero => cases h
  | succ places ih =>
    obtain h | h := mem_append.mp h
    · exact ih h
    · cases mem_singleton.mp h
      exact (isDigit_digit (Nat.mod_lt n (by decide))).1

end Digits

/-- What follows a value: nothing, a comma or a closing bracket. -/
def Ends (rest : Bytes) : Prop := ∀ c ∈ rest.head?, c = 44 ∨ c = 93 ∨ c = 125

/-- The digits in front of it are complete. -/
def Stops (rest : Bytes) : Prop := ∀ c ∈ rest.head?, isDigit c = false

section Numbers

variable {rest : Bytes}

lemma Ends.stops (h : Ends rest) : Stops rest := by
  intro c hc
  obtain rfl | rfl | rfl := h c hc <;> rfl

lemma readDigits_append {ds : Bytes} (hds : ∀ c ∈ ds, isDigit c = true) (hrest : Stops rest) :
    readDigits (ds ++ rest) = (ds, rest) := by
  have htake : rest.takeWhile isDigit = [] ∧ rest.dropWhile isDigit = rest := by
    cases rest with
    | nil => exact ⟨rfl, rfl⟩
    | cons c rest =>
      have hc := hrest c rfl
      exact ⟨by rw [takeWhile_cons, hc]; rfl, by rw [dropWhile_cons, hc]; rfl⟩
  rw [readDigits, takeWhile_append_of_pos hds, dropWhile_append_of_pos hds, htake.1, htake.2, append_nil]

lemma readWhole_digits (n : ℕ) (hrest : Stops rest) : readWhole (digits n ++ rest) = some (digits n, rest) := by
  obtain hzero | ⟨c, cs, hdigits, hc, hdigit⟩ := exists_digits n
  · rw [hzero]
    rfl
  · have hread := readDigits_append (fun c hc => isDigit_of_mem_digits (n := n) hc) hrest
    rw [hdigits] at hread ⊢
    rw [cons_append] at hread ⊢
    rw [readWhole, if_neg hc, if_pos hdigit, hread]

lemma readFraction_ends (h : Ends rest) : readFraction rest = some ([], rest) := by
  cases rest with
  | nil => rfl
  | cons c rest => obtain rfl | rfl | rfl := h c rfl <;> rfl

lemma readExponent_ends (h : Ends rest) : readExponent rest = some (none, rest) := by
  cases rest with
  | nil => rfl
  | cons c rest => obtain rfl | rfl | rfl := h c rfl <;> rfl

lemma readFraction_point {ds : Bytes} (hds : ∀ c ∈ ds, isDigit c = true) (hne : ds ≠ [])
    (hrest : Stops rest) : readFraction (46 :: ds ++ rest) = some (ds, rest) := by
  rw [cons_append, readFraction, if_pos rfl, readDigits_append hds hrest, if_neg hne]

lemma sign_digits (negative : Bool) (n : ℕ) (rest : Bytes) :
    (decide ((sign negative ++ (digits n ++ rest)).head? = some 45)) = negative ∧
      (if negative then (sign negative ++ (digits n ++ rest)).tail
        else sign negative ++ (digits n ++ rest)) = digits n ++ rest := by
  cases negative with
  | true => exact ⟨rfl, rfl⟩
  | false =>
    refine ⟨?_, rfl⟩
    obtain hzero | ⟨c, cs, hdigits, -, hdigit⟩ := exists_digits n
    · rw [hzero]
      rfl
    · rw [hdigits]
      refine decide_eq_false ?_
      rintro hc
      cases hc
      cases hdigit

lemma digits_eq_zero {n : ℕ} (h : digits n = [48]) : n = 0 := by
  rw [← digitsValue_digits n, h]
  rfl

lemma readNumber_integer {v : ℤ} (hmin : -2 ^ 63 ≤ v) (hmax : v < 2 ^ 63) (hrest : Ends rest) :
    readNumber (integerText v ++ rest) = some (.integer v, rest) := by
  obtain ⟨hsign, hunsigned⟩ := sign_digits (decide (v < 0)) v.natAbs rest
  have hvalue : (if v < 0 then -(v.natAbs : ℤ) else v.natAbs) = v := by
    split_ifs <;> omega
  have hnotZero : ¬ (v < 0 ∧ digits v.natAbs = [48]) := by
    rintro ⟨hneg, hzero⟩
    have := digits_eq_zero hzero
    omega
  rw [integerText, append_assoc]
  simp only [readNumber, hsign, hunsigned, readWhole_digits _ hrest.stops, readFraction_ends hrest,
    readExponent_ends hrest, Option.bind_eq_bind, Option.bind_some]
  simp only [numberValue, decide_eq_true_eq, hnotZero, not_false_eq_true, and_self, if_true,
    digitsValue_digits, hvalue, hmin, hmax]

lemma readNumber_decimal (negative : Bool) {d : DoubleText.Decimal} (hplaces : d.places ≠ 0)
    {r : Real64} (hnegative : r.negative = negative) (hmagnitude : d.nearest = r.magnitude)
    (hrest : Ends rest) : readNumber (sign negative ++ decimalText d ++ rest) = some (.float r, rest) := by
  have hdigits : ∀ c ∈ fixedDigits d.places d.fraction, isDigit c = true :=
    fun c hc => isDigit_of_mem_fixedDigits hc
  have hne : fixedDigits d.places d.fraction ≠ [] := by
    rw [ne_eq, ← length_eq_zero_iff, length_fixedDigits]
    exact hplaces
  have hvalue : digitsValue (digits d.whole ++ fixedDigits d.places d.fraction) =
      d.whole * 10 ^ d.places + d.fraction := by
    rw [digitsValue_append, digitsValue_digits, length_fixedDigits, digitsValue_fixedDigits,
      Nat.mod_eq_of_lt d.fraction_lt]
  obtain ⟨hsign, hunsigned⟩ := sign_digits negative d.whole (46 :: fixedDigits d.places d.fraction ++ rest)
  have hpoint : Stops (46 :: fixedDigits d.places d.fraction ++ rest) := by
    intro c hc
    cases hc
    rfl
  rw [decimalText, if_neg hplaces, append_assoc, append_assoc]
  simp only [readNumber, hsign, hunsigned, readWhole_digits _ hpoint,
    readFraction_point hdigits hne hrest.stops, readExponent_ends hrest, Option.bind_eq_bind,
    Option.bind_some]
  have hmag : DoubleText.nearest ((d.whole * 10 ^ d.places + d.fraction) * 10 ^ (-(d.places : ℤ)).toNat)
      (10 ^ (d.places : ℤ).toNat) = r.magnitude := by
    rw [show (-(d.places : ℤ)).toNat = 0 by omega, Int.toNat_natCast, Nat.pow_zero, Nat.mul_one]
    exact hmagnitude
  simp only [numberValue, hne, false_and, if_false, hvalue, length_fixedDigits, Option.getD_none,
    zero_sub, neg_neg, hmag, dif_pos r.finite]
  rw [← hnegative]

lemma withPoint_places (d : DoubleText.Decimal) : d.withPoint.places ≠ 0 := by
  unfold DoubleText.Decimal.withPoint
  split_ifs with h
  · exact Nat.one_ne_zero
  · exact h

lemma readNumber_real (r : Real64) (hrest : Ends rest) :
    readNumber (sign r.negative ++ decimalText (DoubleText.shortest r.magnitude).withPoint ++ rest) =
      some (.float r, rest) := by
  refine readNumber_decimal r.negative (withPoint_places _) rfl ?_ hrest
  rw [DoubleText.nearest_withPoint, DoubleText.nearest_shortest]

end Numbers

end JsonRead
end ZyncBase
