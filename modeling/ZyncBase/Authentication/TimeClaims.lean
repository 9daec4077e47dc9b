import Mathlib.Data.Rat.Floor
import Mathlib.Tactic.Linarith
import ZyncBase.Authentication.Claims
import ZyncBase.Lib.DoubleText

/-! The time claims of a token: what the validator makes of numbers that are no integers, near the limits of
64 bits, and the expiry that is read from an accepted token. -/
namespace ZyncBase

open Option

/-- The part of a number before the point. -/
def truncate (q : ℚ) : ℤ := if 0 ≤ q then ⌊q⌋ else ⌈q⌉

namespace Real64

def value (r : Real64) : ℚ :=
  if r.negative then -(DoubleText.units r.magnitude / DoubleText.scale)
  else DoubleText.units r.magnitude / DoubleText.scale

/-- The double nearest to an integer. -/
def ofInt (v : ℤ) (h : Payload.magnitudeOfNat v.natAbs < 0x7FF0000000000000) : Real64 :=
  ⟨v < 0, Payload.magnitudeOfNat v.natAbs, h⟩

/-- The conversion to 64 bits, which is not defined for numbers out of their range. -/
def intFromFloat (r : Real64) : Option ℤ :=
  if -2 ^ 63 ≤ truncate r.value ∧ truncate r.value < 2 ^ 63 then some (truncate r.value) else none

end Real64

def minI64AsF64 : Real64 := .ofInt (-2 ^ 63) (by decide)

def maxI64AsF64 : Real64 := .ofInt (2 ^ 63 - 1) (by decide)

/-- The outer `none` is a conversion out of range. -/
def floatToI64 (f : Real64) : Option (Option ℤ) :=
  if f.order minI64AsF64 = .lt ∨ f.order maxI64AsF64 = .gt then some none else f.intFromFloat.map some

/-- A time claim as the validator reads it. -/
def timeClaim : JsonValue → Option (Option ℤ)
  | .integer v => some (some v)
  | .float f => floatToI64 f
  | _ => some none

def validateTimeClaims (payload : JsonValue) (currentTime : ℤ) : Option Bool :=
  match payload with
  | .object obj =>
    match obj.lookup "exp" with
    | none => some false
    | some expVal => do
      match ← timeClaim expVal with
      | none => some false
      | some exp =>
        if exp ≤ currentTime then some false
        else
          match obj.lookup "nbf" with
          | none => some true
          | some nbfVal => do
            match ← timeClaim nbfVal with
            | none => some false
            | some nbf => if currentTime < nbf then some false else some true
  | _ => some false

def extractExp (payload : JsonValue) : Option ℤ :=
  match payload with
  | .object obj =>
    match obj.lookup "exp" with
    | some (.integer v) => some v
    | some (.float f) => (floatToI64 f).map fun exp => exp.getD 0
    | _ => some 0
  | _ => some 0

namespace JsonValue

/-- The number that a value of 64 bits or a double is. -/
def number? : JsonValue → Option ℚ
  | integer v => some v
  | float f => some f.value
  | _ => none

def member? (name : String) : JsonValue → Option JsonValue
  | object obj => obj.lookup name
  | _ => none

def numberAt? (name : String) (payload : JsonValue) : Option ℚ := (payload.member? name).bind number?

end JsonValue

/-- No conversion is out of range, and what is accepted is valid now and has the expiry that is read. -/
structure TimeChecksExact (payload : JsonValue) (now : ℤ) : Prop where
  converts : validateTimeClaims payload now ≠ none
  accepts : validateTimeClaims payload now = some true →
    ∃ exp, payload.numberAt? "exp" = some exp ∧ now < truncate exp ∧
      (payload.member? "nbf" = none ∨ ∃ nbf, payload.numberAt? "nbf" = some nbf ∧ truncate nbf ≤ now) ∧
      extractExp payload = some (truncate exp)

/-- The double that is one more than the last integer of 64 bits. -/
def IsTwoPow63 (v : JsonValue) : Prop := ∃ f, v = .float f ∧ f.value = 2 ^ 63

/-- The validator reads the double `2 ^ 63`: as `exp`, or as `nbf` of a token that has not expired. -/
def ReadsTwoPow63 (payload : JsonValue) (now : ℤ) : Prop :=
  ∃ v, payload.member? "exp" = some v ∧ (IsTwoPow63 v ∨
    (∃ exp, v.number? = some exp ∧ (∀ f, v = .float f → exp < 2 ^ 63) ∧ now < truncate exp) ∧
      ∃ w, payload.member? "nbf" = some w ∧ IsTwoPow63 w)

section Conversions

open DoubleText

lemma truncate_intCast (v : ℤ) : truncate v = v := by
  unfold truncate
  split_ifs
  · exact Int.floor_intCast v
  · exact Int.ceil_intCast v

lemma le_truncate_iff {q : ℚ} {v : ℤ} (hv : v < 0) : v ≤ truncate q ↔ (v : ℚ) - 1 < q := by
  unfold truncate
  have hv' : (v : ℚ) ≤ -1 := by exact_mod_cast Int.le_sub_one_of_lt hv
  split_ifs with hq
  · rw [Int.le_floor]
    exact iff_of_true (by linarith) (by linarith)
  · rw [Int.le_ceil_iff]

lemma truncate_lt_iff {q : ℚ} {v : ℤ} (hv : 0 < v) : truncate q < v ↔ q < v := by
  unfold truncate
  have hv' : (1 : ℚ) ≤ v := by exact_mod_cast hv
  split_ifs with hq
  · exact Int.floor_lt
  · have hceil : ⌈q⌉ ≤ 0 := Int.ceil_le.mpr (by push_cast; linarith)
    exact iff_of_true (by omega) (by linarith)

lemma truncate_lt_limit (q : ℚ) : truncate q < 2 ^ 63 ↔ q < 2 ^ 63 := by
  have hlimit := truncate_lt_iff (q := q) (v := 2 ^ 63) (by norm_num)
  rwa [Int.cast_pow, Int.cast_ofNat] at hlimit

lemma units_twoPow63 : units (1086 * 2 ^ 52) = 2 ^ 63 * scale := by decide +kernel

lemma magnitude_limits : minI64AsF64.key = -(1086 * 2 ^ 52) ∧ maxI64AsF64.key = 1086 * 2 ^ 52 := by
  decide +kernel

lemma outside_iff (f : Real64) : (f.order minI64AsF64 = .lt ∨ f.order maxI64AsF64 = .gt) ↔
    1086 * 2 ^ 52 < f.magnitude := by
  rw [Real64.order, Real64.order, magnitude_limits.1, magnitude_limits.2, compare_lt_iff_lt,
    compare_gt_iff_gt, Real64.key]
  split_ifs <;> omega

lemma lt_quotient_iff (m : ℕ) : (2 : ℚ) ^ 63 < units m / scale ↔ 1086 * 2 ^ 52 < m := by
  have hscale : (0 : ℚ) < scale := by exact_mod_cast scale_pos
  rw [lt_div_iff₀ hscale, ← units_strictMono.lt_iff_lt, units_twoPow63]
  generalize scale = s
  exact_mod_cast Iff.rfl

lemma quotient_nonneg (m : ℕ) : (0 : ℚ) ≤ units m / scale :=
  div_nonneg (Nat.cast_nonneg _) (Nat.cast_nonneg _)

lemma value_bounds (f : Real64) (h : ¬ 1086 * 2 ^ 52 < f.magnitude) :
    -(2 : ℚ) ^ 63 ≤ f.value ∧ f.value ≤ 2 ^ 63 := by
  have hle := not_lt.mp (mt (lt_quotient_iff f.magnitude).mp h)
  have hnonneg := quotient_nonneg f.magnitude
  unfold Real64.value
  split_ifs
  · exact ⟨by linarith, by linarith⟩
  · exact ⟨by linarith, hle⟩

lemma floatToI64_eq_none (f : Real64) : floatToI64 f = none ↔ f.value = 2 ^ 63 := by
  unfold floatToI64
  by_cases hout : 1086 * 2 ^ 52 < f.magnitude
  · rw [if_pos ((outside_iff f).mpr hout)]
    refine iff_of_false (by simp) fun hvalue => ?_
    have hlt := (lt_quotient_iff f.magnitude).mpr hout
    unfold Real64.value at hvalue
    split_ifs at hvalue
    · linarith
    · linarith
  · rw [if_neg (mt (outside_iff f).mp hout), map_eq_none_iff, Real64.intFromFloat]
    obtain ⟨hge, hle⟩ := value_bounds f hout
    have hlow : -2 ^ 63 ≤ truncate f.value := (le_truncate_iff (by norm_num)).mpr (by push_cast; linarith)
    rw [if_congr (and_iff_right hlow) rfl rfl, if_congr (truncate_lt_limit f.value) rfl rfl]
    split_ifs with hlt
    · exact iff_of_false (by simp) hlt.ne
    · exact iff_of_true rfl (le_antisymm hle (not_lt.mp hlt))

lemma floatToI64_eq_some {f : Real64} {v : ℤ} (h : floatToI64 f = some (some v)) :
    v = truncate f.value ∧ f.value < 2 ^ 63 := by
  unfold floatToI64 at h
  split_ifs at h
  · cases h
  · rw [map_eq_some_iff] at h
    obtain ⟨v', hv', hsome⟩ := h
    cases hsome
    unfold Real64.intFromFloat at hv'
    split_ifs at hv' with hrange
    cases hv'
    exact ⟨rfl, (truncate_lt_limit f.value).mp hrange.2⟩

lemma floatToI64_eq_refused {f : Real64} (h : floatToI64 f = some none) (hlt : f.value < 2 ^ 63) :
    truncate f.value ≤ -2 ^ 63 := by
  unfold floatToI64 at h
  split_ifs at h with hout
  · have hquotient := (lt_quotient_iff f.magnitude).mpr ((outside_iff f).mp hout)
    unfold Real64.value at hlt ⊢
    split_ifs at hlt ⊢
    · unfold truncate
      rw [if_neg (by linarith), Int.ceil_le]
      push_cast
      linarith
    · linarith
  · rw [map_eq_some_iff] at h
    obtain ⟨v', -, hsome⟩ := h
    cases hsome

end Conversions

section Claims

variable {v : JsonValue} {t : ℤ} {q : ℚ}

lemma timeClaim_eq_none : timeClaim v = none ↔ IsTwoPow63 v := by
  cases v with
  | float f =>
    rw [timeClaim, floatToI64_eq_none]
    exact ⟨fun h => ⟨f, rfl, h⟩, fun ⟨f', hf, h⟩ => by cases hf; exact h⟩
  | _ => exact iff_of_false (by simp [timeClaim]) (by rintro ⟨f, hf, -⟩; cases hf)

lemma timeClaim_eq_some (h : timeClaim v = some (some t)) :
    ∃ q, v.number? = some q ∧ t = truncate q ∧ ∀ f, v = .float f → q < 2 ^ 63 := by
  cases v with
  | integer i =>
    cases h
    exact ⟨t, rfl, (truncate_intCast t).symm, fun f hf => by cases hf⟩
  | float f =>
    obtain ⟨ht, hlt⟩ := floatToI64_eq_some h
    exact ⟨f.value, rfl, ht, fun _ _ => hlt⟩
  | _ => cases h

lemma timeClaim_eq_refused (h : timeClaim v = some none) (hq : v.number? = some q)
    (hlt : ∀ f, v = .float f → q < 2 ^ 63) : truncate q ≤ -2 ^ 63 := by
  cases v with
  | integer i => cases h
  | float f =>
    cases hq
    exact floatToI64_eq_refused h (hlt f rfl)
  | _ => cases hq

lemma validateTimeClaims_eq_none (payload : JsonValue) (now : Int64) :
    validateTimeClaims payload now.toInt = none ↔ ReadsTwoPow63 payload now.toInt := by
  have hnow := now.le_toInt
  unfold validateTimeClaims ReadsTwoPow63
  cases payload with
  | object obj =>
    simp only [JsonValue.member?]
    cases hexp : obj.lookup "exp" with
    | none => simp
    | some expVal =>
      simp only [Option.some.injEq, exists_eq_left']
      cases hclaim : timeClaim expVal with
      | none =>
        rw [timeClaim_eq_none] at hclaim
        exact iff_of_true rfl (.inl hclaim)
      | some claim =>
        have hreadable : ¬ IsTwoPow63 expVal := by
          rw [← timeClaim_eq_none, hclaim]
          simp
        rw [or_iff_right hreadable, bind_eq_bind, bind_some]
        cases claim with
        | none =>
          refine iff_of_false (by simp) ?_
          rintro ⟨⟨exp, hnumber, hlt, hlater⟩, -⟩
          have := timeClaim_eq_refused hclaim hnumber hlt
          omega
        | some exp =>
          obtain ⟨q, hnumber, rfl, hlt⟩ := timeClaim_eq_some hclaim
          dsimp only
          by_cases hexpired : truncate q ≤ now.toInt
          · rw [if_pos hexpired]
            refine iff_of_false (by simp) ?_
            rintro ⟨⟨exp, hnumber', -, hlater⟩, -⟩
            rw [hnumber] at hnumber'
            cases hnumber'
            omega
          · rw [if_neg hexpired, and_iff_right ⟨q, hnumber, hlt, not_le.mp hexpired⟩]
            cases hnbf : obj.lookup "nbf" with
            | none => simp
            | some nbfVal =>
              simp only [Option.some.injEq, exists_eq_left', ← timeClaim_eq_none]
              cases hclaim' : timeClaim nbfVal with
              | none => simp
              | some claim' =>
                cases claim' with
                | none => simp
                | some nbf =>
                  dsimp only [bind_some]
                  split_ifs <;> simp
  | _ => simp [JsonValue.member?]

lemma validateTimeClaims_accepts {payload : JsonValue} {now : ℤ}
    (h : validateTimeClaims payload now = some true) :
    ∃ exp, payload.numberAt? "exp" = some exp ∧ now < truncate exp ∧
      (payload.member? "nbf" = none ∨ ∃ nbf, payload.numberAt? "nbf" = some nbf ∧ truncate nbf ≤ now) ∧
      extractExp payload = some (truncate exp) := by
  unfold validateTimeClaims at h
  cases payload with
  | object obj =>
    simp only [JsonValue.numberAt?, JsonValue.member?, extractExp]
    dsimp only at h
    cases hexp : obj.lookup "exp" with
    | none => simp [hexp] at h
    | some expVal =>
      rw [hexp] at h
      dsimp only at h
      obtain ⟨claim, hclaim, h⟩ := bind_eq_some_iff.mp h
      cases claim with
      | none => cases h
      | some exp =>
        obtain ⟨q, hnumber, rfl, -⟩ := timeClaim_eq_some hclaim
        dsimp only at h
        by_cases hexpired : truncate q ≤ now
        · rw [if_pos hexpired] at h
          cases h
        rw [if_neg hexpired] at h
        refine ⟨q, hnumber, not_le.mp hexpired, ?_, ?_⟩
        · cases hnbf : obj.lookup "nbf" with
          | none => exact .inl rfl
          | some nbfVal =>
            rw [hnbf] at h
            dsimp only at h
            obtain ⟨claim', hclaim', h⟩ := bind_eq_some_iff.mp h
            cases claim' with
            | none => cases h
            | some nbf =>
              obtain ⟨q', hnumber', rfl, -⟩ := timeClaim_eq_some hclaim'
              dsimp only at h
              by_cases hearly : now < truncate q'
              · rw [if_pos hearly] at h
                cases h
              · exact .inr ⟨q', hnumber', not_lt.mp hearly⟩
        · cases expVal with
          | integer i =>
            cases hclaim
            rfl
          | float f =>
            change (floatToI64 f).map _ = _
            rw [show floatToI64 f = some (some (truncate q)) from hclaim]
            rfl
          | _ => cases hclaim
  | _ => cases h

/-- The time checks are exact unless they read the double `2 ^ 63`, which is no integer of 64 bits. -/
theorem time_checks_exact_iff (payload : JsonValue) (now : Int64) :
    TimeChecksExact payload now.toInt ↔ ¬ ReadsTwoPow63 payload now.toInt := by
  rw [← validateTimeClaims_eq_none]
  exact ⟨fun h => h.converts, fun h => ⟨h, validateTimeClaims_accepts⟩⟩

end Claims

namespace ExpiryExample

def twoPow63 : Real64 := ⟨false, 1086 * 2 ^ 52, by decide⟩

/-- The claims `{"exp":9223372036854775808.0}`. -/
def farExpiry : JsonValue := .object [("exp", .float twoPow63)]

theorem farExpiry_stops : validateTimeClaims farExpiry 0 = none ∧ ¬ TimeChecksExact farExpiry 0 := by
  have hscale : (DoubleText.scale : ℚ) ≠ 0 := Nat.cast_ne_zero.mpr DoubleText.scale_pos.ne'
  have hvalue : twoPow63.value = 2 ^ 63 := by
    change (DoubleText.units (1086 * 2 ^ 52) : ℚ) / DoubleText.scale = 2 ^ 63
    rw [units_twoPow63, Nat.cast_mul, mul_div_cancel_right₀ _ hscale]
    norm_num
  have hstops : validateTimeClaims farExpiry 0 = none :=
    (validateTimeClaims_eq_none farExpiry 0).mpr ⟨.float twoPow63, rfl, Or.inl ⟨twoPow63, rfl, hvalue⟩⟩
  exact ⟨hstops, fun h => h.converts hstops⟩

end ExpiryExample
end ZyncBase
