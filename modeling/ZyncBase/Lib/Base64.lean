import Mathlib.Data.List.Basic

/-! Base64 with the alphabet for URLs and without padding, and the standard one with padding. -/
namespace Base64

def encodeSix (n : ℕ) : UInt8 :=
  if n < 26 then UInt8.ofNat (65 + n)
  else if n < 52 then UInt8.ofNat (71 + n)
  else if n < 62 then UInt8.ofNat (n - 4)
  else if n = 62 then 45
  else 95

def decodeSix (c : UInt8) : Option ℕ :=
  if 65 ≤ c ∧ c ≤ 90 then some (c.toNat - 65)
  else if 97 ≤ c ∧ c ≤ 122 then some (c.toNat - 71)
  else if 48 ≤ c ∧ c ≤ 57 then some (c.toNat + 4)
  else if c = 45 then some 62
  else if c = 95 then some 63
  else none

def encode : List UInt8 → List UInt8
  | [] => []
  | [a] => [encodeSix (a.toNat / 4), encodeSix (a.toNat % 4 * 16)]
  | [a, b] => [encodeSix (a.toNat / 4), encodeSix (a.toNat % 4 * 16 + b.toNat / 16),
      encodeSix (b.toNat % 16 * 4)]
  | a :: b :: c :: rest =>
    encodeSix (a.toNat / 4) :: encodeSix (a.toNat % 4 * 16 + b.toNat / 16) ::
      encodeSix (b.toNat % 16 * 4 + c.toNat / 64) :: encodeSix (c.toNat % 64) :: encode rest

/-- Bits that are left over must be zero. -/
def decode : List UInt8 → Option (List UInt8)
  | [] => some []
  | [_] => none
  | [p, q] => do
    let p ← decodeSix p
    let q ← decodeSix q
    if q % 16 = 0 then some [UInt8.ofNat (p * 4 + q / 16)] else none
  | [p, q, r] => do
    let p ← decodeSix p
    let q ← decodeSix q
    let r ← decodeSix r
    if r % 4 = 0 then some [UInt8.ofNat (p * 4 + q / 16), UInt8.ofNat (q % 16 * 16 + r / 4)] else none
  | p :: q :: r :: s :: rest => do
    let p ← decodeSix p
    let q ← decodeSix q
    let r ← decodeSix r
    let s ← decodeSix s
    let bytes ← decode rest
    some (UInt8.ofNat (p * 4 + q / 16) :: UInt8.ofNat (q % 16 * 16 + r / 4) ::
      UInt8.ofNat (r % 4 * 64 + s) :: bytes)

lemma decodeSix_encodeSix {n : ℕ} (h : n < 64) : decodeSix (encodeSix n) = some n := by
  revert n
  decide

lemma encodeSix_ne {n : ℕ} (h : n < 64) : encodeSix n ≠ 46 ∧ encodeSix n ≠ 61 := by
  revert n
  decide

lemma exists_encodeSix {c : UInt8} (bytes : List UInt8) (h : c ∈ encode bytes) : ∃ n < 64, c = encodeSix n := by
  fun_induction encode bytes with
  | case1 => cases h
  | case2 a =>
    have ha := a.toNat_lt
    simp only [List.mem_cons, List.not_mem_nil, or_false] at h
    obtain rfl | rfl := h <;> exact ⟨_, by omega, rfl⟩
  | case3 a b =>
    have ha := a.toNat_lt
    have hb := b.toNat_lt
    simp only [List.mem_cons, List.not_mem_nil, or_false] at h
    obtain rfl | rfl | rfl := h <;> exact ⟨_, by omega, rfl⟩
  | case4 a b d rest ih =>
    have ha := a.toNat_lt
    have hb := b.toNat_lt
    have hd := d.toNat_lt
    simp only [List.mem_cons] at h
    obtain rfl | rfl | rfl | rfl | h := h
    iterate 4 exact ⟨_, by omega, rfl⟩
    exact ih h

lemma encode_ne {c : UInt8} (bytes : List UInt8) (h : c ∈ encode bytes) : c ≠ 46 ∧ c ≠ 61 := by
  obtain ⟨n, hn, rfl⟩ := exists_encodeSix bytes h
  exact encodeSix_ne hn

lemma byte_eq (a : UInt8) {n : ℕ} (h : n = a.toNat) : UInt8.ofNat n = a := by
  rw [h, UInt8.ofNat_toNat]

lemma decode_encode (bytes : List UInt8) : decode (encode bytes) = some bytes := by
  fun_induction encode bytes with
  | case1 => rfl
  | case2 a =>
    have ha := a.toNat_lt
    rw [decode, decodeSix_encodeSix (by omega), decodeSix_encodeSix (by omega)]
    simp only [Option.bind_eq_bind, Option.bind_some]
    rw [if_pos (by omega), byte_eq a (by omega)]
  | case3 a b =>
    have ha := a.toNat_lt
    have hb := b.toNat_lt
    rw [decode, decodeSix_encodeSix (by omega), decodeSix_encodeSix (by omega), decodeSix_encodeSix (by omega)]
    simp only [Option.bind_eq_bind, Option.bind_some]
    rw [if_pos (by omega), byte_eq a (by omega), byte_eq b (by omega)]
  | case4 a b c rest ih =>
    have ha := a.toNat_lt
    have hb := b.toNat_lt
    have hc := c.toNat_lt
    rw [decode, decodeSix_encodeSix (by omega), decodeSix_encodeSix (by omega),
      decodeSix_encodeSix (by omega), decodeSix_encodeSix (by omega), ih]
    simp only [Option.bind_eq_bind, Option.bind_some]
    rw [byte_eq a (by omega), byte_eq b (by omega), byte_eq c (by omega)]

section Standard

def toStandard (c : UInt8) : UInt8 := if c = 45 then 43 else if c = 95 then 47 else c

def ofStandard (c : UInt8) : Option UInt8 :=
  if c = 43 then some 45 else if c = 47 then some 95 else if c = 45 ∨ c = 95 then none else some c

/-- The equals signs that fill up the last four characters. -/
def padding (chars : List UInt8) : List UInt8 := List.replicate ((4 - chars.length % 4) % 4) 61

def encodeStandard (bytes : List UInt8) : List UInt8 :=
  (encode bytes).map toStandard ++ padding (encode bytes)

def decodeStandard (text : List UInt8) : Option (List UInt8) := do
  let chars := text.takeWhile (· ≠ 61)
  if text.dropWhile (· ≠ 61) = padding chars then decode (← chars.mapM ofStandard) else none

lemma ofStandard_toStandard {n : ℕ} (h : n < 64) :
    ofStandard (toStandard (encodeSix n)) = some (encodeSix n) ∧ toStandard (encodeSix n) ≠ 61 := by
  revert n
  decide

lemma mapM_ofStandard {chars : List UInt8} (h : ∀ c ∈ chars, ∃ n < 64, c = encodeSix n) :
    (chars.map toStandard).mapM ofStandard = some chars := by
  induction chars with
  | nil => rfl
  | cons c chars ih =>
    obtain ⟨⟨n, hn, rfl⟩, hchars⟩ := List.forall_mem_cons.mp h
    rw [List.map_cons, List.mapM_cons, (ofStandard_toStandard hn).1, ih hchars]
    rfl

lemma decodeStandard_encodeStandard (bytes : List UInt8) :
    decodeStandard (encodeStandard bytes) = some bytes := by
  have halphabet : ∀ c ∈ encode bytes, ∃ n < 64, c = encodeSix n := fun c => exists_encodeSix bytes
  have hchars : ∀ c ∈ (encode bytes).map toStandard, (decide (c ≠ 61)) = true := by
    intro c hc
    obtain ⟨d, hd, rfl⟩ := List.mem_map.mp hc
    obtain ⟨n, hn, rfl⟩ := halphabet d hd
    exact decide_eq_true (ofStandard_toStandard hn).2
  have hpadding : (padding (encode bytes)).takeWhile (fun c => decide (c ≠ 61)) = [] ∧
      (padding (encode bytes)).dropWhile (fun c => decide (c ≠ 61)) = padding (encode bytes) := by
    rw [padding]
    cases (4 - (encode bytes).length % 4) % 4 with
    | zero => exact ⟨rfl, rfl⟩
    | succ n => exact ⟨rfl, rfl⟩
  have htake : (encodeStandard bytes).takeWhile (fun c => decide (c ≠ 61)) = (encode bytes).map toStandard := by
    rw [encodeStandard, List.takeWhile_append_of_pos hchars, hpadding.1, List.append_nil]
  have hdrop : (encodeStandard bytes).dropWhile (fun c => decide (c ≠ 61)) = padding (encode bytes) := by
    rw [encodeStandard, List.dropWhile_append_of_pos hchars, hpadding.2]
  rw [decodeStandard, htake, hdrop, padding, padding, List.length_map, if_pos rfl, mapM_ofStandard halphabet]
  exact decode_encode bytes

end Standard

end Base64
