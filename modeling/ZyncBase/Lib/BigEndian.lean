import Mathlib.Algebra.BigOperators.Group.List.Basic
import Mathlib.Algebra.Order.Group.Nat
import Mathlib.Data.Nat.Basic
import Mathlib.Order.Compare
import Mathlib.Tactic.Ring

/-! Fixed-length big-endian byte strings of natural numbers, and numbers of digits that have a radix
each, most significant first: their digits and their order. -/
namespace BigEndian

open List

/-- The `n` low bytes of a number, most significant first. -/
def bytes : ℕ → ℕ → List UInt8
  | 0, _ => []
  | n+1, x => UInt8.ofNat (x / 256 ^ n) :: bytes n (x % 256 ^ n)

@[simp] lemma bytes_length (n x : ℕ) : (bytes n x).length = n := by
  induction n generalizing x with
  | zero => rfl
  | succ n ih => simp [bytes, ih]

lemma compare_ofNat (a b : ℕ) (ha : a < 256) (hb : b < 256) :
    compare (UInt8.ofNat a) (UInt8.ofNat b) = compare a b := by
  have hlt : UInt8.ofNat a < UInt8.ofNat b ↔ a < b := by
    rw [UInt8.lt_iff_toNat_lt, UInt8.toNat_ofNat_of_lt' ha, UInt8.toNat_ofNat_of_lt' hb]
  have heq : UInt8.ofNat a = UInt8.ofNat b ↔ a = b := by
    rw [← UInt8.toNat_inj, UInt8.toNat_ofNat_of_lt' ha, UInt8.toNat_ofNat_of_lt' hb]
  change compareOfLessAndEq _ _ = compareOfLessAndEq a b
  simp only [compareOfLessAndEq, hlt, heq]

lemma compare_cons {α : Type*} [Ord α] (a b : α) (as bs : List α) :
    compare (a :: as) (b :: bs) = (compare a b).then (compare as bs) := by
  rw [List.compare_eq_compareLex, List.compareLex_cons_cons, ← List.compare_eq_compareLex]

lemma compare_divMod (a b m : ℕ) (hm : 0 < m) :
    compare a b = (compare (a / m) (b / m)).then (compare (a % m) (b % m)) := by
  have ha := Nat.div_add_mod a m
  have hb := Nat.div_add_mod b m
  have hra := Nat.mod_lt a hm
  have hrb := Nat.mod_lt b hm
  rcases Nat.lt_trichotomy (a / m) (b / m) with h | h | h
  · have hlt : a < b := (Nat.div_lt_iff_lt_mul hm).mp h |>.trans_le (Nat.div_mul_le_self b m)
    rw [compare_lt_iff_lt.mpr h, compare_lt_iff_lt.mpr hlt]
    rfl
  · rw [h] at ha
    have he : compare (a / m) (b / m) = .eq := by rw [h]; simp
    rw [he, Ordering.then]
    rcases Nat.lt_trichotomy (a % m) (b % m) with h' | h' | h'
    · rw [compare_lt_iff_lt.mpr h', compare_lt_iff_lt.mpr (by omega)]
    · have : a = b := by omega
      simp [this]
    · rw [compare_gt_iff_gt.mpr h', compare_gt_iff_gt.mpr (by omega)]
  · have hlt : b < a := (Nat.div_lt_iff_lt_mul hm).mp h |>.trans_le (Nat.div_mul_le_self a m)
    rw [compare_gt_iff_gt.mpr h, compare_gt_iff_gt.mpr hlt]
    rfl

lemma compare_bytes (n a b : ℕ) (ha : a < 256 ^ n) (hb : b < 256 ^ n) :
    compare (bytes n a) (bytes n b) = compare a b := by
  induction n generalizing a b with
  | zero =>
    have h0 : a = 0 := by simpa using ha
    have h1 : b = 0 := by simpa using hb
    subst h0 h1
    rfl
  | succ n ih =>
    have hpos : 0 < 256 ^ n := Nat.pow_pos (by omega)
    have hq (x : ℕ) (hx : x < 256 ^ (n+1)) : x / 256 ^ n < 256 :=
      Nat.div_lt_of_lt_mul (by rw [pow_succ] at hx; exact hx)
    rw [bytes, bytes, compare_cons, compare_ofNat _ _ (hq a ha) (hq b hb),
      ih _ _ (Nat.mod_lt _ hpos) (Nat.mod_lt _ hpos), ← compare_divMod a b _ hpos]

lemma bytes_getElem? {n x i : ℕ} (hx : x < 256 ^ n) (hi : i < n) :
    (bytes n x)[i]? = some (UInt8.ofNat (x / 256 ^ (n - 1 - i) % 256)) := by
  induction n generalizing x i with
  | zero => cases hi
  | succ n ih =>
    have hpos : 0 < 256 ^ n := Nat.pow_pos (by omega)
    rw [pow_succ] at hx
    cases i with
    | zero =>
      rw [bytes, List.getElem?_cons_zero, Nat.add_sub_cancel, Nat.sub_zero,
        Nat.mod_eq_of_lt (Nat.div_lt_of_lt_mul hx)]
    | succ i =>
      have hexp : n + 1 - 1 - (i + 1) = n - 1 - i := by omega
      have hpow : 256 ^ n = 256 ^ (n - 1 - i) * 256 ^ (i + 1) := by
        rw [← pow_add]
        exact congrArg _ (by omega)
      have hdvd : 256 ∣ 256 ^ (i + 1) := ⟨256 ^ i, by rw [pow_succ, Nat.mul_comm]⟩
      rw [bytes, List.getElem?_cons_succ, ih (Nat.mod_lt _ hpos) (Nat.lt_of_succ_lt_succ hi), hexp,
        hpow, Nat.mod_mul_right_div_self, Nat.mod_mod_of_dvd _ hdvd]

lemma foldl_bytes (n x acc : ℕ) (hx : x < 256 ^ n) :
    (bytes n x).foldl (fun acc b => acc * 256 + b.toNat) acc = acc * 256 ^ n + x := by
  induction n generalizing x acc with
  | zero =>
    have h0 : x = 0 := by simpa using hx
    simp [bytes, h0]
  | succ n ih =>
    have hpos : 0 < 256 ^ n := Nat.pow_pos (by omega)
    have hq : x / 256 ^ n < 256 := Nat.div_lt_of_lt_mul (by rw [pow_succ] at hx; exact hx)
    rw [bytes, foldl_cons, ih _ _ (Nat.mod_lt _ hpos), UInt8.toNat_ofNat_of_lt' hq, pow_succ, Nat.add_mul,
      Nat.mul_assoc, Nat.mul_comm 256, Nat.add_assoc, Nat.mul_comm (x / _), Nat.div_add_mod]

lemma foldl_eq (bs : List UInt8) (acc : ℕ) : bs.foldl (fun acc b => acc * 256 + b.toNat) acc =
    acc * 256 ^ bs.length + bs.foldl (fun acc b => acc * 256 + b.toNat) 0 := by
  induction bs generalizing acc with
  | nil => simp
  | cons b bs ih =>
    rw [foldl_cons, foldl_cons, ih, ih (0 * 256 + b.toNat), length_cons, Nat.pow_succ]
    ring

lemma foldl_lt (bs : List UInt8) : bs.foldl (fun acc b => acc * 256 + b.toNat) 0 < 256 ^ bs.length := by
  induction bs with
  | nil => exact Nat.one_pos
  | cons b bs ih =>
    have hb : b.toNat < 256 := b.toNat_lt
    have hpos : 0 < 256 ^ bs.length := Nat.pow_pos (by omega)
    rw [foldl_cons, foldl_eq, length_cons, Nat.pow_succ, Nat.zero_mul, Nat.zero_add]
    have hle := Nat.mul_le_mul_right (256 ^ bs.length) (Nat.succ_le_of_lt hb)
    rw [Nat.succ_mul] at hle
    omega

lemma bytes_foldl (bs : List UInt8) : bytes bs.length (bs.foldl (fun acc b => acc * 256 + b.toNat) 0) = bs := by
  induction bs with
  | nil => rfl
  | cons b bs ih =>
    have hlt := foldl_lt bs
    have hpos : 0 < 256 ^ bs.length := Nat.pow_pos (by omega)
    rw [foldl_cons, foldl_eq, Nat.zero_mul, Nat.zero_add, length_cons, bytes, Nat.mul_comm b.toNat,
      Nat.mul_add_div hpos, Nat.div_eq_of_lt hlt, Nat.add_zero, Nat.mul_add_mod, Nat.mod_eq_of_lt hlt, ih]
    exact congrArg (· :: bs) UInt8.ofNat_toNat

end BigEndian

namespace MixedRadix

abbrev Digits := List (ℕ × ℕ)

/-- The number that the digits make after an earlier one. -/
def number (acc : ℕ) (ds : Digits) : ℕ := ds.foldl (fun acc d => acc * d.1 + d.2) acc

def weight (ds : Digits) : ℕ := (ds.map Prod.fst).prod

def Bounded (ds : Digits) : Prop := ∀ d ∈ ds, d.2 < d.1

variable {ds es : Digits}

lemma Bounded.weight_pos (h : Bounded ds) : 0 < weight ds := by
  induction ds with
  | nil => exact Nat.one_pos
  | cons d ds ih =>
    have hd := h d List.mem_cons_self
    rw [weight, List.map_cons, List.prod_cons]
    exact Nat.mul_pos (Nat.zero_lt_of_lt hd) (ih fun e he => h e (List.mem_cons_of_mem _ he))

lemma number_append (acc : ℕ) (ds es : Digits) :
    number acc (ds ++ es) = number (number acc ds) es := List.foldl_append

lemma number_eq (acc : ℕ) (ds : Digits) : number acc ds = acc * weight ds + number 0 ds := by
  induction ds generalizing acc with
  | nil => simp [number, weight]
  | cons d ds ih =>
    change number (acc * d.1 + d.2) ds = _ + number (0 * d.1 + d.2) ds
    have hweight : weight (d :: ds) = d.1 * weight ds := by rw [weight, List.map_cons, List.prod_cons, weight]
    rw [ih (acc * d.1 + d.2), ih (0 * d.1 + d.2), hweight]
    ring

lemma number_lt (h : Bounded ds) : number 0 ds < weight ds := by
  induction ds with
  | nil => exact Nat.one_pos
  | cons d ds ih =>
    have hd := h d List.mem_cons_self
    have hrest := ih fun e he => h e (List.mem_cons_of_mem _ he)
    have hle : (d.2 + 1) * weight ds ≤ d.1 * weight ds := Nat.mul_le_mul_right _ hd
    change number (0 * d.1 + d.2) ds < _
    rw [number_eq, Nat.zero_mul, Nat.zero_add]
    calc d.2 * weight ds + number 0 ds < (d.2 + 1) * weight ds := by rw [Nat.succ_mul]; omega
      _ ≤ d.1 * weight ds := hle
      _ = weight (d :: ds) := by rw [weight, weight, List.map_cons, List.prod_cons]

lemma number_div (acc : ℕ) (ds : Digits) (h : Bounded es) :
    number acc (ds ++ es) / weight es = number acc ds := by
  rw [number_append, number_eq, Nat.mul_comm, Nat.mul_add_div h.weight_pos,
    Nat.div_eq_of_lt (number_lt h), Nat.add_zero]

lemma number_digit (acc : ℕ) (ds : Digits) {d : ℕ × ℕ} (hd : d.2 < d.1) (h : Bounded es) :
    number acc (ds ++ d :: es) / weight es % d.1 = d.2 := by
  rw [List.append_cons, number_div acc _ h, number_append]
  change (number acc ds * d.1 + d.2) % d.1 = d.2
  rw [Nat.mul_add_mod_self_right, Nat.mod_eq_of_lt hd]

lemma compare_number (hradices : ds.map Prod.fst = es.map Prod.fst) (hds : Bounded ds)
    (hes : Bounded es) : compare (number 0 ds) (number 0 es) = compare (ds.map Prod.snd) (es.map Prod.snd) := by
  induction ds generalizing es with
  | nil =>
    cases es with
    | nil => rfl
    | cons e es => cases hradices
  | cons d ds ih =>
    cases es with
    | nil => cases hradices
    | cons e es =>
      rw [List.map_cons, List.map_cons, List.cons.injEq] at hradices
      have hds' : Bounded ds := fun x hx => hds x (List.mem_cons_of_mem _ hx)
      have hes' : Bounded es := fun x hx => hes x (List.mem_cons_of_mem _ hx)
      have hweight : weight es = weight ds := by rw [weight, weight, hradices.2]
      have hsplit : ∀ {x : ℕ × ℕ} {xs : Digits}, Bounded xs →
          number 0 (x :: xs) / weight xs = x.2 ∧ number 0 (x :: xs) % weight xs = number 0 xs := by
        intro x xs hxs
        have hnumber : number 0 (x :: xs) = x.2 * weight xs + number 0 xs := by
          change number (0 * x.1 + x.2) xs = _
          rw [number_eq, Nat.zero_mul, Nat.zero_add]
        rw [hnumber, Nat.mul_comm]
        exact ⟨by rw [Nat.mul_add_div hxs.weight_pos, Nat.div_eq_of_lt (number_lt hxs), Nat.add_zero],
          by rw [Nat.mul_add_mod, Nat.mod_eq_of_lt (number_lt hxs)]⟩
      obtain ⟨hdiv, hmod⟩ := hsplit (x := d) hds'
      obtain ⟨hdiv', hmod'⟩ := hsplit (x := e) hes'
      rw [hweight] at hdiv' hmod'
      rw [BigEndian.compare_divMod _ _ (weight ds) hds'.weight_pos, hdiv, hdiv', hmod, hmod',
        ih hradices.2 hds' hes', List.map_cons, List.map_cons, BigEndian.compare_cons]

lemma exists_digits {radices : List ℕ} (hpos : ∀ r ∈ radices, 0 < r) {n : ℕ} (hn : n < radices.prod) :
    ∃ ds : Digits, ds.map Prod.fst = radices ∧ Bounded ds ∧ number 0 ds = n := by
  induction radices generalizing n with
  | nil => exact ⟨[], rfl, nofun, (Nat.lt_one_iff.mp hn).symm⟩
  | cons r rs ih =>
    rw [List.forall_mem_cons] at hpos
    rw [List.prod_cons] at hn
    have hrest : 0 < rs.prod := by
      by_contra hzero
      rw [Nat.not_lt, Nat.le_zero] at hzero
      rw [hzero, Nat.mul_zero] at hn
      exact Nat.not_lt_zero _ hn
    obtain ⟨ds, hfst, hbounded, hnumber⟩ := ih hpos.2 (Nat.mod_lt n hrest)
    have hdigit : n / rs.prod < r := Nat.div_lt_of_lt_mul (by rwa [Nat.mul_comm] at hn)
    refine ⟨(r, n / rs.prod) :: ds, by rw [List.map_cons, hfst], ?_, ?_⟩
    · exact List.forall_mem_cons.mpr ⟨hdigit, hbounded⟩
    · change number (0 * r + n / rs.prod) ds = n
      rw [number_eq, weight, hfst, hnumber, Nat.zero_mul, Nat.zero_add, Nat.mul_comm]
      exact Nat.div_add_mod n rs.prod

end MixedRadix
