import Mathlib.Data.Char
import Mathlib.Data.List.Forall2
import ZyncBase.Lib.BigEndian

/-! Codes that are read off from the left, where equal texts have equal codes at their start and equal
rests, and texts as bytes and as code units: UTF-8, UTF-16 and the order of both. -/
namespace PrefixCode

variable {α X : Type*}

/-- Two codes that, when texts starting with them are equal, agree in `R` and leave equal rests. -/
def Splits (xs ys : List X) (R : Prop) : Prop :=
  ∀ r r' : List X, xs ++ r = ys ++ r' → R ∧ r = r'

lemma Splits.nil : Splits ([] : List X) [] True := fun _ _ h => ⟨trivial, h⟩

variable {xs ys : List X}

lemma Splits.of_length {R : Prop} (hlen : xs.length = ys.length) (h : xs = ys → R) : Splits xs ys R := by
  intro r r' heq
  obtain ⟨hxy, hr⟩ := List.append_inj heq hlen
  exact ⟨h hxy, hr⟩

lemma Splits.imp {R S : Prop} (h : Splits xs ys R) (hRS : R → S) : Splits xs ys S := by
  intro r r' heq
  obtain ⟨hR, hr⟩ := h r r' heq
  exact ⟨hRS hR, hr⟩

lemma Splits.append {xs' ys' : List X} {R S : Prop} (h : Splits xs ys R)
    (h' : R → Splits xs' ys' S) : Splits (xs ++ xs') (ys ++ ys') (R ∧ S) := by
  intro r r' heq
  rw [List.append_assoc, List.append_assoc] at heq
  obtain ⟨hR, heq⟩ := h _ _ heq
  obtain ⟨hS, hr⟩ := h' hR r r' heq
  exact ⟨⟨hR, hS⟩, hr⟩

lemma Splits.flatMap {code : α → List X} {R : α → α → Prop} {as bs : List α} (hlen : as.length = bs.length)
    (h : ∀ a ∈ as, ∀ b ∈ bs, Splits (code a) (code b) (R a b)) :
    Splits (as.flatMap code) (bs.flatMap code) (List.Forall₂ R as bs) := by
  induction as generalizing bs with
  | nil =>
    rw [List.length_nil, eq_comm, List.length_eq_zero_iff] at hlen
    subst hlen
    exact Splits.nil.imp fun _ => .nil
  | cons a as ih =>
    cases bs with
    | nil => cases hlen
    | cons b bs =>
      rw [List.flatMap_cons, List.flatMap_cons]
      have hhead := h a List.mem_cons_self b List.mem_cons_self
      have htail := ih (Nat.succ.inj hlen) fun c hc d hd =>
        h c (List.mem_cons_of_mem _ hc) d (List.mem_cons_of_mem _ hd)
      exact (hhead.append fun _ => htail).imp fun hR => .cons hR.1 hR.2

lemma Splits.of_eq {R : Prop} (h : Splits xs ys R) (heq : xs = ys) : R :=
  (h [] [] (by rw [heq])).1

/-- Codes that are ordered as what they stand for, whatever follows them. -/
lemma compare_flatMap [Ord α] [Ord X] {code : α → List X} {as bs : List α} (hne : ∀ a, code a ≠ [])
    (h : ∀ a ∈ as, ∀ b ∈ bs, ∀ r r', compare (code a ++ r) (code b ++ r') = (compare a b).then (compare r r')) :
    compare (as.flatMap code) (bs.flatMap code) = compare as bs := by
  induction as generalizing bs with
  | nil =>
    cases bs with
    | nil => rfl
    | cons b bs =>
      obtain ⟨x, xs, hx⟩ := List.exists_cons_of_ne_nil (hne b)
      simp [hx]
  | cons a as ih =>
    cases bs with
    | nil =>
      obtain ⟨x, xs, hx⟩ := List.exists_cons_of_ne_nil (hne a)
      simp [hx]
    | cons b bs =>
      simp only [List.forall_mem_cons] at h
      rw [List.flatMap_cons, List.flatMap_cons, h.1.1, ih fun a ha b hb => (h.2 a ha).2 b hb, List.compare_cons_cons]

end PrefixCode

namespace Utf

def utf8 (cs : List Char) : List UInt8 := cs.flatMap String.utf8EncodeChar

def readUtf8 (bytes : List UInt8) : Option (List Char) :=
  bytes.toByteArray.utf8Decode?.map Array.toList

def isHigh (u : UInt16) : Bool := 0xD800 ≤ u.toNat && u.toNat < 0xDC00

def isLow (u : UInt16) : Bool := 0xDC00 ≤ u.toNat && u.toNat < 0xE000

/-- Half a surrogate pair is read as the replacement character. -/
def characters : List UInt16 → List Char
  | [] => []
  | [u] => [alone u]
  | u :: v :: us =>
    if isHigh u && isLow v then
      Char.ofNat (0x10000 + (u.toNat - 0xD800) * 0x400 + (v.toNat - 0xDC00)) :: characters us
    else alone u :: characters (v :: us)
where
  alone (u : UInt16) : Char := if isHigh u || isLow u then '\uFFFD' else Char.ofNat u.toNat

section Decoding

lemma readUtf8_utf8 (cs : List Char) : readUtf8 (utf8 cs) = some cs :=
  (congrArg _ (List.utf8Decode?_utf8Encode (l := cs))).trans rfl

variable {us : List UInt16}

lemma characters_eq_map (h : ∀ u ∈ us, u.toNat < 0x800) : characters us = us.map fun u => Char.ofNat u.toNat := by
  fun_induction characters with
  | case1 => rfl
  | case2 u => grind [characters.alone, isHigh, isLow]
  | case3 u v us hpair ih => grind [isHigh]
  | case4 u v us hpair ih => grind [characters.alone, isHigh, isLow]

end Decoding

section Order

lemma compare_toNat (u v : UInt16) : compare u v = compare u.toNat v.toNat := by
  change compareOfLessAndEq _ _ = compareOfLessAndEq _ _
  simp only [compareOfLessAndEq, UInt16.lt_iff_toNat_lt, ← UInt16.toNat_inj]

lemma compare_add (a b k : ℕ) : compare (a + k) (b + k) = compare a b := by
  change compareOfLessAndEq _ _ = compareOfLessAndEq a b
  simp only [compareOfLessAndEq, Nat.add_lt_add_iff_right, Nat.add_right_cancel_iff]

lemma compare_byte (x y : UInt8) : compare x y = compare x.toNat y.toNat := by
  change compareOfLessAndEq _ _ = compareOfLessAndEq _ _
  simp only [compareOfLessAndEq, UInt8.lt_iff_toNat_lt, ← UInt8.toNat_inj]

variable {u v : UInt16}

lemma compare_encoded (hu : u.toNat < 0x800) (hv : v.toNat < 0x800) (r r' : List UInt8) :
    compare (String.utf8EncodeChar (Char.ofNat u.toNat) ++ r) (String.utf8EncodeChar (Char.ofNat v.toNat) ++ r') =
      (compare u v).then (compare r r') := by
  have hcode {n : ℕ} (h : n < 0x800) : (Char.ofNat n).val.toNat = n ∧ n ≤ 2047 := by
    rw [Char.ofNat, dif_pos (.inl (by omega))]
    exact ⟨rfl, by omega⟩
  simp only [String.utf8EncodeChar, hcode hu, hcode hv, if_true, compare_toNat]
  split_ifs <;> simp only [List.cons_append, List.nil_append, List.compare_cons_cons, compare_byte,
    UInt8.toNat_ofNat', Nat.compare_eq_ite_lt] <;> split_ifs <;> first | rfl | omega

end Order

end Utf
