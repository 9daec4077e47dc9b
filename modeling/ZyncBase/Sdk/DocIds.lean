import Mathlib.Data.List.Induction
import ZyncBase.Lib.Utf
import ZyncBase.Sdk.Path

/-! Document ids in the client: short ids and UUIDs of version 7, packed into sixteen bytes. -/
namespace ZyncBase.Sdk

open BigEndian List MixedRadix

/-- The code units of a text without characters above the first plane. -/
def units (s : String) : JsString := s.toList.map fun c => UInt16.ofNat c.toNat

section Short

def shortIdAlphabet : JsString := units "-0123456789_abcdefghijklmnopqrstuvwxyz"

def shortCharToDigit (u : UInt16) : Option ℕ := (shortIdAlphabet.idxOf? u).map (· + 1)

def isValidShortDocId (id : JsString) : Bool :=
  0 < id.length && id.length ≤ 24 && id.all fun u => (shortCharToDigit u).isSome

/-- The digits of an id, as many as are asked for. -/
def shortDigits : ℕ → JsString → List ℕ
  | 0, _ => []
  | n + 1, [] => 0 :: shortDigits n []
  | n + 1, u :: us => (shortCharToDigit u).getD 0 :: shortDigits n us

def encodeShortDocId (id : JsString) : Bytes :=
  BigEndian.bytes 16 (number 0 ((shortDigits 24 id).map fun digit => (39, digit)))

/-- The last digits of a number and what is left of it. -/
def takeDigits : ℕ → ℕ → List ℕ → ℕ × List ℕ
  | 0, remaining, digits => (remaining, digits)
  | n + 1, remaining, digits => takeDigits n (remaining / 39) (remaining % 39 :: digits)

/-- No digit comes after the end of an id. -/
def collectDigits : Bool → List ℕ → Option JsString
  | _, [] => some []
  | seenEnd, digit :: digits =>
    if digit = 0 then collectDigits true digits
    else if seenEnd then none
    else do return (← shortIdAlphabet[digit - 1]?) :: (← collectDigits false digits)

def decodeShortDocId (value : ℕ) : Option JsString :=
  let (remaining, digits) := takeDigits 24 value []
  if remaining ≠ 0 ∨ digits.head? = some 0 then none else collectDigits false digits

end Short

section Uuid

/-- The digit of a lowercase hexadecimal code unit. -/
def hexValue? (u : UInt16) : Option ℕ :=
  if 48 ≤ u.toNat ∧ u.toNat ≤ 57 then some (u.toNat - 48)
  else if 97 ≤ u.toNat ∧ u.toNat ≤ 102 then some (u.toNat - 87)
  else none

def hexUnit (n : ℕ) : UInt16 := UInt16.ofNat (if n < 10 then 48 + n else 87 + n)

inductive UuidSlot where
  | hex | dash | version | variant
  deriving DecidableEq

def UuidSlot.allows : UuidSlot → UInt16 → Bool
  | .hex, u => (hexValue? u).isSome
  | .dash, u => u = 45
  | .version, u => u = 55
  | .variant, u => u = 56 || u = 57 || u = 97 || u = 98

def hexSlots (n : ℕ) : List UuidSlot := List.replicate n .hex

def uuidV7Pattern : List UuidSlot :=
  [hexSlots 8, [.dash], hexSlots 4, [.dash, .version], hexSlots 3, [.dash, .variant], hexSlots 3, [.dash],
    hexSlots 12].flatten

def matchesPattern : List UuidSlot → JsString → Bool
  | [], [] => true
  | slot :: slots, u :: us => slot.allows u && matchesPattern slots us
  | _, _ => false

def isCanonicalUUIDv7 (id : JsString) : Bool := matchesPattern uuidV7Pattern id

/-- Two hexadecimal digits are a byte. -/
def pairs : List ℕ → List ℕ
  | a :: b :: rest => (a * 16 + b) :: pairs rest
  | _ => []

def hexDigits (uuid : JsString) : List ℕ :=
  (uuid.filter fun u => u ≠ 45).map fun u => (hexValue? u).getD 0

def parseUuidBytes (uuid : JsString) : List ℕ := pairs (hexDigits uuid)

def hex2 (bytes : List ℕ) : JsString := bytes.flatMap fun b => [hexUnit (b / 16), hexUnit (b % 16)]

def formatUuidBytes (bytes : List ℕ) : JsString :=
  hex2 (bytes.take 4) ++ 45 :: hex2 ((bytes.drop 4).take 2) ++ 45 :: hex2 ((bytes.drop 6).take 2) ++
    45 :: hex2 ((bytes.drop 8).take 2) ++ 45 :: hex2 (bytes.drop 10)

/-- How much of each byte is packed: neither the version nor the variant. -/
def uuidRadices : List ℕ := [256, 256, 256, 256, 256, 256, 16, 256, 64, 256, 256, 256, 256, 256, 256, 256]

def uuidPayload (bytes : List ℕ) : Digits := List.zipWith (fun r b => (r, b % r)) uuidRadices bytes

def encodeUuidV7DocId (uuid : JsString) : Bytes :=
  BigEndian.bytes 16 (2 ^ 127 + number 0 (uuidPayload (parseUuidBytes uuid)))

/-- The bits of the payload are put back into the bytes that they come from. -/
def decodeUuidV7DocId (packed : Bytes) : Option JsString :=
  let p i := (packed.getD i 0).toNat
  if p 0 / 4 % 32 ≠ 0 then none
  else some (formatUuidBytes
    [p 0 % 4 * 64 + p 1 / 4, p 1 % 4 * 64 + p 2 / 4, p 2 % 4 * 64 + p 3 / 4, p 3 % 4 * 64 + p 4 / 4,
     p 4 % 4 * 64 + p 5 / 4, p 5 % 4 * 64 + p 6 / 4, 0x70 + (p 6 % 4 * 4 + p 7 / 64),
     p 7 % 64 * 4 + p 8 / 64, 0x80 + p 8 % 64, p 9, p 10, p 11, p 12, p 13, p 14, p 15])

end Uuid

def packDocId (id : JsString) : Option Bytes :=
  if isCanonicalUUIDv7 id then some (encodeUuidV7DocId id)
  else if isValidShortDocId id then some (encodeShortDocId id)
  else none

/-- The ids that have been decoded are remembered under their bytes. -/
def unpackDocId (bytes : Bytes) : Option JsString :=
  if bytes.length ≠ 16 then none
  else if 128 ≤ (bytes.getD 0 0).toNat then decodeUuidV7DocId bytes
  else decodeShortDocId (bytes.foldl (fun acc b => acc * 256 + b.toNat) 0)

def docIdSortFamily (id : JsString) : ℕ :=
  if isCanonicalUUIDv7 id then 1 else if isValidShortDocId id then 0 else 2

/-- Strings are compared by their code units. -/
def compareDocIds (a b : JsString) : Ordering :=
  if docIdSortFamily a ≠ docIdSortFamily b then compare (docIdSortFamily a) (docIdSortFamily b)
  else compare a b

variable {u : UInt16} {n : ℕ}

section ShortIds

lemma sorted_shortIdAlphabet : shortIdAlphabet.Pairwise (· < ·) := by decide

lemma shortCharToDigit_eq (h : (shortCharToDigit u).isSome) :
    ∃ i, (shortCharToDigit u).getD 0 = i + 1 ∧ i < 38 ∧ shortIdAlphabet[i]? = some u := by
  obtain ⟨digit, hdigit⟩ := Option.isSome_iff_exists.mp h
  obtain ⟨i, hi, rfl⟩ := Option.map_eq_some_iff.mp hdigit
  rw [List.idxOf?_eq_some_iff] at hi
  obtain ⟨hlt, hget, -⟩ := hi
  exact ⟨i, by rw [hdigit, Option.getD_some], hlt, List.getElem?_eq_some_iff.mpr ⟨hlt, by simpa using hget⟩⟩

lemma compare_shortCharToDigit {v : UInt16} (hu : (shortCharToDigit u).isSome)
    (hv : (shortCharToDigit v).isSome) :
    compare ((shortCharToDigit u).getD 0) ((shortCharToDigit v).getD 0) = compare u v := by
  obtain ⟨i, hi, -, hui⟩ := shortCharToDigit_eq hu
  obtain ⟨j, hj, -, hvj⟩ := shortCharToDigit_eq hv
  rw [hi, hj, Utf.compare_toNat]
  have hsorted : ∀ {i j : ℕ} {u v : UInt16}, shortIdAlphabet[i]? = some u →
      shortIdAlphabet[j]? = some v → i < j → u.toNat < v.toNat := by
    intro i j u v hu hv hij
    obtain ⟨hi, rfl⟩ := List.getElem?_eq_some_iff.mp hu
    obtain ⟨hj, rfl⟩ := List.getElem?_eq_some_iff.mp hv
    exact UInt16.lt_iff_toNat_lt.mp (pairwise_iff_getElem.mp sorted_shortIdAlphabet i j hi hj hij)
  rcases Nat.lt_trichotomy i j with hij | rfl | hij
  · rw [compare_lt_iff_lt.mpr (Nat.succ_lt_succ hij), compare_lt_iff_lt.mpr (hsorted hui hvj hij)]
  · have huv : u = v := Option.some_inj.mp (hui.symm.trans hvj)
    rw [huv, Std.ReflOrd.compare_self, Std.ReflOrd.compare_self]
  · rw [compare_gt_iff_gt.mpr (Nat.succ_lt_succ hij), compare_gt_iff_gt.mpr (hsorted hvj hui hij)]

lemma shortDigits_length (n : ℕ) (id : JsString) : (shortDigits n id).length = n := by
  induction n generalizing id with
  | zero => rfl
  | succ n ih => cases id <;> simp [shortDigits, ih]

variable {a b : JsString}

lemma shortDigits_lt (ha : ∀ u ∈ a, (shortCharToDigit u).isSome) : ∀ digit ∈ shortDigits n a, digit < 39 := by
  induction n generalizing a with
  | zero => exact nofun
  | succ n ih =>
    cases a with
    | nil =>
      rw [shortDigits, forall_mem_cons]
      exact ⟨by omega, ih nofun⟩
    | cons u us =>
      obtain ⟨i, hi, hlt, -⟩ := shortCharToDigit_eq (ha u mem_cons_self)
      rw [shortDigits, forall_mem_cons, hi]
      exact ⟨by omega, ih fun v hv => ha v (mem_cons_of_mem _ hv)⟩

lemma compare_shortDigits (ha : ∀ u ∈ a, (shortCharToDigit u).isSome)
    (hb : ∀ u ∈ b, (shortCharToDigit u).isSome) (hna : a.length ≤ n) (hnb : b.length ≤ n) :
    compare (shortDigits n a) (shortDigits n b) = compare a b := by
  induction n generalizing a b with
  | zero =>
    rw [length_eq_zero_iff.mp (Nat.le_zero.mp hna), length_eq_zero_iff.mp (Nat.le_zero.mp hnb)]
    rfl
  | succ n ih =>
    cases a with
    | nil =>
      cases b with
      | nil =>
        have hrest := ih (a := []) (b := []) nofun nofun (Nat.zero_le _) (Nat.zero_le _)
        rw [shortDigits, compare_cons, hrest]
        rfl
      | cons v vs =>
        obtain ⟨i, hi, -, -⟩ := shortCharToDigit_eq (hb v mem_cons_self)
        rw [shortDigits, shortDigits, compare_cons, hi, compare_lt_iff_lt.mpr (Nat.succ_pos i)]
        rfl
    | cons u us =>
      cases b with
      | nil =>
        obtain ⟨i, hi, -, -⟩ := shortCharToDigit_eq (ha u mem_cons_self)
        rw [shortDigits, shortDigits, compare_cons, hi, compare_gt_iff_gt.mpr (Nat.succ_pos i)]
        rfl
      | cons v vs =>
        rw [shortDigits, shortDigits, compare_cons, compare_cons,
          compare_shortCharToDigit (ha u mem_cons_self) (hb v mem_cons_self),
          ih (fun x hx => ha x (mem_cons_of_mem _ hx)) (fun x hx => hb x (mem_cons_of_mem _ hx))
            (Nat.le_of_succ_le_succ hna) (Nat.le_of_succ_le_succ hnb)]

lemma takeDigits_number {digits : List ℕ} (h : ∀ digit ∈ digits, digit < 39) (acc : ℕ)
    (taken : List ℕ) : takeDigits digits.length (number acc (digits.map fun digit => (39, digit))) taken =
      (acc, digits ++ taken) := by
  induction digits using List.reverseRecOn generalizing taken with
  | nil => rfl
  | append_singleton digits digit ih =>
    have hlt := h digit (by simp)
    have hlast : number acc ((digits ++ [digit]).map fun digit => (39, digit)) =
        number acc (digits.map fun digit => (39, digit)) * 39 + digit := by
      rw [map_append, number_append]
      rfl
    rw [length_append, length_singleton, takeDigits, hlast,
      show (number acc (digits.map fun digit => (39, digit)) * 39 + digit) / 39 =
        number acc (digits.map fun digit => (39, digit)) by omega,
      show (number acc (digits.map fun digit => (39, digit)) * 39 + digit) % 39 = digit by omega,
      ih fun d hd => h d (mem_append_left _ hd), append_assoc, singleton_append]

lemma collectDigits_end (n : ℕ) (seenEnd : Bool) : collectDigits seenEnd (List.replicate n 0) = some [] := by
  induction n generalizing seenEnd with
  | zero => rfl
  | succ n ih => rw [replicate_succ, collectDigits, if_pos rfl, ih]

lemma shortDigits_nil (n : ℕ) : shortDigits n [] = List.replicate n 0 := by
  induction n with
  | zero => rfl
  | succ n ih => rw [shortDigits, ih, replicate_succ]

lemma collectDigits_shortDigits (ha : ∀ u ∈ a, (shortCharToDigit u).isSome)
    (hn : a.length ≤ n) : collectDigits false (shortDigits n a) = some a := by
  induction n generalizing a with
  | zero =>
    rw [length_eq_zero_iff.mp (Nat.le_zero.mp hn)]
    rfl
  | succ n ih =>
    cases a with
    | nil =>
      rw [shortDigits_nil]
      exact collectDigits_end _ _
    | cons u us =>
      obtain ⟨i, hi, -, hu⟩ := shortCharToDigit_eq (ha u mem_cons_self)
      have hrest := ih (fun v hv => ha v (mem_cons_of_mem _ hv)) (Nat.le_of_succ_le_succ hn)
      rw [shortDigits, collectDigits, hi, if_neg (Nat.succ_ne_zero i), if_neg Bool.false_ne_true,
        Nat.add_sub_cancel, hu, hrest]
      rfl

end ShortIds

variable {bytes : List ℕ}

section Uuids

lemma hexValue?_bound (h : hexValue? u = some n) : n < 16 ∧ hexUnit n = u := by
  rw [hexValue?] at h
  split_ifs at h with hdigit hletter
  · cases h
    refine ⟨by omega, ?_⟩
    rw [hexUnit, if_pos (by omega), Nat.add_sub_cancel' (by omega)]
    exact UInt16.ofNat_toNat
  · cases h
    refine ⟨by omega, ?_⟩
    rw [hexUnit, if_neg (by omega), Nat.add_sub_cancel' (by omega)]
    exact UInt16.ofNat_toNat

lemma hexValue?_of_allows {slot : UuidSlot} (hslot : slot ≠ .dash) (h : slot.allows u) :
    ∃ n, hexValue? u = some n ∧ u ≠ 45 := by
  cases slot with
  | dash => exact absurd rfl hslot
  | hex =>
    obtain ⟨n, hn⟩ := Option.isSome_iff_exists.mp h
    refine ⟨n, hn, ?_⟩
    rintro rfl
    cases hn
  | version =>
    cases of_decide_eq_true h
    exact ⟨7, rfl, by decide⟩
  | variant =>
    simp only [UuidSlot.allows, Bool.or_eq_true, decide_eq_true_eq] at h
    rcases h with ((rfl | rfl) | rfl) | rfl
    · exact ⟨8, rfl, by decide⟩
    · exact ⟨9, rfl, by decide⟩
    · exact ⟨10, rfl, by decide⟩
    · exact ⟨11, rfl, by decide⟩

/-- The digits of an id, written into the slots of a pattern. -/
def render : List UuidSlot → List ℕ → JsString
  | .dash :: slots, digits => 45 :: render slots digits
  | _ :: slots, digit :: digits => hexUnit digit :: render slots digits
  | _, _ => []

lemma render_digit {slot : UuidSlot} (h : slot ≠ .dash) (slots : List UuidSlot) (digit : ℕ) (digits : List ℕ) :
    render (slot :: slots) (digit :: digits) = hexUnit digit :: render slots digits := by
  cases slot with
  | dash => exact absurd rfl h
  | hex => rfl
  | version => rfl
  | variant => rfl

lemma hexDigits_dash (us : JsString) : hexDigits (45 :: us) = hexDigits us := by
  rw [hexDigits, filter_cons_of_neg (by simp), hexDigits]

lemma hexDigits_digit (h : hexValue? u = some n) (hu : u ≠ 45) (us : JsString) :
    hexDigits (u :: us) = n :: hexDigits us := by
  rw [hexDigits, filter_cons_of_pos (by simpa using hu), map_cons, h, Option.getD_some, hexDigits]

lemma render_hexDigits {slots : List UuidSlot} {id : JsString} (h : matchesPattern slots id) :
    render slots (hexDigits id) = id ∧ (∀ digit ∈ hexDigits id, digit < 16) ∧
      (hexDigits id).length = (slots.filter (· ≠ .dash)).length := by
  induction slots generalizing id with
  | nil =>
    cases id with
    | nil => exact ⟨rfl, nofun, rfl⟩
    | cons u us => cases h
  | cons slot slots ih =>
    cases id with
    | nil => cases h
    | cons u us =>
      rw [matchesPattern, Bool.and_eq_true] at h
      obtain ⟨hrender, hlt, hlength⟩ := ih h.2
      by_cases hslot : slot = .dash
      · subst hslot
        cases of_decide_eq_true h.1
        rw [hexDigits_dash, filter_cons_of_neg (by simp)]
        exact ⟨congrArg (45 :: ·) hrender, hlt, hlength⟩
      · obtain ⟨n, hn, hu⟩ := hexValue?_of_allows hslot h.1
        obtain ⟨hbound, hunit⟩ := hexValue?_bound hn
        rw [hexDigits_digit hn hu, filter_cons_of_pos (by simpa using hslot)]
        refine ⟨?_, forall_mem_cons.mpr ⟨hbound, hlt⟩, congrArg Nat.succ hlength⟩
        rw [render_digit hslot, hrender, hunit]

lemma allows_of_matches {slots : List UuidSlot} {id : JsString} (h : matchesPattern slots id) {i : ℕ}
    {slot : UuidSlot} (hi : slots[i]? = some slot) : ∃ u, id[i]? = some u ∧ slot.allows u := by
  induction slots generalizing id i with
  | nil => cases hi
  | cons first slots ih =>
    cases id with
    | nil => cases h
    | cons u us =>
      rw [matchesPattern, Bool.and_eq_true] at h
      cases i with
      | zero =>
        cases hi
        exact ⟨u, rfl, h.1⟩
      | succ i => exact ih h.2 hi

def nibbles (bytes : List ℕ) : List ℕ := bytes.flatMap fun b => [b / 16, b % 16]

lemma nibbles_pairs {digits : List ℕ} (h : ∀ digit ∈ digits, digit < 16)
    (hn : digits.length = 2 * n) : nibbles (pairs digits) = digits ∧ (pairs digits).length = n ∧
      ∀ b ∈ pairs digits, b < 256 := by
  induction n generalizing digits with
  | zero =>
    rw [length_eq_zero_iff.mp hn]
    exact ⟨rfl, rfl, nofun⟩
  | succ n ih =>
    rcases digits with _ | ⟨d, _ | ⟨e, digits⟩⟩
    · cases hn
    · simp only [length_singleton] at hn
      omega
    · rw [forall_mem_cons, forall_mem_cons] at h
      obtain ⟨hd, he, hrest⟩ := h
      obtain ⟨hnibbles, hlength, hbytes⟩ := ih hrest (by simp only [length_cons] at hn; omega)
      rw [pairs, nibbles, flatMap_cons, show (d * 16 + e) / 16 = d by omega,
        show (d * 16 + e) % 16 = e by omega, ← nibbles, hnibbles]
      exact ⟨rfl, congrArg Nat.succ hlength, forall_mem_cons.mpr ⟨by omega, hbytes⟩⟩

lemma exists_sixteen {α : Type} {xs : List α} (h : xs.length = 16) :
    ∃ b0 b1 b2 b3 b4 b5 b6 b7 b8 b9 b10 b11 b12 b13 b14 b15,
      xs = [b0, b1, b2, b3, b4, b5, b6, b7, b8, b9, b10, b11, b12, b13, b14, b15] := by
  match xs, h with
  | [b0, b1, b2, b3, b4, b5, b6, b7, b8, b9, b10, b11, b12, b13, b14, b15], _ =>
    exact ⟨_, _, _, _, _, _, _, _, _, _, _, _, _, _, _, _, rfl⟩

lemma formatUuidBytes_eq (h : bytes.length = 16) :
    formatUuidBytes bytes = render uuidV7Pattern (nibbles bytes) := by
  obtain ⟨b0, b1, b2, b3, b4, b5, b6, b7, b8, b9, b10, b11, b12, b13, b14, b15, rfl⟩ := exists_sixteen h
  rfl

lemma hexValue?_hexUnit (h : n < 16) : hexValue? (hexUnit n) = some n := by
  rw [hexUnit]
  split_ifs with hdigit
  · have hunit : (UInt16.ofNat (48 + n)).toNat = 48 + n :=
      UInt16.toNat_ofNat_of_lt' (by change _ < 65536; omega)
    rw [hexValue?, hunit, if_pos (by omega), Nat.add_sub_cancel_left]
  · have hunit : (UInt16.ofNat (87 + n)).toNat = 87 + n :=
      UInt16.toNat_ofNat_of_lt' (by change _ < 65536; omega)
    rw [hexValue?, hunit, if_neg (by omega), if_pos (by omega), Nat.add_sub_cancel_left]

/-- The bytes of a UUID of version 7. -/
structure UuidBytes (bytes : List ℕ) : Prop where
  length : bytes.length = 16
  lt : ∀ b ∈ bytes, b < 256
  version : bytes.getD 6 0 / 16 = 7
  variant : bytes.getD 8 0 / 64 = 2

lemma uuidBytes_parse {id : JsString} (h : isCanonicalUUIDv7 id) :
    UuidBytes (parseUuidBytes id) ∧ formatUuidBytes (parseUuidBytes id) = id := by
  obtain ⟨hrender, hlt, hlength⟩ := render_hexDigits h
  obtain ⟨hnibbles, hlength, hlt⟩ := nibbles_pairs (n := 16) hlt hlength
  have hsixteen : (parseUuidBytes id).length = 16 := hlength
  have hbytes : ∀ b ∈ parseUuidBytes id, b < 256 := hlt
  have hformat : formatUuidBytes (parseUuidBytes id) = id := by
    rw [formatUuidBytes_eq hsixteen, parseUuidBytes, hnibbles, hrender]
  obtain ⟨u, hu, hversion⟩ :=
    allows_of_matches h (show uuidV7Pattern[14]? = some .version from rfl)
  obtain ⟨v, hv, hvariant⟩ :=
    allows_of_matches h (show uuidV7Pattern[19]? = some .variant from rfl)
  rw [← hformat] at hu hv
  obtain ⟨b0, b1, b2, b3, b4, b5, b6, b7, b8, b9, b10, b11, b12, b13, b14, b15, hb⟩ :=
    exists_sixteen hsixteen
  refine ⟨⟨hsixteen, hbytes, ?_, ?_⟩, hformat⟩
  · have hb6 : b6 < 256 := hbytes b6 (by rw [hb]; simp)
    have hdigit := hexValue?_hexUnit (n := b6 / 16) (by omega)
    rw [hb] at hu
    cases hu
    rw [of_decide_eq_true hversion] at hdigit
    rw [hb]
    exact (Option.some_inj.mp hdigit).symm
  · have hb8 : b8 < 256 := hbytes b8 (by rw [hb]; simp)
    have hdigit := hexValue?_hexUnit (n := b8 / 16) (by omega)
    rw [hb] at hv
    cases hv
    have hvalue : b8 / 16 = 8 ∨ b8 / 16 = 9 ∨ b8 / 16 = 10 ∨ b8 / 16 = 11 := by
      simp only [UuidSlot.allows, Bool.or_eq_true, decide_eq_true_eq] at hvariant
      have hvalue : ∀ {u : UInt16} {n : ℕ}, hexUnit (b8 / 16) = u → hexValue? u = some n → b8 / 16 = n :=
        fun hu hn => Option.some_inj.mp (hdigit.symm.trans (hu ▸ hn))
      rcases hvariant with ((hu | hu) | hu) | hu
      · exact .inl (hvalue hu rfl)
      · exact .inr (.inl (hvalue hu rfl))
      · exact .inr (.inr (.inl (hvalue hu rfl)))
      · exact .inr (.inr (.inr (hvalue hu rfl)))
    rw [hb]
    change b8 / 64 = 2
    omega

lemma bounded_uuidPayload (bytes : List ℕ) : Bounded (uuidPayload bytes) := by
  intro d hd
  rw [uuidPayload, ← map_uncurry_zip_eq_zipWith] at hd
  obtain ⟨⟨r, b⟩, hmem, rfl⟩ := mem_map.mp hd
  have hr : ∀ r ∈ uuidRadices, 0 < r := by decide
  exact Nat.mod_lt b (hr r (of_mem_zip hmem).1)

lemma map_fst_uuidPayload (h : bytes.length = 16) : (uuidPayload bytes).map Prod.fst = uuidRadices := by
  obtain ⟨b0, b1, b2, b3, b4, b5, b6, b7, b8, b9, b10, b11, b12, b13, b14, b15, rfl⟩ := exists_sixteen h
  rfl

lemma weight_uuidPayload (h : bytes.length = 16) : weight (uuidPayload bytes) = 2 ^ 122 := by
  rw [weight, map_fst_uuidPayload h]
  rfl

/-- The number that a UUID is packed into. -/
def uuidNumber (bytes : List ℕ) : ℕ := 2 ^ 127 + number 0 (uuidPayload bytes)

lemma uuidNumber_lt (h : bytes.length = 16) :
    2 ^ 127 ≤ uuidNumber bytes ∧ uuidNumber bytes < 2 ^ 127 + 2 ^ 122 := by
  have hlt := number_lt (bounded_uuidPayload bytes)
  rw [weight_uuidPayload h] at hlt
  rw [uuidNumber]
  omega

lemma uuidNumber_digit (h : bytes.length = 16) {i b r : ℕ}
    (hb : bytes[i]? = some b) (hr : uuidRadices[i]? = some r) :
    uuidNumber bytes / (uuidRadices.drop (i + 1)).prod % r = b % r := by
  have hbounded := bounded_uuidPayload bytes
  have hdigit : (uuidPayload bytes)[i]? = some (r, b % r) := by
    rw [uuidPayload, List.getElem?_zipWith, hb, hr]
  have hmem := hbounded _ (mem_of_getElem? hdigit)
  have hsplit : uuidPayload bytes =
      (uuidPayload bytes).take i ++ (r, b % r) :: (uuidPayload bytes).drop (i + 1) := by
    obtain ⟨hi, hget⟩ := List.getElem?_eq_some_iff.mp hdigit
    rw [← hget, ← drop_eq_getElem_cons hi, take_append_drop]
  have hnumber : uuidNumber bytes = number 32 (uuidPayload bytes) := by
    rw [number_eq, weight_uuidPayload h, uuidNumber, show 2 ^ 127 = 32 * 2 ^ 122 by norm_num]
  have hweight : weight ((uuidPayload bytes).drop (i + 1)) = (uuidRadices.drop (i + 1)).prod := by
    rw [weight, map_drop, map_fst_uuidPayload h]
  have hread := number_digit 32 ((uuidPayload bytes).take i) hmem
    fun d (hd : d ∈ (uuidPayload bytes).drop (i + 1)) => hbounded d (mem_of_mem_drop hd)
  rw [← hsplit, hweight, ← hnumber] at hread
  exact hread

lemma regroup {p : ℕ → ℕ} (hp : ∀ i < 16, p i = n / 256 ^ (15 - i) % 256) {i : ℕ} (hi : i < 15) :
    p i % 4 * 64 + p (i + 1) / 4 = n / (256 ^ (14 - i) * 4) % 256 ∧
    p i % 4 * 4 + p (i + 1) / 64 = n / (256 ^ (14 - i) * 64) % 16 ∧
    p i % 64 * 4 + p (i + 1) / 64 = n / (256 ^ (14 - i) * 64) % 256 := by
  have hpow : 256 ^ (15 - i) = 256 ^ (14 - i) * 256 := by
    rw [← pow_succ]
    exact congrArg _ (by omega)
  rw [hp i (by omega), hp (i + 1) (by omega), show 15 - (i + 1) = 14 - i by omega, hpow,
    ← Nat.div_div_eq_div_mul, ← Nat.div_div_eq_div_mul, ← Nat.div_div_eq_div_mul]
  omega

lemma getD_bytes {i : ℕ} (hn : n < 256 ^ 16) (hi : i < 16) :
    ((BigEndian.bytes 16 n).getD i 0).toNat = n / 256 ^ (15 - i) % 256 := by
  rw [getD_eq_getElem?_getD, bytes_getElem? hn hi, Option.getD_some]
  exact UInt8.toNat_ofNat_of_lt' (Nat.mod_lt _ (by omega))

lemma decodeUuidV7DocId_uuidNumber (h : UuidBytes bytes) :
    decodeUuidV7DocId (BigEndian.bytes 16 (uuidNumber bytes)) = some (formatUuidBytes bytes) := by
  obtain ⟨hlength, hlt, hversion, hvariant⟩ := h
  obtain ⟨hge, hle⟩ := uuidNumber_lt hlength
  have hp := fun i (hi : i < 16) => getD_bytes (n := uuidNumber bytes) (by omega) hi
  have hread : ∀ {i b r w : ℕ}, bytes[i]? = some b → uuidRadices[i]? = some r →
      (uuidRadices.drop (i + 1)).prod = w → uuidNumber bytes / w % r = b % r :=
    fun hb hr hw => hw ▸ uuidNumber_digit hlength hb hr
  have hfull : ∀ {i b w : ℕ}, bytes[i]? = some b → uuidRadices[i]? = some 256 →
      (uuidRadices.drop (i + 1)).prod = w → uuidNumber bytes / w % 256 = b :=
    fun hb hr hw => (hread hb hr hw).trans (Nat.mod_eq_of_lt (hlt _ (mem_of_getElem? hb)))
  have hpair := fun i (hi : i < 15) => regroup hp hi
  have htag : ((BigEndian.bytes 16 (uuidNumber bytes)).getD 0 0).toNat / 4 % 32 = 0 := by
    rw [hp 0 (by omega)]
    omega
  generalize uuidNumber bytes = n at hp hread hfull hpair htag ⊢
  generalize BigEndian.bytes 16 n = packed at hp hpair htag ⊢
  obtain ⟨b0, b1, b2, b3, b4, b5, b6, b7, b8, b9, b10, b11, b12, b13, b14, b15, rfl⟩ :=
    exists_sixteen hlength
  change b6 / 16 = 7 at hversion
  change b8 / 64 = 2 at hvariant
  have h0 := (hpair 0 (by omega)).1.trans (hfull (i := 0) rfl rfl (by decide +kernel))
  have h1 := (hpair 1 (by omega)).1.trans (hfull (i := 1) rfl rfl (by decide +kernel))
  have h2 := (hpair 2 (by omega)).1.trans (hfull (i := 2) rfl rfl (by decide +kernel))
  have h3 := (hpair 3 (by omega)).1.trans (hfull (i := 3) rfl rfl (by decide +kernel))
  have h4 := (hpair 4 (by omega)).1.trans (hfull (i := 4) rfl rfl (by decide +kernel))
  have h5 := (hpair 5 (by omega)).1.trans (hfull (i := 5) rfl rfl (by decide +kernel))
  have h6 := (hpair 6 (by omega)).2.1.trans (hread (i := 6) rfl rfl (by decide +kernel))
  have h7 := (hpair 7 (by omega)).2.2.trans (hfull (i := 7) rfl rfl (by decide +kernel))
  have h8 := hread (i := 8) (w := 256 ^ (15 - 8)) rfl rfl (by decide +kernel)
  have h9 := (hp 9 (by omega)).trans (hfull (i := 9) rfl rfl (by decide +kernel))
  have h10 := (hp 10 (by omega)).trans (hfull (i := 10) rfl rfl (by decide +kernel))
  have h11 := (hp 11 (by omega)).trans (hfull (i := 11) rfl rfl (by decide +kernel))
  have h12 := (hp 12 (by omega)).trans (hfull (i := 12) rfl rfl (by decide +kernel))
  have h13 := (hp 13 (by omega)).trans (hfull (i := 13) rfl rfl (by decide +kernel))
  have h14 := (hp 14 (by omega)).trans (hfull (i := 14) rfl rfl (by decide +kernel))
  have h15 := (hp 15 (by omega)).trans (hfull (i := 15) rfl rfl (by decide +kernel))
  have hsix : 112 + b6 % 16 = b6 := by omega
  have height : 128 + (packed.getD 8 0).toNat % 64 = b8 := by
    rw [hp 8 (by omega), Nat.mod_mod_of_dvd _ (by decide), h8]
    omega
  refine (if_neg (not_not.mpr htag)).trans (congrArg (fun bytes => some (formatUuidBytes bytes)) ?_)
  simp only [h0, h1, h2, h3, h4, h5, h6, hsix, h7, height, h9, h10, h11, h12, h13, h14, h15]

end Uuids

end ZyncBase.Sdk
