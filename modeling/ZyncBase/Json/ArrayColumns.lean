import ZyncBase.Json.Values
import ZyncBase.Query.CursorToken

/-! Arrays in their columns: written as JSON text, kept as JSONB and read back from JSON text. -/
namespace ZyncBase

open BigEndian JsonRead JsonWrite List Outcome Option SortedSearch ScalarValue

section Hex

lemma hexDigitValue_hexDigit : ∀ n < 16, hexDigitValue (hexDigit n) = some n := by decide

lemma hexDigit_ne : ∀ n < 16, hexDigit n ≠ 43 ∧ hexDigit n ≠ 45 ∧ hexDigit n ≠ 95 := by decide

lemma hexToBytes_hexOf (bytes : Bytes) : hexToBytes (hexOf bytes) = .ok bytes := by
  induction bytes with
  | nil => rfl
  | cons b bytes ih =>
    have hhigh := hexDigitValue_hexDigit (b.toNat / 16) (by have := b.toNat_lt; omega)
    have hlow := hexDigitValue_hexDigit (b.toNat % 16) (by omega)
    have htext : hexOf (b :: bytes) = hexDigit (b.toNat / 16) :: hexDigit (b.toNat % 16) :: hexOf bytes := rfl
    rw [htext, hexToBytes, hhigh, hlow]
    simp only [ih]
    have hbyte : UInt8.ofNat (b.toNat / 16 * 16 + b.toNat % 16) = b := by
      rw [Nat.div_add_mod']
      exact UInt8.ofNat_toNat
    rw [hbyte]
    rfl

lemma parseHexDigits_hexOf (acc : ℕ) (bytes : Bytes) : parseHexDigits acc (hexOf bytes) =
    some (bytes.foldl (fun acc b => acc * 256 + b.toNat) acc) := by
  induction bytes generalizing acc with
  | nil => rfl
  | cons b bytes ih =>
    have hlt : b.toNat / 16 < 16 := by have := b.toNat_lt; omega
    have htext : hexOf (b :: bytes) = hexDigit (b.toNat / 16) :: hexDigit (b.toNat % 16) :: hexOf bytes := rfl
    have hacc : (acc * 16 + b.toNat / 16) * 16 + b.toNat % 16 = acc * 256 + b.toNat := by omega
    rw [htext, parseHexDigits, if_neg (hexDigit_ne _ hlt).2.2, hexDigitValue_hexDigit _ hlt,
      bind_eq_bind, bind_some, parseHexDigits, if_neg (hexDigit_ne _ (by omega)).2.2,
      hexDigitValue_hexDigit _ (by omega), bind_eq_bind, bind_some, hacc, ih]
    rfl

lemma exists_hexDigit {c : UInt8} {bytes : Bytes} (h : c ∈ hexOf bytes) : ∃ n < 16, c = hexDigit n := by
  obtain ⟨b, -, hc⟩ := mem_flatMap.mp h
  have hlt := b.toNat_lt
  rcases mem_cons.mp hc with rfl | hc
  · exact ⟨_, by omega, rfl⟩
  · exact ⟨_, by omega, mem_singleton.mp hc⟩

lemma length_hexOf (bytes : Bytes) : (hexOf bytes).length = 2 * bytes.length := by
  induction bytes with
  | nil => rfl
  | cons b bytes ih =>
    have htext : hexOf (b :: bytes) = hexDigit (b.toNat / 16) :: hexDigit (b.toNat % 16) :: hexOf bytes := rfl
    rw [htext, length_cons, length_cons, ih, length_cons]
    omega

lemma parseHex_digits {text : Bytes} (hne : text ≠ [])
    (h : ∀ c ∈ text, c ≠ 43 ∧ c ≠ 45 ∧ c ≠ 95) : parseHex text = parseHexDigits 0 text := by
  have hlast : text.getLast? ≠ some 95 := fun hc => (h 95 (mem_of_getLast? hc)).2.2 rfl
  have hhead : text.head? ≠ some 95 := fun hc => (h 95 (mem_of_head? hc)).2.2 rfl
  cases text with
  | nil => exact absurd rfl hne
  | cons c cs =>
    obtain ⟨hplus, hminus, -⟩ := h c mem_cons_self
    unfold parseHex
    split
    rename_i negative digits hsign
    obtain ⟨rfl, rfl⟩ : false = negative ∧ c :: cs = digits := by
      rw [← Prod.mk.injEq, ← hsign]
      split
      · rename_i heq
        exact absurd (List.cons.inj heq).1 hplus
      · rename_i heq
        exact absurd (List.cons.inj heq).1 hminus
      · rfl
    rw [if_neg (by rintro (hnil | hfirst | hend) <;> contradiction)]
    cases parseHexDigits 0 (c :: cs) <;> rfl

lemma docIdFromHex_hexSlice (id : DocId) : docIdFromHex (hexSlice id) = .ok id := by
  have htext : hexSlice id = hexOf (DocId.toBytes id) := rfl
  have hbytes : (DocId.toBytes id).length = 16 := bytes_length _ _
  have hlength : (hexSlice id).length = 32 := by rw [htext, length_hexOf, hbytes]
  have hid : id.val < 256 ^ 16 := Nat.lt_of_lt_of_eq id.isLt (by decide)
  rw [docIdFromHex, if_pos hlength, parseHex_digits (ne_nil_of_length_pos (by omega)), htext,
    parseHexDigits_hexOf, DocId.toBytes, foldl_bytes _ _ _ hid, Nat.zero_mul, Nat.zero_add]
  · exact congrArg Except.ok (Fin.ext (Nat.mod_eq_of_lt id.isLt))
  · intro c hc
    obtain ⟨n, hn, rfl⟩ := exists_hexDigit hc
    exact hexDigit_ne n hn

end Hex

def scalarJson : ScalarValue → JsonValue
  | .docId id => .string (hexSlice id)
  | .integer v => .integer v
  | .real r => .float r
  | .text s => .string s
  | .boolean b => .bool b
  | .binary b => .string (hexOf b)

def ScalarValue.IsUtf8 : ScalarValue → Prop
  | .text s => (Utf.readUtf8 s).isSome
  | _ => True

section Scalars

variable {s : ScalarValue} {t : FieldType}

lemma reads_scalarText {depth : ℕ} (hutf8 : s.IsUtf8) (hfits : (Value.scalar s).Fits) :
    ReadsValue (depth + 1) (scalarText s) (scalarJson s) := by
  cases s with
  | docId id => exact Reads.text (isSome_readUtf8_hexOf _)
  | integer v => exact Reads.integer hfits.1 hfits.2
  | real r =>
    have hread (rest : Bytes) (hrest : Ends rest) := readNumber_real r hrest
    simp only [scalarText, decimalText] at hread ⊢
    exact Reads.number hread
  | text text => exact Reads.text hutf8
  | boolean b => exact Reads.bool b
  | binary b => exact Reads.text (isSome_readUtf8_hexOf b)

lemma arrayItemFromJson_scalarJson (h : t.accepts s) : arrayItemFromJson t (scalarJson s) = .ok s := by
  cases t <;> cases s <;> simp only [FieldType.accepts, Bool.false_eq_true] at h
  case docId.docId id => exact congrArg (Except.map docId) (docIdFromHex_hexSlice id)
  case bytes.binary b => exact congrArg (Except.map binary) (hexToBytes_hexOf b)
  all_goals rfl

end Scalars

section Columns

variable {Blob : Type} (jsonb : Bytes → Option Blob) (json : Blob → Bytes)

/-- SQLite takes every text that reads as an array of scalars, and what it gives back reads as the same. -/
def PreservesJson : Prop := ∀ text (ss : List ScalarValue), parse text = some (.array (ss.map scalarJson)) →
  ∃ blob, jsonb text = some blob ∧ parse (json blob) = some (.array (ss.map scalarJson))

/-- An array is bound as its JSON text, through `jsonb(?)`. -/
def storeArray (value : Value) : Option Blob := do jsonb (← (writeJson value).toOption)

/-- The column is selected through `json()`. -/
def readArray (itemsType : Option FieldType) (blob : Blob) : Option Value := do
  (fromJson .array itemsType (← parse (json blob))).toOption

def reread (itemsType : Option FieldType) (value : Value) : Option Value :=
  (storeArray jsonb value).bind (readArray json itemsType)

variable {jsonb json} {itemsType : Option FieldType} {p : Payload} {ps : List Payload} {ss : List ScalarValue}

lemma fits_of_scalarFromPayload {t : FieldType} {s : ScalarValue} (h : scalarFromPayload t p = .ok s)
    (hint : ∀ v, p = .int v → -2 ^ 63 ≤ v ∧ v < 2 ^ 63) : (Value.scalar s).Fits := by
  cases s with
  | integer v =>
    have ht : t = .integer := by
      have haccepts := scalarFromPayload_accepts h
      cases t <;> simp only [FieldType.accepts, Bool.false_eq_true] at haccepts
      rfl
    subst ht
    obtain ⟨v', hv', heq⟩ := map_eq_ok.mp h
    cases heq
    cases p with
    | int n =>
      cases hv'
      exact hint _ rfl
    | uint n =>
      rw [Payload.toInt] at hv'
      split_ifs at hv' with hn
      cases hv'
      exact ⟨by omega, by exact_mod_cast hn⟩
    | _ => cases hv'
  | _ => trivial

lemma fits_of_scalarsFromPayload {t : FieldType} (h : scalarsFromPayload t ps = .ok ss)
    (hint : ∀ v, Payload.int v ∈ ps → -2 ^ 63 ≤ v ∧ v < 2 ^ 63) : ∀ s ∈ ss, (Value.scalar s).Fits := by
  induction ps generalizing ss with
  | nil =>
    cases h
    exact fun s hs => absurd hs not_mem_nil
  | cons p ps ih =>
    rw [scalarsFromPayload] at h
    split_ifs at h
    · obtain ⟨_, he, -⟩ := bind_eq_ok.mp h
      cases he
    · obtain ⟨s, hs, h⟩ := bind_eq_ok.mp h
      obtain ⟨rest, hrest, h⟩ := bind_eq_ok.mp h
      cases h
      refine forall_mem_cons.mpr ⟨?_, ih hrest fun v hv => hint v (mem_cons_of_mem _ hv)⟩
      exact fits_of_scalarFromPayload hs fun v hv => hint v (hv ▸ mem_cons_self)

lemma array_of_fromPayload (h : fromPayload .array itemsType (.arr ps) = .ok (.array ss)) :
    ∃ t xs, itemsType = some t ∧ scalarsFromPayload t ps = .ok xs ∧
      ss = sortedSet order xs := by
  cases itemsType with
  | none => cases h
  | some t =>
    obtain ⟨xs, hxs, h⟩ := bind_eq_ok.mp h
    cases h
    exact ⟨t, xs, rfl, hxs, rfl⟩

lemma scalarFromJson_accepts {t : FieldType} {s : ScalarValue} {value : JsonValue}
    (h : scalarFromJson t value = .ok s) : t.accepts s := by
  cases t with
  | docId =>
    cases value with
    | string text => obtain ⟨id, -, rfl⟩ := map_eq_ok.mp h; rfl
    | _ => cases h
  | text =>
    cases value with
    | string text => cases h; rfl
    | _ => cases h
  | bytes =>
    cases value with
    | string text => obtain ⟨b, -, rfl⟩ := map_eq_ok.mp h; rfl
    | _ => cases h
  | integer => obtain ⟨v, -, rfl⟩ := map_eq_ok.mp h; rfl
  | real => obtain ⟨v, -, rfl⟩ := map_eq_ok.mp h; rfl
  | boolean => obtain ⟨v, -, rfl⟩ := map_eq_ok.mp h; rfl
  | array => cases h

lemma isUtf8_of_arrayItemFromJson {t : FieldType} {s : ScalarValue} {value : JsonValue}
    (hvalue : WellFormed value) (h : arrayItemFromJson t value = .ok s) : s.IsUtf8 := by
  have hscalar : scalarFromJson t value = .ok s := by
    cases value with
    | null => cases h
    | _ => exact h
  cases s with
  | text text =>
    have ht : t = .text := by
      have haccepts := scalarFromJson_accepts hscalar
      cases t <;> simp only [FieldType.accepts, Bool.false_eq_true] at haccepts
      rfl
    subst ht
    cases hvalue with
    | string htext =>
      cases h
      exact htext
    | _ => cases h
  | _ => trivial

lemma isUtf8_of_readArray {blob : Blob} (h : readArray json itemsType blob = some (.array ss)) :
    ∀ s ∈ ss, s.IsUtf8 := by
  obtain ⟨value, hparse, h⟩ := bind_eq_some_iff.mp h
  have hread : fromJson .array itemsType value = .ok (.array ss) := by
    cases hread : fromJson .array itemsType value with
    | error e =>
      rw [hread] at h
      cases h
    | ok v =>
      rw [hread] at h
      cases h
      rfl
  have hvalue := wellFormed_parse hparse
  unfold fromJson at hread
  split at hread
  · cases hread
  · obtain ⟨xs, hxs, hread⟩ := bind_eq_ok.mp hread
    cases hread
    intro s hs
    cases hvalue with
    | array hitems =>
      obtain ⟨item, hitem, hs⟩ :=
        of_mem_mapM hxs (mem_of_mem_sortedSet _ s xs hs)
      exact isUtf8_of_arrayItemFromJson (hitems item hitem) hs
  · cases hread
  · obtain ⟨s, -, hread⟩ := bind_eq_ok.mp hread
    cases hread

lemma parse_valueText (hfits : ∀ s ∈ ss, (Value.scalar s).Fits) (hutf8 : ∀ s ∈ ss, s.IsUtf8) :
    parse (valueText (.array ss)) = some (.array (ss.map scalarJson)) := by
  have hlength : (valueText (.array ss)).length = (separated (ss.map scalarText)).length + 1 + 1 := by
    rw [valueText, length_cons, length_append, length_singleton]
  refine parse_eq (Reads.array (forall₂_map_left_iff.mpr (forall₂_map_right_iff.mpr
    (forall₂_same.mpr fun s hs => ?_))))
  rw [hlength]
  exact reads_scalarText (hutf8 s hs) (hfits s hs)

/-- An accepted array is read back unless a real is too long for the buffer of the writer or a text is
not UTF-8. -/
theorem reread_iff (hsqlite : PreservesJson jsonb json)
    (hint : ∀ v, Payload.int v ∈ ps → -2 ^ 63 ≤ v ∧ v < 2 ^ 63)
    (h : fromPayload .array itemsType (.arr ps) = .ok (.array ss)) :
    reread jsonb json itemsType (.array ss) = some (.array ss) ↔ ∀ s ∈ ss, s.FitsBuffer ∧ s.IsUtf8 := by
  have hwritten : storeArray jsonb (.array ss) =
      if ∀ s ∈ ss, s.FitsBuffer then jsonb (valueText (.array ss)) else none := by
    rw [storeArray, writeJson_eq]
    by_cases hfits : ∀ s ∈ ss, s.FitsBuffer
    · rw [if_pos hfits, if_pos (show (Value.array ss).FitsBuffer from hfits)]
      rfl
    · rw [if_neg hfits, if_neg (show ¬(Value.array ss).FitsBuffer from hfits)]
      rfl
  rw [reread, hwritten]
  constructor
  · intro hread
    by_cases hfits : ∀ s ∈ ss, s.FitsBuffer
    · rw [if_pos hfits] at hread
      obtain ⟨blob, -, hread⟩ := bind_eq_some_iff.mp hread
      exact fun s hs => ⟨hfits s hs, isUtf8_of_readArray hread s hs⟩
    · rw [if_neg hfits] at hread
      cases hread
  · intro hall
    obtain ⟨t, xs, rfl, hxs, rfl⟩ := array_of_fromPayload h
    have hmem {s : ScalarValue} (hs : s ∈ sortedSet order xs) : s ∈ xs :=
      mem_of_mem_sortedSet _ s xs hs
    have hparse := parse_valueText (fun s hs => fits_of_scalarsFromPayload hxs hint s (hmem hs))
      fun s hs => (hall s hs).2
    have hitems : ((sortedSet order xs).map scalarJson).mapM
        (arrayItemFromJson t) = .ok (sortedSet order xs) := by
      refine Outcome.mapM_eq_ok.mpr (forall₂_map_left_iff.mpr (forall₂_same.mpr fun s hs => ?_))
      exact arrayItemFromJson_scalarJson (scalarsFromPayload_accepts hxs s (hmem hs))
    obtain ⟨blob, hblob, hkept⟩ := hsqlite _ _ hparse
    rw [if_pos fun s hs => (hall s hs).1, hblob, bind_some, readArray,
      hkept, bind_eq_bind, bind_some, fromJson, hitems]
    exact congrArg (fun ss => some (Value.array ss))
      (sortedSet_of_strict _ (strict_sortedSet _ xs))

end Columns

namespace ArrayColumnExample

lemma preservesJson : PreservesJson (some : Bytes → Option Bytes) id := fun text _ h => ⟨text, rfl, h⟩

theorem reread_names : reread some id (some .text) (.array [.text [97], .text [98]]) =
    some (.array [.text [97], .text [98]]) := by
  have hread : fromPayload .array (some .text) (.arr [.str [98], .str [97]]) =
      .ok (.array [.text [97], .text [98]]) := by decide
  refine (reread_iff preservesJson (by simp) hread).mpr ?_
  intro s hs
  rcases mem_cons.mp hs with rfl | hs
  · exact ⟨trivial, isSome_readUtf8_textOf "a"⟩
  · obtain rfl := mem_singleton.mp hs
    exact ⟨trivial, isSome_readUtf8_textOf "b"⟩

def large : Real64 := ⟨false, 0x54B249AD2594C37D, by decide⟩

/-- A text that is not UTF-8 is stored and cannot be read, and a large real cannot be stored. -/
theorem not_reread :
    (fromPayload .array (some .text) (.arr [.str [255]]) = .ok (.array [.text [255]]) ∧
      storeArray some (.array [.text [255]]) = some [91, 34, 255, 34, 93] ∧
      reread some id (some .text) (.array [.text [255]]) = none) ∧
    fromPayload .array (some .real) (.arr [.float false 0x54B249AD2594C37D]) = .ok (.array [.real large]) ∧
      reread some id (some .real) (.array [.real large]) = none := by
  have hstored : storeArray some (.array [.text [255]]) = some [91, 34, 255, 34, 93] := by decide
  have hparse : parse [91, 34, 255, 34, 93] = none := by decide
  have hlong : ¬(real large).FitsBuffer := by decide +kernel
  have hrefused : storeArray some (.array [.real large]) = (none : Option Bytes) := by
    rw [storeArray, writeJson_eq, if_neg fun h => hlong (h _ mem_cons_self)]
    rfl
  refine ⟨⟨by decide, hstored, ?_⟩, by decide, ?_⟩
  · rw [reread, hstored, bind_some, readArray, id, hparse]
    rfl
  · rw [reread, hrefused]
    rfl

end ArrayColumnExample

end ZyncBase
