import ZyncBase.Json.RoundTrip

/-! What the JSON reader gives, and the values of claims as JSON texts: they are written unless the
text of a double is too long, and what is written reads back as the JSON value that the claim was
taken from. -/
namespace ZyncBase

open List Option
variable {input rest : Bytes}

namespace JsonRead

inductive WellFormed : JsonValue → Prop
  | null : WellFormed .null
  | bool (b : Bool) : WellFormed (.bool b)
  | integer {v : ℤ} (hmin : -2 ^ 63 ≤ v) (hmax : v < 2 ^ 63) : WellFormed (.integer v)
  | float (r : Real64) : WellFormed (.float r)
  | numberString (text : Bytes) : WellFormed (.numberString text)
  | string {text : Bytes} (h : (Utf.readUtf8 text).isSome) : WellFormed (.string text)
  | array {items : List JsonValue} (h : ∀ v ∈ items, WellFormed v) : WellFormed (.array items)
  | object {entries : List (String × JsonValue)} (h : ∀ e ∈ entries, WellFormed e.2) :
    WellFormed (.object entries)

lemma wellFormed_numberValue (text : Bytes) (negative : Bool) (whole fraction : Bytes)
    (exponent : Option ℤ) : WellFormed (numberValue text negative whole fraction exponent) := by
  unfold numberValue
  split
  · dsimp only
    generalize (if negative = true then -(digitsValue whole : ℤ) else digitsValue whole) = v
    split_ifs with hrange
    · exact .integer hrange.1 hrange.2
    · exact .numberString text
  · dsimp only
    split_ifs with hfinite
    · exact .float _
    · exact .numberString text

variable {value : JsonValue}

lemma wellFormed_readNumber (h : readNumber input = some (value, rest)) : WellFormed value := by
  simp only [readNumber, bind_eq_bind, bind_eq_some_iff, Option.some.injEq, Prod.mk.injEq] at h
  obtain ⟨_, -, _, -, _, -, rfl, -⟩ := h
  exact wellFormed_numberValue ..

lemma isSome_of_readText {text : Bytes} (h : readText input = some (text, rest)) :
    (Utf.readUtf8 text).isSome := by
  obtain ⟨read, -, h⟩ := bind_eq_some_iff.mp h
  dsimp only at h
  split_ifs at h with hsome
  cases h
  exact hsome

section Lists

variable {α : Type} {readOne : Bytes → Option (α × Bytes)} {close : UInt8} {P : α → Prop}

lemma forall_readSeparated (hone : ∀ input value rest, readOne input = some (value, rest) → P value)
    {n : ℕ} {values : List α}
    (h : readSeparated readOne close n input = some (values, rest)) : ∀ v ∈ values, P v := by
  induction n generalizing input values rest with
  | zero => cases h
  | succ n ih =>
    obtain ⟨⟨value, tail⟩, hread, h⟩ := bind_eq_some_iff.mp h
    have hvalue := hone input value tail hread
    dsimp only at h
    cases hskip : skipSpace tail with
    | nil =>
      rw [hskip] at h
      cases h
    | cons c cs =>
      rw [hskip] at h
      dsimp only at h
      split_ifs at h
      · cases h
        exact forall_mem_singleton.mpr hvalue
      · obtain ⟨⟨values, end'⟩, hrest, heq⟩ := map_eq_some_iff.mp h
        cases heq
        exact forall_mem_cons.mpr ⟨hvalue, ih hrest⟩

lemma forall_readList (hone : ∀ input value rest, readOne input = some (value, rest) → P value)
    {values : List α} (h : readList readOne close input = some (values, rest)) : ∀ v ∈ values, P v := by
  unfold readList at h
  cases hskip : skipSpace input with
  | nil =>
    rw [hskip] at h
    cases h
  | cons c cs =>
    rw [hskip] at h
    dsimp only at h
    split_ifs at h
    · cases h
      exact fun v hv => absurd hv not_mem_nil
    · exact forall_readSeparated hone h

end Lists

lemma wellFormed_readMember {read : Bytes → Option (JsonValue × Bytes)}
    (hread : ∀ input value rest, read input = some (value, rest) → WellFormed value)
    {member : String × JsonValue}
    (h : readMember read input = some (member, rest)) : WellFormed member.2 := by
  unfold readMember at h
  split at h
  · cases h
  · split_ifs at h
    obtain ⟨⟨key, tail⟩, -, h⟩ := bind_eq_some_iff.mp h
    obtain ⟨name, -, h⟩ := bind_eq_some_iff.mp h
    split at h
    · cases h
    · split_ifs at h
      obtain ⟨⟨value, end'⟩, hvalue, heq⟩ := map_eq_some_iff.mp h
      cases heq
      exact hread _ _ _ hvalue

lemma wellFormed_readValue {depth : ℕ} (h : readValue depth input = some (value, rest)) : WellFormed value := by
  induction depth generalizing input rest value with
  | zero => cases h
  | succ depth ih =>
    have hliteral {word : Bytes} {v : JsonValue} (hv : WellFormed v) {tail : Bytes}
        (hword : readLiteral word v tail = some (value, rest)) : WellFormed value := by
      unfold readLiteral at hword
      split_ifs at hword
      cases hword
      exact hv
    rw [readValue] at h
    split at h
    · cases h
    · split_ifs at h
      · obtain ⟨read, hread, heq⟩ := map_eq_some_iff.mp h
        cases heq
        exact .string (isSome_of_readText hread)
      · obtain ⟨read, hread, heq⟩ := map_eq_some_iff.mp h
        cases heq
        exact .array (forall_readList (fun _ _ _ h => ih h) hread)
      · obtain ⟨read, hread, heq⟩ := map_eq_some_iff.mp h
        cases heq
        exact .object (forall_readList
          (fun _ _ _ h => wellFormed_readMember (fun _ _ _ h => ih h) h) hread)
      · exact hliteral (.bool true) h
      · exact hliteral (.bool false) h
      · exact hliteral .null h
      · exact wellFormed_readNumber h

lemma wellFormed_parse (h : parse input = some value) : WellFormed value := by
  obtain ⟨⟨read, rest⟩, hread, h⟩ := bind_eq_some_iff.mp h
  dsimp only at h
  split_ifs at h
  cases h
  exact wellFormed_readValue hread

end JsonRead

open JsonWrite JsonRead
def ScalarValue.FitsBuffer : ScalarValue → Prop
  | .real r => (realText r).length ≤ 64
  | _ => True

instance (s : ScalarValue) : Decidable s.FitsBuffer := by
  unfold ScalarValue.FitsBuffer
  cases s <;> infer_instance

/-- The text of every double in the value fits the buffer of the writer. -/
def Value.FitsBuffer : Value → Prop
  | .nil => True
  | .scalar s => s.FitsBuffer
  | .array items => ∀ s ∈ items, s.FitsBuffer

def scalarText : ScalarValue → Bytes
  | .docId id => quoted (hexSlice id)
  | .integer v => integerText v
  | .real r => sign r.negative ++ decimalText (DoubleText.shortest r.magnitude).withPoint
  | .text s => quoted s
  | .boolean b => textOf (if b then "true" else "false")
  | .binary b => quoted (hexOf b)

def valueText : Value → Bytes
  | .nil => textOf "null"
  | .scalar s => scalarText s
  | .array items => 91 :: (separated (items.map scalarText) ++ [93])

section Write

lemma not_point_of_digits (negative : Bool) (n : ℕ) :
    (sign negative ++ digits n).any (fun c => c = 46 || c = 101 || c = 69) = false := by
  refine any_eq_false.mpr fun c hc => ?_
  have hcase : c = 45 ∨ isDigit c = true := by
    obtain hc | hc := mem_append.mp hc
    · cases negative with
      | true => exact .inl (mem_singleton.mp hc)
      | false => cases hc
    · exact .inr (isDigit_of_mem_digits hc)
  rintro hmark
  simp only [Bool.or_eq_true, decide_eq_true_eq] at hmark
  obtain (rfl | rfl) | rfl := hmark <;> revert hcase <;> decide

lemma decimalText_withPoint (d : DoubleText.Decimal) : decimalText d.withPoint =
    decimalText d ++ if d.places = 0 then [46, 48] else [] := by
  unfold DoubleText.Decimal.withPoint
  by_cases hplaces : d.places = 0
  · rw [if_pos hplaces, if_pos hplaces, decimalText, decimalText, if_pos hplaces, append_nil]
    rfl
  · rw [if_neg hplaces, if_neg hplaces, append_nil]

lemma appendFloat_eq (r : Real64) (w : Writer) : w.appendFloat r =
    if (realText r).length ≤ 64 then .ok (w.append (scalarText (.real r)))
    else .error .writeFailed := by
  have htext : scalarText (.real r) = realText r ++
      if (DoubleText.shortest r.magnitude).places = 0 then [46, 48] else [] := by
    rw [scalarText, decimalText_withPoint, realText, List.append_assoc]
  unfold Writer.appendFloat
  dsimp only
  by_cases hfits : (realText r).length ≤ 64
  · rw [if_neg (by omega), if_pos hfits, htext]
    by_cases hplaces : (DoubleText.shortest r.magnitude).places = 0
    · have hnone : (realText r).any (fun c => c = 46 || c = 101 || c = 69) = false := by
        rw [realText, decimalText, if_pos hplaces, append_nil]
        exact not_point_of_digits r.negative _
      rw [if_neg (by rw [hnone]; decide), if_pos hplaces, Writer.append_append]
    · have hpoint : (realText r).any (fun c => c = 46 || c = 101 || c = 69) = true := by
        simp [realText, decimalText, hplaces]
      rw [if_pos hpoint, if_neg hplaces, append_nil]
  · rw [if_pos (by omega), if_neg hfits]

lemma writeScalarJson_eq (s : ScalarValue) (w : Writer) : writeScalarJson s w =
    if s.FitsBuffer then .ok (w.item (scalarText s)) else .error .writeFailed := by
  cases s with
  | real r => exact appendFloat_eq r w.separator
  | _ =>
    refine (if_pos ?_).symm
    trivial

/-- Items that are each written unless one does not fit are written unless one of them does not fit. -/
lemma foldlM_items {α : Type} {write : Writer → α → Except WriteFailure Writer} {text : α → Bytes}
    {fits : α → Prop} [DecidablePred fits]
    (hwrite : ∀ w a, write w a = if fits a then .ok (w.item (text a)) else .error .writeFailed)
    (items : List α) (w : Writer) : items.foldlM write w =
      if ∀ a ∈ items, fits a then .ok ((items.map text).foldl (fun w t => w.item t) w)
      else .error .writeFailed := by
  induction items generalizing w with
  | nil => simp [pure, Except.pure]
  | cons a items ih =>
    rw [foldlM_cons, hwrite, map_cons, foldl_cons]
    by_cases ha : fits a
    · rw [if_pos ha]
      refine (ih _).trans ?_
      simp [ha]
    · rw [if_neg ha, if_neg fun h => ha (h a mem_cons_self)]
      rfl

instance (v : Value) : Decidable v.FitsBuffer := by
  unfold Value.FitsBuffer
  cases v <;> infer_instance

lemma writeJson_eq (v : Value) :
    writeJson v = if v.FitsBuffer then .ok (valueText v) else .error .writeFailed := by
  cases v with
  | nil => rfl
  | scalar s =>
    rw [writeJson, writeScalarJson_eq]
    change _ = if s.FitsBuffer then _ else _
    split_ifs
    · rfl
    · rfl
  | array items =>
    rw [writeJson, foldlM_items fun w s => writeScalarJson_eq s w]
    change _ = if ∀ s ∈ items, s.FitsBuffer then _ else _
    split_ifs
    · simp [Except.map, Writer.endArray, Writer.append, Writer.buf_items, Writer.beginArray, valueText]
      cases items <;> simp [separated]
    · rfl

end Write

section Read

lemma isSome_readUtf8_hexOf (bytes : Bytes) : (Utf.readUtf8 (hexOf bytes)).isSome := by
  have hdigit : ∀ n < 16, String.utf8EncodeChar (Char.ofNat (hexDigit n).toNat) = [hexDigit n] := by
    decide
  have hbytes : hexOf bytes = Utf.utf8 (bytes.flatMap fun b =>
      [Char.ofNat (hexDigit (b.toNat / 16)).toNat, Char.ofNat (hexDigit (b.toNat % 16)).toNat]) := by
    rw [hexOf, Utf.utf8, flatMap_assoc]
    refine flatMap_congr fun b _ => ?_
    have hb := b.toNat_lt
    rw [flatMap_cons, flatMap_cons, flatMap_nil, hdigit _ (by omega), hdigit _ (by omega)]
    rfl
  rw [hbytes, Utf.readUtf8_utf8]
  rfl

lemma readsValue_scalar {depth : ℕ} {json : JsonValue} {s : ScalarValue} (hjson : WellFormed json)
    (h : scalarFromDynamicJsonItem json = .ok s) : ReadsValue (depth + 1) (scalarText s) json := by
  cases hjson with
  | null => cases h
  | bool b =>
    cases h
    exact Reads.bool b
  | integer hmin hmax =>
    cases h
    exact Reads.integer hmin hmax
  | float r =>
    cases h
    have hread (rest : Bytes) (hrest : Ends rest) := readNumber_real r hrest
    simp only [scalarText, decimalText] at hread ⊢
    exact Reads.number hread
  | numberString text => cases h
  | string htext =>
    cases h
    exact Reads.text htext
  | array hitems => cases h
  | object hentries => cases h

lemma readsValue_value {depth : ℕ} {json : JsonValue} {v : Value} (hjson : WellFormed json)
    (h : fromDynamicJson json = .ok v) : ReadsValue (depth + 2) (valueText v) json := by
  have hscalar {s : ScalarValue} (hs : scalarFromDynamicJsonItem json = .ok s) (hv : v = .scalar s) :
      ReadsValue (depth + 2) (valueText v) json := by
    rw [hv]
    exact readsValue_scalar hjson hs
  cases hjson with
  | null => cases h
  | bool b =>
    cases h
    exact hscalar rfl rfl
  | integer hmin hmax =>
    cases h
    exact hscalar rfl rfl
  | float r =>
    cases h
    exact hscalar rfl rfl
  | numberString text => cases h
  | string htext =>
    cases h
    exact hscalar rfl rfl
  | @array items hitems =>
    rw [fromDynamicJson] at h
    split_ifs at h
    obtain ⟨ss, hss, heq⟩ := Outcome.map_eq_ok.mp h
    cases heq
    refine Reads.array (forall₂_map_left_iff.mpr ?_)
    have hall := Outcome.mapM_eq_ok.mp hss
    refine (List.Forall₂.flip ?_)
    refine forall₂_iff_zip.mpr ⟨hall.length_eq, fun {json s} hmem => ?_⟩
    exact readsValue_scalar (hitems json (of_mem_zip hmem).1) ((forall₂_iff_zip.mp hall).2 hmem)
  | object hentries => cases h

end Read

end ZyncBase
