import ZyncBase.Json.Numbers

/-! Texts, arrays and objects that the writer prints read back as they are. -/
namespace ZyncBase

open List Option
namespace JsonRead

open JsonWrite

section Texts

lemma hexUnit_control {n : ℕ} (h : n < 32) :
    hexUnit 48 48 (hexDigit (n / 16)) (hexDigit (n % 16)) = some (UInt16.ofNat n) ∧
      Utf.isLow (UInt16.ofNat n) = false ∧ Utf.isHigh (UInt16.ofNat n) = false ∧
        String.utf8EncodeChar (Char.ofNat (UInt16.ofNat n).toNat) = [UInt8.ofNat n] := by
  revert n
  decide

lemma unescape_table {c : UInt8} {esc : Bytes} (h : escapeTable c = some esc) :
    ∃ e, esc = [92, e] ∧ e ≠ 117 ∧ unescape e = some c := by
  unfold escapeTable at h
  split_ifs at h with h34 h92 h10 h13 h9 h8 h12
  · cases h
    exact ⟨34, rfl, by decide, by rw [h34]; rfl⟩
  · cases h
    exact ⟨92, rfl, by decide, by rw [h92]; rfl⟩
  · cases h
    exact ⟨110, rfl, by decide, by rw [h10]; rfl⟩
  · cases h
    exact ⟨114, rfl, by decide, by rw [h13]; rfl⟩
  · cases h
    exact ⟨116, rfl, by decide, by rw [h9]; rfl⟩
  · cases h
    exact ⟨98, rfl, by decide, by rw [h8]; rfl⟩
  · cases h
    exact ⟨102, rfl, by decide, by rw [h12]; rfl⟩

lemma readChars_cons {c : UInt8} {rest char rest' : Bytes} (n : ℕ) (hc : c ≠ 34)
    (hread : readChar c rest = some (char, rest')) : readChars (n + 1) (c :: rest) =
      (readChars n rest').map fun (text, rest) => (char ++ text, rest) := by
  rw [readChars, if_neg hc, hread]
  simp only [bind_eq_bind, bind_some]
  cases readChars n rest' <;> rfl

lemma readChars_escape (n : ℕ) (c : UInt8) (tail : Bytes) : readChars (n + 1) (escape c ++ tail) =
    (readChars n tail).map fun (text, rest) => (c :: text, rest) := by
  unfold escape
  cases htable : escapeTable c with
  | some esc =>
    obtain ⟨e, rfl, he, hunescape⟩ := unescape_table htable
    have hchar : readChar 92 (e :: tail) = some ([c], tail) := by
      rw [readChar, if_pos rfl, readEscape, if_neg he, hunescape]
      rfl
    exact readChars_cons n (by decide) hchar
  | none =>
    have hne : c ≠ 34 ∧ c ≠ 92 := by
      constructor <;> rintro rfl <;> cases htable
    dsimp only
    split_ifs with hcontrol
    · have hlt : c.toNat < 32 := UInt8.lt_iff_toNat_lt.mp hcontrol
      obtain ⟨hunit, hlow, hhigh, hchar⟩ := hexUnit_control hlt
      rw [UInt8.ofNat_toNat] at hchar
      have hread : readChar 92 (117 :: 48 :: 48 :: hexDigit (c.toNat / 16) ::
          hexDigit (c.toNat % 16) :: tail) = some ([c], tail) := by
        rw [readChar, if_pos rfl, readEscape, if_pos rfl, readUnicode]
        simp only [hunit, bind_eq_bind, bind_some, hlow, hhigh, Bool.false_eq_true, if_false, hchar]
      exact readChars_cons n (by decide) hread
    · have hread : readChar c tail = some ([c], tail) := by
        rw [readChar, if_neg hne.2, if_neg hcontrol]
      exact readChars_cons n hne.1 hread

lemma readChars_escaped {n : ℕ} {text : Bytes} (h : text.length < n) (rest : Bytes) :
    readChars n (text.flatMap escape ++ 34 :: rest) = some (text, rest) := by
  induction text generalizing n with
  | nil =>
    obtain ⟨n, rfl⟩ : ∃ k, n = k + 1 := ⟨n - 1, by omega⟩
    rfl
  | cons c text ih =>
    rw [length_cons] at h
    obtain ⟨n, rfl⟩ : ∃ k, n = k + 1 := ⟨n - 1, by omega⟩
    rw [flatMap_cons, append_assoc, readChars_escape, ih (by omega)]
    rfl

lemma escape_ne_nil (c : UInt8) : escape c ≠ [] := by
  unfold escape
  cases htable : escapeTable c with
  | some esc =>
    obtain ⟨e, rfl, -, -⟩ := unescape_table htable
    exact cons_ne_nil _ _
  | none =>
    dsimp only
    split_ifs <;> exact cons_ne_nil _ _

lemma length_escaped (text : Bytes) : text.length ≤ (text.flatMap escape).length := by
  induction text with
  | nil => exact le_rfl
  | cons c text ih =>
    have hc := length_pos_of_ne_nil (escape_ne_nil c)
    rw [flatMap_cons, length_append, length_cons]
    omega

lemma readText_quoted {text : Bytes} (h : (Utf.readUtf8 text).isSome) (rest : Bytes) :
    readText (text.flatMap escape ++ 34 :: rest) = some (text, rest) := by
  have hlength := length_escaped text
  rw [readText, readChars_escaped]
  · exact if_pos h
  · rw [length_append, length_cons]
    omega

lemma nameOf_textOf (name : String) : nameOf (textOf name) = some name := by
  rw [nameOf, textOf, Utf.readUtf8_utf8, map_some, String.ofList_toList]

lemma isSome_readUtf8_textOf (name : String) : (Utf.readUtf8 (textOf name)).isSome := by
  rw [textOf, Utf.readUtf8_utf8]
  rfl

end Texts

/-- What is printed in a list reads back, up to the comma or the bracket after it. -/
structure Reads {α : Type} (read : Bytes → Option (α × Bytes)) (close : UInt8) (text : Bytes)
    (value : α) : Prop where
  starts : ∃ c cs, text = c :: cs ∧ isSpace c = false ∧ c ≠ close
  read : ∀ rest, Ends rest → read (text ++ rest) = some (value, rest)

/-- What is printed for a value reads back as the value, nested at most so deep. -/
abbrev ReadsValue (depth : ℕ) : Bytes → JsonValue → Prop := Reads (readValue depth) 93

lemma skipSpace_cons {c : UInt8} (h : isSpace c = false) (cs : Bytes) : skipSpace (c :: cs) = c :: cs := by
  rw [skipSpace, dropWhile_cons, h]
  rfl

section Lists

variable {α : Type} {read : Bytes → Option (α × Bytes)} {close : UInt8}

lemma ends_cons {c : UInt8} (h : c = 44 ∨ c = 93 ∨ c = 125) (rest : Bytes) : Ends (c :: rest) := by
  intro d hd
  cases hd
  exact h

lemma ends_nil : Ends [] := by
  intro c hc
  cases hc

lemma readSeparated_separated (hclose : close = 93 ∨ close = 125) {texts : List Bytes}
    {values : List α} (h : List.Forall₂ (Reads read close) texts values) (hne : texts ≠ []) {n : ℕ}
    (hn : texts.length ≤ n) (rest : Bytes) :
    readSeparated read close n (separated texts ++ close :: rest) = some (values, rest) := by
  have hspace : isSpace close = false ∧ (44 : UInt8) ≠ close := by
    obtain rfl | rfl := hclose <;> decide
  induction h generalizing n with
  | nil => exact absurd rfl hne
  | @cons text value texts values htext htexts ih =>
    rw [length_cons] at hn
    obtain ⟨n, rfl⟩ : ∃ k, n = k + 1 := ⟨n - 1, by omega⟩
    cases texts with
    | nil =>
      cases htexts
      have hread := htext.read (close :: rest) (ends_cons (.inr hclose) rest)
      rw [separated, readSeparated, hread]
      simp only [bind_eq_bind, bind_some, skipSpace_cons hspace.1, if_true]
    | cons next texts =>
      have hread := htext.read (44 :: (separated (next :: texts) ++ close :: rest)) (ends_cons (.inl rfl) _)
      have hrest := ih (cons_ne_nil _ _) (n := n) (by omega)
      rw [separated, append_assoc, cons_append, readSeparated, hread]
      · simp only [bind_eq_bind, bind_some,
          skipSpace_cons (show isSpace 44 = false from rfl), if_neg hspace.2, if_true, hrest, map_some]
      · exact cons_ne_nil _ _

lemma length_separated {texts : List Bytes} (h : ∀ text ∈ texts, text ≠ []) :
    texts.length ≤ (separated texts).length := by
  induction texts with
  | nil => exact le_rfl
  | cons text texts ih =>
    obtain ⟨htext, htexts⟩ := forall_mem_cons.mp h
    have hpos := length_pos_of_ne_nil htext
    have hrest := ih htexts
    cases texts with
    | nil => exact hpos
    | cons next texts =>
      rw [separated, length_append]
      · simp only [length_cons] at hrest ⊢
        omega
      · exact cons_ne_nil _ _

lemma readList_separated (hclose : close = 93 ∨ close = 125) {texts : List Bytes}
    {values : List α} (h : List.Forall₂ (Reads read close) texts values) (rest : Bytes) :
    readList read close (separated texts ++ close :: rest) = some (values, rest) := by
  have hspace : isSpace close = false := by
    obtain rfl | rfl := hclose <;> rfl
  cases h with
  | nil =>
    rw [separated, nil_append, readList, skipSpace_cons hspace]
    exact if_pos rfl
  | @cons text value texts values htext htexts =>
    have hall : ∀ t ∈ text :: texts, t ≠ [] := by
      intro t ht
      have hmem := List.Forall₂.cons htext htexts
      obtain ⟨i, hi, rfl⟩ := getElem_of_mem ht
      obtain ⟨c, cs, hstart, -⟩ := (hmem.get hi (hmem.length_eq ▸ hi)).starts
      intro hnil
      rw [get_eq_getElem, hnil] at hstart
      cases hstart
    have hlength := length_separated hall
    have hread := readSeparated_separated hclose (.cons htext htexts) (cons_ne_nil _ _)
      (n := (separated (text :: texts) ++ close :: rest).length)
      (by rw [length_append]; omega) rest
    obtain ⟨c, cs, hstart, hc, hne⟩ := htext.starts
    have hfirst : ∃ tail, separated (text :: texts) ++ close :: rest = c :: tail := by
      cases texts with
      | nil => exact ⟨cs ++ close :: rest, by rw [separated, hstart, cons_append]⟩
      | cons next texts =>
        refine ⟨cs ++ 44 :: separated (next :: texts) ++ close :: rest, ?_⟩
        rw [separated, hstart, cons_append, cons_append]
        exact cons_ne_nil _ _
    obtain ⟨tail, htail⟩ := hfirst
    rw [htail] at hread ⊢
    rw [readList, skipSpace_cons hc]
    exact (if_neg hne).trans hread

end Lists

section Values

variable {depth : ℕ}

lemma Reads.text {text : Bytes} (h : (Utf.readUtf8 text).isSome) :
    ReadsValue (depth + 1) (quoted text) (.string text) where
  starts := ⟨34, _, rfl, rfl, by decide⟩
  read rest _ := by
    have htext : quoted text ++ rest = 34 :: (text.flatMap escape ++ 34 :: rest) := by
      simp [quoted]
    rw [htext, readValue, skipSpace_cons rfl]
    simp only [if_true, readText_quoted h, map_some]

lemma readValue_number (depth : ℕ) (cs : Bytes) {c : UInt8} (h : c = 45 ∨ isDigit c = true) :
    isSpace c = false ∧ c ≠ 93 ∧ readValue (depth + 1) (c :: cs) = readNumber (c :: cs) := by
  have hdispatch : ∀ c : UInt8, (c = 45 ∨ isDigit c = true) → isSpace c = false ∧ c ≠ 34 ∧ c ≠ 91 ∧
      c ≠ 123 ∧ c ≠ 116 ∧ c ≠ 102 ∧ c ≠ 110 ∧ c ≠ 93 := by
    rintro c (rfl | hc)
    · decide
    · have hrange : 48 ≤ c.toNat ∧ c.toNat ≤ 57 := by
        simpa [isDigit, UInt8.le_iff_toNat_le] using hc
      simp only [isSpace, ne_eq, ← UInt8.toNat_inj, Bool.or_eq_false_iff, decide_eq_false_iff_not,
        UInt8.reduceToNat]
      omega
  obtain ⟨hspace, h34, h91, h123, h116, h102, h110, h93⟩ := hdispatch c h
  refine ⟨hspace, h93, ?_⟩
  rw [readValue, skipSpace_cons hspace]
  simp only [if_neg h34, if_neg h91, if_neg h123, if_neg h116, if_neg h102, if_neg h110]

lemma sign_starts (negative : Bool) (n : ℕ) (tail : Bytes) : ∃ c cs,
    sign negative ++ (digits n ++ tail) = c :: cs ∧ (c = 45 ∨ isDigit c = true) := by
  cases negative with
  | true => exact ⟨45, _, rfl, .inl rfl⟩
  | false =>
    obtain hzero | ⟨c, cs, hdigits, -, hdigit⟩ := exists_digits n
    · exact ⟨48, tail, by rw [hzero]; rfl, .inr rfl⟩
    · exact ⟨c, cs ++ tail, by rw [hdigits]; rfl, .inr hdigit⟩

lemma Reads.number {negative : Bool} {n : ℕ} {tail : Bytes} {value : JsonValue}
    (h : ∀ rest, Ends rest →
      readNumber (sign negative ++ (digits n ++ tail) ++ rest) = some (value, rest)) :
    ReadsValue (depth + 1) (sign negative ++ (digits n ++ tail)) value := by
  obtain ⟨c, cs, hstart, hc⟩ := sign_starts negative n tail
  rw [hstart] at h ⊢
  obtain ⟨hspace, h93, -⟩ := readValue_number depth cs hc
  refine ⟨⟨c, cs, rfl, hspace, h93⟩, fun rest hrest => ?_⟩
  rw [cons_append, (readValue_number depth (cs ++ rest) hc).2.2]
  exact h rest hrest

lemma Reads.integer {v : ℤ} (hmin : -2 ^ 63 ≤ v) (hmax : v < 2 ^ 63) :
    ReadsValue (depth + 1) (integerText v) (.integer v) := by
  have hread : ∀ rest, Ends rest → readNumber (sign (decide (v < 0)) ++ (digits v.natAbs ++ []) ++ rest) =
        some (.integer v, rest) := by
    intro rest hrest
    rw [append_nil]
    exact readNumber_integer hmin hmax hrest
  have h : ReadsValue (depth + 1) _ _ := Reads.number hread
  rwa [append_nil] at h

lemma Reads.bool (value : Bool) :
    ReadsValue (depth + 1) (textOf (if value then "true" else "false")) (.bool value) := by
  cases value with
  | true => exact ⟨⟨116, [114, 117, 101], rfl, rfl, by decide⟩, fun rest _ => rfl⟩
  | false => exact ⟨⟨102, [97, 108, 115, 101], rfl, rfl, by decide⟩, fun rest _ => rfl⟩

lemma Reads.array {texts : List Bytes} {values : List JsonValue}
    (h : List.Forall₂ (ReadsValue depth) texts values) :
    ReadsValue (depth + 1) (91 :: (separated texts ++ [93])) (.array values) where
  starts := ⟨91, _, rfl, rfl, by decide⟩
  read rest _ := by
    have htext : (91 :: (separated texts ++ [93])) ++ rest = 91 :: (separated texts ++ 93 :: rest) := by
      simp
    rw [htext, readValue, skipSpace_cons rfl]
    simp only [readList_separated (.inl rfl) h rest]
    rfl

lemma Reads.member {key : String} {text : Bytes} {value : JsonValue} (h : ReadsValue depth text value) :
    Reads (readMember (readValue depth)) 125 (memberText (textOf key) text) (key, value) where
  starts := ⟨34, _, rfl, rfl, by decide⟩
  read rest hrest := by
    have htext : memberText (textOf key) text ++ rest =
        34 :: ((textOf key).flatMap escape ++ 34 :: (58 :: (text ++ rest))) := by
      simp [memberText, quoted]
    rw [htext, readMember, skipSpace_cons rfl]
    simp only [if_true, readText_quoted (isSome_readUtf8_textOf key), nameOf_textOf, bind_eq_bind, bind_some,
      skipSpace_cons (show isSpace 58 = false from rfl), h.read rest hrest, map_some]

lemma Reads.object {texts : List Bytes} {members : List (String × JsonValue)}
    (h : List.Forall₂ (Reads (readMember (readValue depth)) 125) texts members) :
    ReadsValue (depth + 1) (123 :: (separated texts ++ [125])) (.object members) where
  starts := ⟨123, _, rfl, rfl, by decide⟩
  read rest _ := by
    have htext : (123 :: (separated texts ++ [125])) ++ rest = 123 :: (separated texts ++ 125 :: rest) := by
      simp
    rw [htext, readValue, skipSpace_cons rfl]
    simp only [readList_separated (.inr rfl) h rest]
    rfl

lemma parse_eq {text : Bytes} {value : JsonValue} (h : ReadsValue (text.length + 1) text value) :
    parse text = some value := by
  have hread := h.read [] ends_nil
  rw [append_nil] at hread
  rw [parse, hread]
  rfl

end Values

end JsonRead
end ZyncBase
