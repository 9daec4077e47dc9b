import ZyncBase.Sdk.DocIds

/-! Document ids and their sixteen bytes: which bytes are those of an id, and how ids are ordered. -/
namespace ZyncBase.Sdk

open BigEndian List MixedRadix

variable {id : JsString} {bytes digits : List ℕ}

variable {n : ℕ} {packed : Bytes}

section Packing

def bytesToNumber (bytes : Bytes) : ℕ := bytes.foldl (fun acc b => acc * 256 + b.toNat) 0

def shortNumber (id : JsString) : ℕ := number 0 ((shortDigits 24 id).map fun digit => (39, digit))

lemma valid_short_iff : isValidShortDocId id = true ↔
    id ≠ [] ∧ id.length ≤ 24 ∧ ∀ u ∈ id, (shortCharToDigit u).isSome := by
  rw [isValidShortDocId, Bool.and_eq_true, Bool.and_eq_true, decide_eq_true_eq, decide_eq_true_eq,
    all_eq_true, length_pos_iff, and_assoc]

lemma bounded_short (h : ∀ digit ∈ digits, digit < 39) : Bounded (digits.map fun digit => (39, digit)) := by
  intro d hd
  obtain ⟨digit, hmem, rfl⟩ := mem_map.mp hd
  exact h digit hmem

lemma weight_short (digits : List ℕ) : weight (digits.map fun digit => (39, digit)) = 39 ^ digits.length := by
  rw [weight, map_map]
  induction digits with
  | nil => rfl
  | cons digit digits ih => rw [map_cons, prod_cons, ih, length_cons, Nat.pow_succ, Nat.mul_comm]; rfl

lemma shortNumber_lt (h : ∀ u ∈ id, (shortCharToDigit u).isSome) : shortNumber id < 2 ^ 127 := by
  have hlt := number_lt (bounded_short (shortDigits_lt (n := 24) h))
  rw [weight_short, shortDigits_length] at hlt
  exact hlt.trans (by decide)

lemma first_byte (hn : n < 2 ^ 128) : 128 ≤ ((BigEndian.bytes 16 n).getD 0 0).toNat ↔ 2 ^ 127 ≤ n := by
  rw [getD_bytes (by norm_num; exact hn) (by omega)]
  omega

lemma bytesToNumber_bytes (hn : n < 2 ^ 128) : bytesToNumber (BigEndian.bytes 16 n) = n := by
  have hfold := foldl_bytes 16 n 0 (by norm_num; exact hn)
  rwa [Nat.zero_mul, Nat.zero_add] at hfold

lemma unpack_short (h : isValidShortDocId id) :
    unpackDocId (BigEndian.bytes 16 (shortNumber id)) = some id := by
  obtain ⟨hne, hlength, hchars⟩ := valid_short_iff.mp h
  have hlt := shortNumber_lt hchars
  have hfirst : ¬ 128 ≤ ((BigEndian.bytes 16 (shortNumber id)).getD 0 0).toNat := by
    rw [first_byte (by omega)]
    omega
  rw [unpackDocId, if_neg (by simp), if_neg hfirst]
  change decodeShortDocId (bytesToNumber _) = some id
  rw [bytesToNumber_bytes (by omega), decodeShortDocId, shortNumber]
  have htaken := takeDigits_number (shortDigits_lt (n := 24) hchars) 0 []
  rw [shortDigits_length, append_nil] at htaken
  rw [htaken]
  dsimp only
  have hhead : (shortDigits 24 id).head? ≠ some 0 := by
    cases id with
    | nil => exact absurd rfl hne
    | cons u us =>
      obtain ⟨i, hi, -, -⟩ := shortCharToDigit_eq (hchars u mem_cons_self)
      rw [shortDigits, hi]
      simp
  rw [if_neg (by simpa using hhead), collectDigits_shortDigits hchars hlength]

lemma unpack_uuid (h : UuidBytes bytes) :
    unpackDocId (BigEndian.bytes 16 (uuidNumber bytes)) = some (formatUuidBytes bytes) := by
  obtain ⟨hge, hlt⟩ := uuidNumber_lt h.length
  rw [unpackDocId, if_neg (by simp), if_pos ((first_byte (by omega)).mpr hge)]
  exact decodeUuidV7DocId_uuidNumber h

lemma canonical_length (h : isCanonicalUUIDv7 id) : id.length = 36 := by
  have hlength : ∀ {slots : List UuidSlot} {id : JsString}, matchesPattern slots id →
      id.length = slots.length := by
    intro slots
    induction slots with
    | nil =>
      intro id h
      cases id with
      | nil => rfl
      | cons u us => cases h
    | cons slot slots ih =>
      intro id h
      cases id with
      | nil => cases h
      | cons u us =>
        rw [matchesPattern, Bool.and_eq_true] at h
        rw [length_cons, length_cons, ih h.2]
  exact hlength h

lemma not_short_of_canonical (h : isCanonicalUUIDv7 id) : isValidShortDocId id = false := by
  rw [← Bool.not_eq_true, valid_short_iff]
  rintro ⟨-, hle, -⟩
  rw [canonical_length h] at hle
  omega

lemma packDocId_eq_some : packDocId id = some packed ↔
    (isCanonicalUUIDv7 id ∧ packed = BigEndian.bytes 16 (uuidNumber (parseUuidBytes id))) ∨
      isValidShortDocId id ∧ packed = BigEndian.bytes 16 (shortNumber id) := by
  unfold packDocId
  by_cases huuid : isCanonicalUUIDv7 id
  · rw [if_pos huuid, not_short_of_canonical huuid]
    simp only [Option.some.injEq, huuid, true_and, Bool.false_eq_true, false_and, or_false]
    exact eq_comm
  · rw [if_neg huuid]
    split_ifs with hshort
    · simp only [Option.some.injEq, huuid, Bool.false_eq_true, false_and, false_or, hshort, true_and]
      exact eq_comm
    · simp [huuid, hshort]

end Packing

variable {slots : List UuidSlot}

section Unpacking

lemma number_takeDigits (n value : ℕ) (taken : List ℕ) : ∃ digits : List ℕ,
    digits.length = n ∧ (∀ digit ∈ digits, digit < 39) ∧ (takeDigits n value taken).2 = digits ++ taken ∧
      number (takeDigits n value taken).1 (digits.map fun digit => (39, digit)) = value := by
  induction n generalizing value taken with
  | zero => exact ⟨[], rfl, nofun, rfl, rfl⟩
  | succ n ih =>
    obtain ⟨digits, hlength, hlt, htaken, hnumber⟩ := ih (value / 39) (value % 39 :: taken)
    refine ⟨digits ++ [value % 39], by simp [hlength], ?_, ?_, ?_⟩
    · intro digit hmem
      rcases mem_append.mp hmem with hmem | hmem
      · exact hlt digit hmem
      · rw [mem_singleton.mp hmem]
        exact Nat.mod_lt _ (by omega)
    · rw [takeDigits, htaken, append_assoc]
      rfl
    · rw [takeDigits, map_append, number_append, hnumber]
      change value / 39 * 39 + value % 39 = value
      omega

lemma shortCharToDigit_alphabet : ∀ i < 38, ∃ u, shortIdAlphabet[i]? = some u ∧
    shortCharToDigit u = some (i + 1) := by
  decide

lemma collectDigits_eq_some {seenEnd : Bool}
    (hlt : ∀ digit ∈ digits, digit < 39) (h : collectDigits seenEnd digits = some id) :
    shortDigits digits.length id = digits ∧ id.length ≤ digits.length ∧
      (∀ u ∈ id, (shortCharToDigit u).isSome) ∧ (seenEnd = true → id = []) := by
  induction digits generalizing seenEnd id with
  | nil =>
    cases h
    exact ⟨rfl, le_rfl, nofun, fun _ => rfl⟩
  | cons digit digits ih =>
    rw [forall_mem_cons] at hlt
    rw [collectDigits] at h
    by_cases hzero : digit = 0
    · rw [if_pos hzero] at h
      obtain ⟨hdigits, -, -, hnil⟩ := ih hlt.2 h
      cases hnil rfl
      rw [length_cons, shortDigits, hdigits, hzero]
      exact ⟨rfl, Nat.zero_le _, nofun, fun _ => rfl⟩
    rw [if_neg hzero] at h
    cases seenEnd with
    | true =>
      rw [if_pos rfl] at h
      cases h
    | false =>
      rw [if_neg Bool.false_ne_true] at h
      obtain ⟨u, hu, h⟩ := Option.bind_eq_some_iff.mp h
      obtain ⟨us, hus, h⟩ := Option.bind_eq_some_iff.mp h
      cases h
      obtain ⟨hdigits, hlength, hchars, -⟩ := ih hlt.2 hus
      obtain ⟨u', hu', hdigit⟩ := shortCharToDigit_alphabet (digit - 1) (by omega)
      rw [hu, Option.some.injEq] at hu'
      rw [← hu'] at hdigit
      rw [length_cons, shortDigits, hdigit, hdigits, Option.getD_some, show digit - 1 + 1 = digit by omega]
      refine ⟨rfl, Nat.succ_le_succ hlength, forall_mem_cons.mpr ⟨?_, hchars⟩, fun hf => ?_⟩
      · rw [hdigit]
        rfl
      · cases hf

lemma pack_of_unpack_short {value : ℕ} (h : decodeShortDocId value = some id) :
    isValidShortDocId id ∧ shortNumber id = value := by
  obtain ⟨digits, hlength, hlt, htaken, hnumber⟩ := number_takeDigits 24 value []
  unfold decodeShortDocId at h
  dsimp only at h
  rw [append_nil] at htaken
  rw [htaken] at h
  split_ifs at h with hbad
  rw [not_or, not_not] at hbad
  obtain ⟨hdigits, hle, hchars, -⟩ := collectDigits_eq_some hlt h
  rw [hlength] at hdigits hle
  refine ⟨valid_short_iff.mpr ⟨?_, hle, hchars⟩, ?_⟩
  · rintro rfl
    rw [shortDigits_nil] at hdigits
    rw [← hdigits] at hbad
    exact hbad.2 rfl
  · rw [shortNumber, hdigits]
    rw [hbad.1] at hnumber
    exact hnumber

/-- The digits that a pattern takes: the version is 7, and the variant has the bits 10. -/
def Fills : List UuidSlot → List ℕ → Prop
  | [], digits => digits = []
  | .dash :: slots, digits => Fills slots digits
  | slot :: slots, digits => ∃ digit rest, digits = digit :: rest ∧ digit < 16 ∧ slot.allows (hexUnit digit) ∧
      Fills slots rest

lemma matches_render (h : Fills slots digits) :
    matchesPattern slots (render slots digits) ∧ hexDigits (render slots digits) = digits := by
  induction slots generalizing digits with
  | nil =>
    rw [Fills] at h
    rw [h]
    exact ⟨rfl, rfl⟩
  | cons slot slots ih =>
    by_cases hslot : slot = .dash
    · subst hslot
      obtain ⟨hmatches, hdigits⟩ := ih h
      rw [render, matchesPattern, hmatches, hexDigits_dash]
      exact ⟨rfl, hdigits⟩
    · have hfills : ∃ digit rest, digits = digit :: rest ∧ digit < 16 ∧ slot.allows (hexUnit digit) ∧
          Fills slots rest := by
        cases slot with
        | dash => exact absurd rfl hslot
        | hex => exact h
        | version => exact h
        | variant => exact h
      obtain ⟨digit, rest, rfl, hlt, hallows, hrest⟩ := hfills
      obtain ⟨hmatches, hdigits⟩ := ih hrest
      have hvalue := hexValue?_hexUnit hlt
      have hdash : hexUnit digit ≠ 45 := by
        intro hdash
        rw [hdash] at hvalue
        cases hvalue
      rw [render_digit hslot, matchesPattern, hallows, hmatches, hexDigits_digit hvalue hdash, hdigits]
      exact ⟨rfl, rfl⟩

lemma pairs_nibbles : pairs (nibbles bytes) = bytes := by
  induction bytes with
  | nil => rfl
  | cons b bytes ih =>
    change (b / 16 * 16 + b % 16) :: pairs (nibbles bytes) = b :: bytes
    rw [ih, show b / 16 * 16 + b % 16 = b by omega]

lemma fills_hex (hn : n ≤ digits.length)
    (hlt : ∀ digit ∈ digits.take n, digit < 16) (h : Fills slots (digits.drop n)) :
    Fills (hexSlots n ++ slots) digits := by
  induction n generalizing digits with
  | zero => exact h
  | succ n ih =>
    cases digits with
    | nil => simp at hn
    | cons digit digits =>
      rw [take_succ_cons, forall_mem_cons] at hlt
      refine ⟨digit, digits, rfl, hlt.1, ?_, ih (Nat.le_of_succ_le_succ hn) hlt.2 h⟩
      rw [UuidSlot.allows, hexValue?_hexUnit hlt.1]
      rfl

lemma fills_nibbles (h : UuidBytes bytes) : Fills uuidV7Pattern (nibbles bytes) := by
  obtain ⟨hlength, hlt, hversion, hvariant⟩ := h
  obtain ⟨b0, b1, b2, b3, b4, b5, b6, b7, b8, b9, b10, b11, b12, b13, b14, b15, rfl⟩ :=
    exists_sixteen hlength
  have hnibble : ∀ digit ∈ nibbles
      [b0, b1, b2, b3, b4, b5, b6, b7, b8, b9, b10, b11, b12, b13, b14, b15], digit < 16 := by
    intro digit hmem
    obtain ⟨b, hb, hdigit⟩ := mem_flatMap.mp hmem
    have := hlt b hb
    rcases mem_cons.mp hdigit with rfl | hdigit
    · omega
    · rw [mem_singleton.mp hdigit]
      omega
  change b6 / 16 = 7 at hversion
  change b8 / 64 = 2 at hvariant
  have hb8 : b8 / 16 = 8 ∨ b8 / 16 = 9 ∨ b8 / 16 = 10 ∨ b8 / 16 = 11 := by omega
  have htake : ∀ n m, ∀ digit ∈ ((nibbles [b0, b1, b2, b3, b4, b5, b6, b7, b8, b9, b10, b11, b12, b13,
      b14, b15]).drop m).take n, digit < 16 :=
    fun n m digit hmem => hnibble digit (mem_of_mem_drop (mem_of_mem_take hmem))
  change Fills (hexSlots 8 ++ (.dash :: (hexSlots 4 ++ (.dash :: .version :: (hexSlots 3 ++
    (.dash :: .variant :: (hexSlots 3 ++ (.dash :: (hexSlots 12 ++ []))))))))) _
  refine fills_hex (by simp [nibbles]) (htake 8 0) ?_
  refine fills_hex (n := 4) (by simp [nibbles]) (htake 4 8) ?_
  refine ⟨b6 / 16, _, rfl, by omega, by rw [hversion]; decide, ?_⟩
  refine fills_hex (n := 3) (by simp) (htake 3 13) ?_
  refine ⟨b8 / 16, _, rfl, by omega, ?_, ?_⟩
  · rcases hb8 with h | h | h | h <;> rw [h] <;> decide
  refine fills_hex (n := 3) (by simp) (htake 3 17) ?_
  exact fills_hex (n := 12) (by simp) (htake 12 20) rfl

lemma canonical_format (h : UuidBytes bytes) :
    isCanonicalUUIDv7 (formatUuidBytes bytes) ∧ parseUuidBytes (formatUuidBytes bytes) = bytes := by
  obtain ⟨hmatches, hdigits⟩ := matches_render (fills_nibbles h)
  rw [formatUuidBytes_eq h.length]
  exact ⟨hmatches, by rw [parseUuidBytes, hdigits, pairs_nibbles]⟩

lemma exists_uuidBytes (hge : 2 ^ 127 ≤ n) (hlt : n < 2 ^ 127 + 2 ^ 122) :
    ∃ bytes, UuidBytes bytes ∧ uuidNumber bytes = n := by
  have hpos : ∀ r ∈ uuidRadices, 0 < r := by decide
  obtain ⟨ds, hfst, hbounded, hnumber⟩ := exists_digits hpos (n := n - 2 ^ 127) (by
    rw [show uuidRadices.prod = 2 ^ 122 from rfl]
    omega)
  have hlength : ds.length = 16 := by
    rw [← length_map (f := Prod.fst), hfst]
    rfl
  obtain ⟨⟨r0, d0⟩, ⟨r1, d1⟩, ⟨r2, d2⟩, ⟨r3, d3⟩, ⟨r4, d4⟩, ⟨r5, d5⟩, ⟨r6, d6⟩, ⟨r7, d7⟩, ⟨r8, d8⟩, ⟨r9, d9⟩,
    ⟨r10, d10⟩, ⟨r11, d11⟩, ⟨r12, d12⟩, ⟨r13, d13⟩, ⟨r14, d14⟩, ⟨r15, d15⟩, rfl⟩ := exists_sixteen hlength
  simp only [map_cons, map_nil, uuidRadices, List.cons.injEq, and_true] at hfst
  obtain ⟨rfl, rfl, rfl, rfl, rfl, rfl, rfl, rfl, rfl, rfl, rfl, rfl, rfl, rfl, rfl, rfl⟩ := hfst
  simp only [Bounded, mem_cons, not_mem_nil, or_false, forall_eq_or_imp, forall_eq] at hbounded
  obtain ⟨h0, h1, h2, h3, h4, h5, h6, h7, h8, h9, h10, h11, h12, h13, h14, h15⟩ := hbounded
  refine ⟨[d0, d1, d2, d3, d4, d5, 112 + d6, d7, 128 + d8, d9, d10, d11, d12, d13, d14, d15],
    ⟨rfl, ?_, ?_, ?_⟩, ?_⟩
  · simp only [mem_cons, not_mem_nil, or_false, forall_eq_or_imp, forall_eq]
    omega
  · change (112 + d6) / 16 = 7
    omega
  · change (128 + d8) / 64 = 2
    omega
  · have hpayload : uuidPayload [d0, d1, d2, d3, d4, d5, 112 + d6, d7, 128 + d8, d9, d10, d11, d12, d13, d14,
        d15] = [(256, d0), (256, d1), (256, d2), (256, d3), (256, d4), (256, d5), (16, d6), (256, d7),
        (64, d8), (256, d9), (256, d10), (256, d11), (256, d12), (256, d13), (256, d14), (256, d15)] := by
      simp only [uuidPayload, uuidRadices, zipWith_cons_cons, zipWith_nil_right, List.cons.injEq,
        Prod.mk.injEq, true_and, and_true]
      omega
    rw [uuidNumber, hpayload, hnumber]
    omega

lemma pack_of_unpack (h : unpackDocId packed = some id) : packDocId id = some packed := by
  unfold unpackDocId at h
  by_cases hlength : packed.length ≠ 16
  · rw [if_pos hlength] at h
    cases h
  rw [if_neg hlength] at h
  rw [not_not] at hlength
  have hpacked := bytes_foldl packed
  have hlt := foldl_lt packed
  rw [hlength] at hpacked hlt
  change bytesToNumber packed < 256 ^ 16 at hlt
  change BigEndian.bytes 16 (bytesToNumber packed) = packed at hpacked
  by_cases huuid : 128 ≤ (packed.getD 0 0).toNat
  · rw [if_pos huuid] at h
    have hdecode := h
    have htag : (packed.getD 0 0).toNat / 4 % 32 = 0 := by
      by_contra hbits
      rw [decodeUuidV7DocId, if_pos hbits] at h
      cases h
    rw [← hpacked, getD_bytes hlt (by omega)] at huuid htag
    obtain ⟨bytes, hbytes, hnumber⟩ := exists_uuidBytes (n := bytesToNumber packed) (by omega) (by omega)
    rw [← hpacked, ← hnumber, decodeUuidV7DocId_uuidNumber hbytes] at hdecode
    cases hdecode
    obtain ⟨hcanonical, hparse⟩ := canonical_format hbytes
    rw [packDocId_eq_some]
    exact .inl ⟨hcanonical, by rw [hparse, hnumber, hpacked]⟩
  · rw [if_neg huuid] at h
    obtain ⟨hvalid, hnumber⟩ := pack_of_unpack_short h
    rw [packDocId_eq_some]
    refine .inr ⟨hvalid, ?_⟩
    rw [hnumber]
    exact hpacked.symm

lemma unpack_of_pack (h : packDocId id = some packed) : unpackDocId packed = some id := by
  obtain ⟨huuid, rfl⟩ | ⟨hshort, rfl⟩ := packDocId_eq_some.mp h
  · obtain ⟨hbytes, hformat⟩ := uuidBytes_parse huuid
    rw [unpack_uuid hbytes, hformat]
  · exact unpack_short hshort

end Unpacking

section Order

lemma compare_hexUnit : ∀ a < 16, ∀ b < 16, compare (hexUnit a) (hexUnit b) = compare a b := by
  decide

lemma compare_render {a b : List ℕ} (ha : Fills slots a) (hb : Fills slots b) :
    compare (render slots a) (render slots b) = compare a b := by
  have hcons {slot : UuidSlot} (hslot : slot ≠ .dash) {slots : List UuidSlot} {digits : List ℕ}
      (h : Fills (slot :: slots) digits) :
      ∃ digit rest, digits = digit :: rest ∧ digit < 16 ∧ Fills slots rest := by
    cases slot with
    | dash => exact absurd rfl hslot
    | hex | version | variant =>
      obtain ⟨digit, rest, hdigits, hlt, -, hrest⟩ := h
      exact ⟨digit, rest, hdigits, hlt, hrest⟩
  induction slots generalizing a b with
  | nil =>
    rw [Fills] at ha hb
    rw [ha, hb]
    rfl
  | cons slot slots ih =>
    by_cases hslot : slot = .dash
    · subst hslot
      rw [render, render, compare_cons, Std.ReflOrd.compare_self, ih ha hb]
      rfl
    · obtain ⟨d, ds, rfl, hd, hds⟩ := hcons hslot ha
      obtain ⟨e, es, rfl, he, hes⟩ := hcons hslot hb
      rw [render_digit hslot, render_digit hslot, compare_cons, compare_cons,
        compare_hexUnit d hd e he, ih hds hes]

lemma compare_nibbles {a b : List ℕ} (h : a.length = b.length) :
    compare (nibbles a) (nibbles b) = compare a b := by
  induction a generalizing b with
  | nil =>
    cases b with
    | nil => rfl
    | cons e es => cases h
  | cons d ds ih =>
    cases b with
    | nil => cases h
    | cons e es =>
      change compare (d / 16 :: d % 16 :: nibbles ds) (e / 16 :: e % 16 :: nibbles es) = _
      rw [compare_cons, compare_cons, compare_cons, ih (Nat.succ.inj h),
        compare_divMod d e 16 (by omega), Ordering.then_assoc]

lemma compare_uuidNumber {a b : List ℕ} (ha : UuidBytes a) (hb : UuidBytes b) :
    compare (uuidNumber a) (uuidNumber b) = compare a b := by
  have hradices : (uuidPayload a).map Prod.fst = (uuidPayload b).map Prod.fst := by
    rw [map_fst_uuidPayload ha.length, map_fst_uuidPayload hb.length]
  rw [uuidNumber, uuidNumber, Nat.add_comm, Nat.add_comm (2 ^ 127), Utf.compare_add,
    compare_number hradices (bounded_uuidPayload a) (bounded_uuidPayload b)]
  obtain ⟨hlength, hlt, hversion, hvariant⟩ := ha
  obtain ⟨hlength', hlt', hversion', hvariant'⟩ := hb
  obtain ⟨a0, a1, a2, a3, a4, a5, a6, a7, a8, a9, a10, a11, a12, a13, a14, a15, rfl⟩ := exists_sixteen hlength
  obtain ⟨b0, b1, b2, b3, b4, b5, b6, b7, b8, b9, b10, b11, b12, b13, b14, b15, rfl⟩ := exists_sixteen hlength'
  change a6 / 16 = 7 at hversion
  change a8 / 64 = 2 at hvariant
  change b6 / 16 = 7 at hversion'
  change b8 / 64 = 2 at hvariant'
  simp only [mem_cons, not_mem_nil, or_false, forall_eq_or_imp, forall_eq] at hlt hlt'
  have hsix : compare (a6 % 16) (b6 % 16) = compare a6 b6 := by
    rw [← Utf.compare_add _ _ 112, show a6 % 16 + 112 = a6 by omega, show b6 % 16 + 112 = b6 by omega]
  have height : compare (a8 % 64) (b8 % 64) = compare a8 b8 := by
    rw [← Utf.compare_add _ _ 128, show a8 % 64 + 128 = a8 by omega, show b8 % 64 + 128 = b8 by omega]
  simp only [uuidPayload, uuidRadices, zipWith_cons_cons, zipWith_nil_right, map_cons,
    map_nil, compare_cons, hsix, height, Nat.mod_eq_of_lt, hlt, hlt']

lemma compare_shortNumber {a b : JsString} (ha : isValidShortDocId a) (hb : isValidShortDocId b) :
    compare (shortNumber a) (shortNumber b) = compare a b := by
  obtain ⟨-, hla, hca⟩ := valid_short_iff.mp ha
  obtain ⟨-, hlb, hcb⟩ := valid_short_iff.mp hb
  have hsnd (digits : List ℕ) : (digits.map fun digit => (39, digit)).map Prod.snd = digits := by
    rw [map_map]
    exact map_id digits
  have hfst : ((shortDigits 24 a).map fun digit => (39, digit)).map Prod.fst =
      ((shortDigits 24 b).map fun digit => (39, digit)).map Prod.fst := by
    rw [map_map, map_map]
    change (shortDigits 24 a).map (fun _ => 39) = (shortDigits 24 b).map fun _ => 39
    rw [map_const', map_const', shortDigits_length, shortDigits_length]
  rw [shortNumber, shortNumber, compare_number hfst (bounded_short (shortDigits_lt hca))
    (bounded_short (shortDigits_lt hcb)), hsnd, hsnd, compare_shortDigits hca hcb hla hlb]

lemma compareDocIds_packed {a b : JsString} {pa pb : Bytes} (ha : packDocId a = some pa)
    (hb : packDocId b = some pb) : ∃ m n, m < 2 ^ 128 ∧ n < 2 ^ 128 ∧ pa = BigEndian.bytes 16 m ∧
      pb = BigEndian.bytes 16 n ∧ compareDocIds a b = compare m n := by
  have hfamily {id : JsString} : (isCanonicalUUIDv7 id → docIdSortFamily id = 1) ∧
      (isValidShortDocId id → docIdSortFamily id = 0) := by
    refine ⟨fun h => if_pos h, fun h => ?_⟩
    have hne : ¬ isCanonicalUUIDv7 id := fun hc => by
      rw [not_short_of_canonical hc] at h
      cases h
    rw [docIdSortFamily, if_neg hne, if_pos h]
  obtain ⟨hua, rfl⟩ | ⟨hsa, rfl⟩ := packDocId_eq_some.mp ha
  · obtain ⟨hba, hfa⟩ := uuidBytes_parse hua
    obtain ⟨hge, hlt⟩ := uuidNumber_lt hba.length
    obtain ⟨hub, rfl⟩ | ⟨hsb, rfl⟩ := packDocId_eq_some.mp hb
    · obtain ⟨hbb, hfb⟩ := uuidBytes_parse hub
      obtain ⟨-, hlt'⟩ := uuidNumber_lt hbb.length
      refine ⟨_, _, by omega, by omega, rfl, rfl, ?_⟩
      rw [compareDocIds, hfamily.1 hua, hfamily.1 hub, if_neg (by simp), compare_uuidNumber hba hbb]
      conv_lhs => rw [← hfa, ← hfb, formatUuidBytes_eq hba.length, formatUuidBytes_eq hbb.length]
      rw [compare_render (fills_nibbles hba) (fills_nibbles hbb),
        compare_nibbles (hba.length.trans hbb.length.symm)]
    · have hlt' := shortNumber_lt (valid_short_iff.mp hsb).2.2
      refine ⟨_, _, by omega, by omega, rfl, rfl, ?_⟩
      rw [compareDocIds, hfamily.1 hua, hfamily.2 hsb, if_pos (by simp), compare_gt_iff_gt.mpr (by omega),
        compare_gt_iff_gt.mpr (by omega)]
  · have hlt := shortNumber_lt (valid_short_iff.mp hsa).2.2
    obtain ⟨hub, rfl⟩ | ⟨hsb, rfl⟩ := packDocId_eq_some.mp hb
    · obtain ⟨hbb, -⟩ := uuidBytes_parse hub
      obtain ⟨hge, hlt'⟩ := uuidNumber_lt hbb.length
      refine ⟨_, _, by omega, by omega, rfl, rfl, ?_⟩
      rw [compareDocIds, hfamily.2 hsa, hfamily.1 hub, if_pos (by simp), compare_lt_iff_lt.mpr (by omega),
        compare_lt_iff_lt.mpr (by omega)]
    · have hlt' := shortNumber_lt (valid_short_iff.mp hsb).2.2
      refine ⟨_, _, by omega, by omega, rfl, rfl, ?_⟩
      rw [compareDocIds, hfamily.2 hsa, hfamily.2 hsb, if_neg (by simp), compare_shortNumber hsa hsb]

lemma compare_docIdFromBytes {m : ℕ} (hm : m < 2 ^ 128) (hn : n < 2 ^ 128) :
    ∃ x y, docIdFromBytes (BigEndian.bytes 16 m) = .ok x ∧ docIdFromBytes (BigEndian.bytes 16 n) = .ok y ∧
      compare x y = compare m n := by
  have hread {n : ℕ} (hn : n < 2 ^ 128) : docIdFromBytes (BigEndian.bytes 16 n) = .ok ⟨n, hn⟩ := by
    rw [docIdFromBytes, if_pos (by simp)]
    change Except.ok (Fin.ofNat _ (bytesToNumber _)) = _
    rw [bytesToNumber_bytes hn]
    exact congrArg Except.ok (Fin.ext (Nat.mod_eq_of_lt hn))
  refine ⟨_, _, hread hm, hread hn, ?_⟩
  change compareOfLessAndEq _ _ = compareOfLessAndEq m n
  simp [compareOfLessAndEq]

/-- The ids that the client accepts are packed into sixteen bytes each and unpacked from them, those of the
two families into different ones; all other bytes are rejected; and ids are compared as the bytes, and the
server's ids, that they are packed into. -/
theorem docIds_packed_exactly : (∀ id, (packDocId id).isSome ↔ isCanonicalUUIDv7 id ∨ isValidShortDocId id) ∧
    (∀ id packed, packDocId id = some packed ↔ unpackDocId packed = some id) ∧
    (∀ id packed, packDocId id = some packed → packed.length = 16) ∧
    (∀ a b packed, isCanonicalUUIDv7 a → isValidShortDocId b → packDocId a = some packed →
      packDocId b ≠ some packed) ∧
    ∀ a b pa pb, packDocId a = some pa → packDocId b = some pb → compareDocIds a b = compare pa pb ∧
      ∃ x y, docIdFromBytes pa = .ok x ∧ docIdFromBytes pb = .ok y ∧ compareDocIds a b = compare x y := by
  refine ⟨fun id => ?_, fun id packed => ⟨unpack_of_pack, pack_of_unpack⟩, fun id packed h => ?_,
    fun a b packed ha hb hpa hpb => ?_, fun a b pa pb ha hb => ?_⟩
  · rw [Option.isSome_iff_exists]
    simp only [packDocId_eq_some, exists_or, exists_and_left, exists_eq, and_true]
  · obtain ⟨-, rfl⟩ | ⟨-, rfl⟩ := packDocId_eq_some.mp h
    · exact BigEndian.bytes_length _ _
    · exact BigEndian.bytes_length _ _
  · have hsame := (unpack_of_pack hpa).symm.trans (unpack_of_pack hpb)
    cases hsame
    rw [not_short_of_canonical ha] at hb
    cases hb
  · obtain ⟨m, n, hm, hn, rfl, rfl, hcompare⟩ := compareDocIds_packed ha hb
    obtain ⟨x, y, hx, hy, hxy⟩ := compare_docIdFromBytes hm hn
    exact ⟨hcompare.trans (BigEndian.compare_bytes 16 m n hm hn).symm, x, y, hx, hy, hcompare.trans hxy.symm⟩

end Order

end ZyncBase.Sdk
