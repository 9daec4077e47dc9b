import ZyncBase.Lib.Base64
import ZyncBase.Query.ParserSafety
import ZyncBase.Typed.MsgPack

/-! Cursor tokens as bytes: base64 over MessagePack. A token decodes to the sort values of its row, and
whatever bytes a client sends decode to values of the order's own shape or to an error. -/
namespace ZyncBase

open List Outcome

section Encoding

variable (encode : Payload → Bytes)

def encodeDescriptor (d : SortDescriptor) : Bytes :=
  encodeArrayHeader 2 ++ encode (.uint d.fieldIndex) ++ encode (.uint d.desc.toNat)

/-- What a token holds before its base64. -/
def cursorBytes (tableIndex : ℕ) (descriptors : List SortDescriptor) (values : List Value) : Bytes :=
  encodeArrayHeader 3 ++ encode (.uint tableIndex) ++
    (encodeArrayHeader descriptors.length ++ descriptors.flatMap (encodeDescriptor encode)) ++
    (encodeArrayHeader values.length ++ values.flatMap (encodeMsgPack encode))

def encodeCursorToken (tableIndex : ℕ) (descriptors : List SortDescriptor) (values : List Value) :
    Bytes :=
  Base64.encodeStandard (cursorBytes encode tableIndex descriptors values)

end Encoding

def readToken (decodeConsumed : Bytes → Option (Payload × ℕ)) (token : Bytes) : Option Payload := do
  let decoded ← Base64.decodeStandard token
  let (p, consumed) ← decodeConsumed decoded
  if consumed = decoded.length then some p else none

/-- A scalar that came over the wire: integers have 64 bits, texts and byte strings the longest
length that is read. -/
def Value.OnWire : Value → Prop
  | .scalar (.integer v) => -2 ^ 63 ≤ v ∧ v < 2 ^ 63
  | .scalar (.text v) | .scalar (.binary v) => v.length ≤ maxStringLength
  | .array _ => False
  | _ => True

def CanonicalOrder (t : Table) (ds : List SortDescriptor) : Prop :=
  ∃ clauses : Option (List SortDescriptor),
    (∀ cs, clauses = some cs → cs.length ≤ maxSortClauses ∧ ∀ d ∈ cs, d.Sortable t) ∧
      settleOrderBy t clauses = .ok ds

lemma CanonicalOrder.sortable {t : Table} {ds : List SortDescriptor} (h : CanonicalOrder t ds) :
    ∀ d ∈ ds, d.Sortable t := by
  obtain ⟨clauses, hclauses, hsettle⟩ := h
  exact (settleOrderBy_canonical (fun cs hcs => (hclauses cs hcs).2) hsettle).1

lemma CanonicalOrder.length {t : Table} {ds : List SortDescriptor} (h : CanonicalOrder t ds) :
    ds.length ≤ maxSortClauses + 1 := by
  obtain ⟨clauses, hclauses, hsettle⟩ := h
  cases clauses with
  | none =>
    cases hsettle
    exact Nat.le_add_left 1 _
  | some cs =>
    obtain ⟨hlength, -⟩ := hclauses cs rfl
    rw [settleOrderBy, canonicalizeOrderBy] at hsettle
    split_ifs at hsettle
    · cases hsettle
      exact Nat.le_succ_of_le hlength
    · cases hsettle
      rw [length_append]
      exact Nat.add_le_add_right hlength 1

variable {depth : ℕ}

section Reading

variable {encode : Payload → Bytes} {decodeConsumed : Bytes → Option (Payload × ℕ)}

lemma written_scalar {s : ScalarValue} (h : (Value.scalar s).OnWire) :
    Written encode depth (encodeScalarMsgPack encode s) (writeScalarMsgPack s) := by
  cases s with
  | docId id =>
    refine .bin ?_
    rw [DocId.toBytes, BigEndian.bytes_length]
    decide
  | integer v =>
    obtain ⟨hlow, hhigh⟩ := h
    rw [encodeScalarMsgPack, writeScalarMsgPack]
    split_ifs with hpos
    · exact .plain (show v.toNat < 2 ^ 64 by omega)
    · exact .plain ⟨hlow, by omega⟩
  | real v => exact .plain (show v.magnitude < 2 ^ 63 from v.finite.trans (by decide))
  | text v => exact .str h
  | boolean v => exact .plain trivial
  | binary v => exact .bin h

lemma written_value {v : Value} (h : v.OnWire) :
    Written encode depth (encodeMsgPack encode v) (writeMsgPack v) := by
  cases v with
  | nil => exact .plain trivial
  | scalar s => exact written_scalar h
  | array items => cases h

lemma written_list {α : Type} {bytes : α → Bytes} {payload : α → Payload} {as : List α}
    (hlength : as.length ≤ maxArrayLength)
    (h : ∀ a ∈ as, Written encode depth (bytes a) (payload a)) :
    Written encode (depth + 1) (encodeArrayHeader as.length ++ as.flatMap bytes) (.arr (as.map payload)) := by
  have hitems : ∀ item ∈ as.map fun a => (bytes a, payload a), Written encode depth item.1 item.2 := by
    intro item hitem
    obtain ⟨a, ha, rfl⟩ := mem_map.mp hitem
    exact h a ha
  have hwritten := Written.arr (by rw [length_map]; exact hlength) hitems
  rw [length_map, flatMap_map, map_map] at hwritten
  exact hwritten

lemma written_descriptor {d : SortDescriptor} (h : d.fieldIndex < 2 ^ 64) :
    Written encode (depth + 1) (encodeDescriptor encode d) (.arr [.uint d.fieldIndex, .uint d.desc.toNat]) := by
  have hdesc : d.desc.toNat < 2 ^ 64 := by cases d.desc <;> decide
  have hwritten := @Written.arr encode depth [(encode (.uint d.fieldIndex), .uint d.fieldIndex),
    (encode (.uint d.desc.toNat), .uint d.desc.toNat)] (show 2 ≤ maxArrayLength by decide) (by
      simp only [forall_mem_cons]
      exact ⟨.plain h, .plain hdesc, nofun⟩)
  rw [flatMap_cons, flatMap_singleton, ← append_assoc] at hwritten
  exact hwritten

/-- What an encoded token is made of, in the ranges of the source's types. -/
structure Encodable (tableIndex : ℕ) (ds : List SortDescriptor) (values : List Value) : Prop where
  table : tableIndex < 2 ^ 64
  fields : ∀ d ∈ ds, d.fieldIndex < 2 ^ 64
  keys : ds.length ≤ maxArrayLength
  onWire : ∀ v ∈ values, v.OnWire
  values : values.length ≤ maxArrayLength

variable {tableIndex : ℕ} {ds : List SortDescriptor} {values : List Value}

lemma written_cursor (h : Encodable tableIndex ds values) :
    Written encode 31 (cursorBytes encode tableIndex ds values) (cursorPayload tableIndex ds values) := by
  have horder : Written encode 30 (encodeArrayHeader ds.length ++ ds.flatMap (encodeDescriptor encode))
      (.arr (ds.map fun d => .arr [.uint d.fieldIndex, .uint d.desc.toNat])) :=
    written_list h.keys fun d hd => written_descriptor (h.fields d hd)
  have hcursor : Written encode 30 (encodeArrayHeader values.length ++ values.flatMap (encodeMsgPack encode))
      (.arr (values.map writeMsgPack)) :=
    written_list h.values fun v hv => written_value (h.onWire v hv)
  have hwritten := @Written.arr encode 30 [(encode (.uint tableIndex), .uint tableIndex),
    (encodeArrayHeader ds.length ++ ds.flatMap (encodeDescriptor encode), _),
    (encodeArrayHeader values.length ++ values.flatMap (encodeMsgPack encode), _)]
    (show 3 ≤ maxArrayLength by decide) (by
      simp only [forall_mem_cons]
      exact ⟨.plain h.table, horder, hcursor, nofun⟩)
  rw [flatMap_cons, flatMap_cons, flatMap_singleton, ← append_assoc, ← append_assoc] at hwritten
  exact hwritten

lemma readToken_encode (hlib : ReadsMessagePack encode decodeConsumed) (h : Encodable tableIndex ds values) :
    readToken decodeConsumed (encodeCursorToken encode tableIndex ds values) =
      some (cursorPayload tableIndex ds values) := by
  have hread := hlib _ _ [] (written_cursor h)
  rw [append_nil] at hread
  rw [readToken, encodeCursorToken, Base64.decodeStandard_encodeStandard]
  change (decodeConsumed _).bind _ = _
  rw [hread, Option.bind_some]
  exact if_pos rfl

end Reading

section Tokens

variable {t : Table} {tableIndex : ℕ} {ds : List SortDescriptor}

/-- What a key of the order makes of a payload: nothing where the field allows that, else a scalar of
the field's type. -/
def SortDescriptor.Takes (t : Table) (d : SortDescriptor) (p : Payload) (v : Value) : Prop :=
  ∃ f, t.fields[d.fieldIndex]? = some f ∧
    ((p.isNil = true ∧ v = .nil ∧ f.required = false) ∨
      ∃ s, scalarFromPayload f.storageType p = .ok s ∧ v = .scalar s ∧ f.storageType.accepts s)

/-- The payload names the table, repeats the order and carries the values of the cursor. -/
structure CursorOf (t : Table) (tableIndex : ℕ) (ds : List SortDescriptor) (table : Payload)
    (order items : List Payload) (cursor : Cursor) : Prop where
  table : table.toUsize = some tableIndex
  order : List.Forall₂ (fun p (d : SortDescriptor) => ∃ field direction, p = .arr [field, direction] ∧
    field.toUsize = some d.fieldIndex ∧ direction.toUsize = some d.desc.toNat) order ds
  values : List.Forall₂ (fun (key : SortDescriptor × Payload) v => key.1.Takes t key.2 v)
    (ds.zip items) cursor.values
  length : items.length = ds.length

lemma validateCursorDescriptors_eq_ok {ps : List Payload} (h : validateCursorDescriptors ps ds = .ok ()) :
    List.Forall₂ (fun p (d : SortDescriptor) => ∃ field direction, p = .arr [field, direction] ∧
      field.toUsize = some d.fieldIndex ∧ direction.toUsize = some d.desc.toNat) ps ds := by
  fun_induction validateCursorDescriptors ps ds with
  | case1 => exact .nil
  | case2 field direction ps d ds ih =>
    obtain ⟨i, hi, hrest⟩ := bind_eq_ok.mp h
    obtain ⟨code, hcode, hrest⟩ := bind_eq_ok.mp hrest
    by_cases hdiffers : i ≠ d.fieldIndex ∨ code ≠ d.desc.toNat
    · rw [if_pos hdiffers] at hrest
      cases hrest
    rw [if_neg hdiffers] at hrest
    rw [not_or, not_not, not_not] at hdiffers
    refine .cons ⟨field, direction, rfl, ?_, ?_⟩ (ih hrest)
    · rw [ofOption_eq_ok.mp hi, hdiffers.1]
    · rw [ofOption_eq_ok.mp hcode, hdiffers.2]
  | case3 => cases h

lemma validateCursorIdentity_eq_ok {p : Payload} {items : List Payload}
    (h : validateCursorIdentity tableIndex ds p = .ok items) :
    ∃ table order, p = .arr [table, .arr order, .arr items] ∧ table.toUsize = some tableIndex ∧
      validateCursorDescriptors order ds = .ok () ∧ items.length = ds.length := by
  unfold validateCursorIdentity at h
  split at h
  · rename_i table order values
    obtain ⟨index, htable, h⟩ := bind_eq_ok.mp h
    by_cases hindex : index ≠ tableIndex
    · rw [if_pos hindex] at h
      cases h
    rw [if_neg hindex] at h
    cases order with
    | arr order =>
      obtain ⟨_, horder, h⟩ := bind_eq_ok.mp h
      cases values with
      | arr vs =>
        dsimp only at h
        by_cases hlength : vs.length ≠ ds.length
        · rw [if_pos hlength] at h
          cases h
        · rw [if_neg hlength] at h
          cases h
          rw [not_not] at hindex
          subst hindex
          exact ⟨table, order, rfl, ofOption_eq_ok.mp htable, horder, not_not.mp hlength⟩
      | _ => cases h
    | _ => cases h
  · cases h

lemma decodeCursorValues_eq_ok (hds : ∀ d ∈ ds, d.Sortable t) {items : List Payload}
    {values : List Value} (h : decodeCursorValues t ds items = .ok values) :
    List.Forall₂ (fun (key : SortDescriptor × Payload) v => key.1.Takes t key.2 v) (ds.zip items) values := by
  induction ds generalizing items values with
  | nil =>
    cases h
    exact .nil
  | cons d ds ih =>
    cases items with
    | nil =>
      cases h
      exact .nil
    | cons p items =>
      obtain ⟨⟨f, hf, hscalar⟩, hrest⟩ := forall_mem_cons.mp hds
      rw [decodeCursorValues, hf, ofOption, ok_bind] at h
      by_cases hnil : p.isNil ∧ f.required
      · rw [if_pos hnil] at h
        cases h
      rw [if_neg hnil] at h
      by_cases harr : isArr p
      · rw [if_pos harr] at h
        cases h
      rw [if_neg harr] at h
      obtain ⟨v, hv, h⟩ := bind_eq_ok.mp h
      obtain ⟨vs, hvs, h⟩ := bind_eq_ok.mp h
      cases h
      refine .cons ⟨f, hf, ?_⟩ (ih hrest hvs)
      have hdecoded := liftCodec_eq_ok.mp hv
      rw [fromPayload, if_neg hscalar] at hdecoded
      split_ifs at hdecoded with hempty
      · cases hdecoded
        refine .inl ⟨hempty, rfl, ?_⟩
        cases hrequired : f.required with
        | false => rfl
        | true => exact absurd ⟨hempty, hrequired⟩ hnil
      · obtain ⟨s, hs, hdecoded⟩ := bind_eq_ok.mp hdecoded
        cases hdecoded
        exact .inr ⟨s, hs, rfl, scalarFromPayload_accepts hs⟩

lemma decodeCursorToken_eq_ok {decodeToken : Bytes → Option Payload} (hds : ∀ d ∈ ds, d.Sortable t)
    {token : Bytes} {cursor : Cursor}
    (h : decodeCursorToken decodeToken t tableIndex ds token = .ok cursor) :
    ∃ table order items, decodeToken token = some (.arr [table, .arr order, .arr items]) ∧
      CursorOf t tableIndex ds table order items cursor := by
  obtain ⟨p, hp, h⟩ := bind_eq_ok.mp h
  obtain ⟨items, hitems, h⟩ := bind_eq_ok.mp h
  obtain ⟨values, hvalues, h⟩ := bind_eq_ok.mp h
  cases h
  obtain ⟨table, order, rfl, htable, horder, hlength⟩ := validateCursorIdentity_eq_ok hitems
  exact ⟨table, order, items, ofOption_eq_ok.mp hp, htable, validateCursorDescriptors_eq_ok horder,
    decodeCursorValues_eq_ok hds hvalues, hlength⟩

lemma validateCursorDescriptors_write_ne {ds' : List SortDescriptor} (h : ds' ≠ ds) :
    validateCursorDescriptors (ds'.map fun d => .arr [.uint d.fieldIndex, .uint d.desc.toNat]) ds =
      .error .invalidCursorSortValue := by
  induction ds' generalizing ds with
  | nil =>
    cases ds with
    | nil => exact absurd rfl h
    | cons d ds => rfl
  | cons e ds' ih =>
    cases ds with
    | nil => rfl
    | cons d ds =>
      rw [map_cons, validateCursorDescriptors]
      simp only [Payload.toUsize, ofOption, ok_bind]
      by_cases hdiffers : e.fieldIndex ≠ d.fieldIndex ∨ e.desc.toNat ≠ d.desc.toNat
      · rw [if_pos hdiffers]
        rfl
      · rw [if_neg hdiffers]
        rw [not_or, not_not, not_not] at hdiffers
        have heq : e = d := by
          obtain ⟨field, desc⟩ := e
          obtain ⟨field', desc'⟩ := d
          obtain ⟨hfield, hdesc⟩ := hdiffers
          obtain rfl : field = field' := hfield
          cases desc <;> cases desc' <;> cases hdesc <;> rfl
        exact ih fun hds => h (by rw [heq, hds])

lemma decodeCursorToken_other {decodeToken : Bytes → Option Payload} {token : Bytes} {table : ℕ}
    {ds' : List SortDescriptor} {values : List Value}
    (htoken : decodeToken token = some (cursorPayload table ds' values))
    (h : (table, ds') ≠ (tableIndex, ds)) :
    decodeCursorToken decodeToken t tableIndex ds token = .error .invalidCursorSortValue := by
  have hidentity : validateCursorIdentity tableIndex ds (cursorPayload table ds' values) =
      .error .invalidCursorSortValue := by
    unfold validateCursorIdentity cursorPayload
    simp only [Payload.toUsize, ofOption, ok_bind]
    by_cases htable : table ≠ tableIndex
    · rw [if_pos htable]
      rfl
    · rw [if_neg htable]
      have hds : ds' ≠ ds := fun hds => h (by rw [not_not.mp htable, hds])
      rw [validateCursorDescriptors_write_ne hds]
      rfl
  rw [decodeCursorToken, htoken]
  simp only [ofOption, ok_bind, hidentity]
  rfl

end Tokens

section RoundTrip

variable {encode : Payload → Bytes} {decodeConsumed : Bytes → Option (Payload × ℕ)} {t : Table}
  {tableIndex : ℕ} {ds : List SortDescriptor}

lemma encodable_row (htable : tableIndex < 2 ^ 64) (hfields : t.fields.length ≤ 2 ^ 64)
    (hds : CanonicalOrder t ds) {r : Record} (hr : ∀ d ∈ ds, (r.value d.fieldIndex).OnWire) :
    Encodable tableIndex ds (ds.map fun d => r.value d.fieldIndex) := by
  have hlength : ds.length ≤ maxArrayLength := hds.length.trans (by decide)
  refine ⟨htable, fun d hd => ?_, hlength, fun v hv => ?_, by rw [length_map]; exact hlength⟩
  · obtain ⟨f, hf, -⟩ := hds.sortable d hd
    exact (List.getElem?_eq_some_iff.mp hf).1.trans_le hfields
  · obtain ⟨d, hd, rfl⟩ := mem_map.mp hv
    exact hr d hd

lemma Value.OnWire.fits {v : Value} (h : v.OnWire) : v.Fits := by
  cases v with
  | nil => trivial
  | array items => trivial
  | scalar s => cases s <;> first | exact h | trivial

/-- The token of a row decodes to the row's sort values. Other bytes are refused, unless they name the
same table, repeat the order and carry for each key a value that its field takes; the cursor then has
these values. -/
theorem decodeCursorToken_encode (hlib : ReadsMessagePack encode decodeConsumed)
    (htable : tableIndex < 2 ^ 64) (hfields : t.fields.length ≤ 2 ^ 64) (hds : CanonicalOrder t ds) :
    (∀ r, t.Conforms r → (∀ d ∈ ds, (r.value d.fieldIndex).OnWire) →
      decodeCursorToken (readToken decodeConsumed) t tableIndex ds
        (encodeCursorToken encode tableIndex ds (ds.map fun d => r.value d.fieldIndex)) =
        .ok ⟨ds.map fun d => r.value d.fieldIndex⟩) ∧
    (∀ token, match decodeCursorToken (readToken decodeConsumed) t tableIndex ds token with
      | .ok cursor => ∃ table order items,
        readToken decodeConsumed token = some (.arr [table, .arr order, .arr items]) ∧
          CursorOf t tableIndex ds table order items cursor
      | .error e => e ≠ .aborted) ∧
    ∀ table ds' values, Encodable table ds' values → (table, ds') ≠ (tableIndex, ds) →
      decodeCursorToken (readToken decodeConsumed) t tableIndex ds
        (encodeCursorToken encode table ds' values) = .error .invalidCursorSortValue := by
  refine ⟨fun r hr honwire => ?_, fun token => ?_, fun table ds' values hvalues hother => ?_⟩
  · have htoken := readToken_encode hlib (encodable_row htable hfields hds honwire)
    exact decodeCursorToken_write htoken hds.sortable hr fun d hd => (honwire d hd).fits
  · cases hdecode : decodeCursorToken (readToken decodeConsumed) t tableIndex ds token with
    | ok cursor => exact decodeCursorToken_eq_ok hds.sortable hdecode
    | error e =>
      rintro rfl
      exact decodeCursorToken_ne_aborted hds.sortable token hdecode
  · exact decodeCursorToken_other (readToken_encode hlib hvalues) hother

end RoundTrip
namespace CursorExample

def scoreTable : Table where
  name := "scores"
  userFields := [.plain "score" .real]
  fields_wellFormed := List.forall_mem_singleton.mpr (Field.plain_wellFormed (by decide))
  names_nodup := by decide

def byScore : List SortDescriptor := [⟨3, true⟩, ⟨4, false⟩]

lemma canonical_byScore : CanonicalOrder scoreTable byScore := by
  refine ⟨some [⟨3, true⟩], ?_, rfl⟩
  rintro cs ⟨⟩
  refine ⟨by decide, fun d hd => ?_⟩
  rw [mem_singleton.mp hd]
  exact ⟨_, rfl, by decide⟩

def unscored : Record :=
  ⟨[.scalar (.docId 9), .scalar (.integer 1), .scalar (.docId 2), .nil, .scalar (.integer 50),
    .scalar (.integer 50)]⟩

theorem decodeCursorToken_encode_unscored :
    decodeCursorToken (readToken MsgPack.decodeConsumed) scoreTable 0 byScore
      (encodeCursorToken MsgPack.encode 0 byScore [.nil, .scalar (.integer 50)]) =
      .ok ⟨[.nil, .scalar (.integer 50)]⟩ := by
  have h := decodeCursorToken_encode MsgPack.readsMessagePack (show 0 < 2 ^ 64 by decide)
    (by decide) canonical_byScore
  refine h.1 unscored ?_ ?_
  · refine .cons ?_ (.cons ?_ (.cons ?_ (.cons ?_ (.cons ?_ (.cons ?_ .nil))))) <;> rfl
  · intro d hd
    rcases List.mem_pair.mp hd with rfl | rfl
    · trivial
    · exact ⟨by decide, by decide⟩

def integerToken : Bytes :=
  encodeCursorToken MsgPack.encode 0 byScore [.scalar (.integer 5), .scalar (.integer 50)]

/-- The order has no cursor of that token, as its score would be a real, and yet the token is
accepted. -/
theorem integerToken_accepted :
    (∀ table ds values, Encodable table ds values →
      List.Forall₂ (fun (d : SortDescriptor) v =>
        ∃ f, scoreTable.fields[d.fieldIndex]? = some f ∧ f.Accepts v) byScore values →
      encodeCursorToken MsgPack.encode table ds values ≠ integerToken) ∧
    decodeCursorToken (readToken MsgPack.decodeConsumed) scoreTable 0 byScore integerToken =
      .ok ⟨[.scalar (.real ⟨false, Payload.magnitudeOfNat 5, by decide⟩), .scalar (.integer 50)]⟩ := by
  have hread : readToken MsgPack.decodeConsumed integerToken =
      some (cursorPayload 0 byScore [.scalar (.integer 5), .scalar (.integer 50)]) := by
    refine readToken_encode MsgPack.readsMessagePack ⟨by decide, by decide, by decide, ?_, by decide⟩
    intro v hv
    rcases List.mem_pair.mp hv with rfl | rfl
    · exact ⟨by decide, by decide⟩
    · exact ⟨by decide, by decide⟩
  constructor
  · intro table ds values hencodable hvalues htoken
    have hpayload := readToken_encode MsgPack.readsMessagePack hencodable
    rw [htoken, hread, Option.some.injEq] at hpayload
    have hmap : [Payload.uint 5, .uint 50] = values.map writeMsgPack := by
      injection hpayload with hparts
      injection hparts with _ hparts
      injection hparts with _ hparts
      injection hparts with hlast _
      injection hlast
    obtain _ | ⟨⟨f, hf, haccepts⟩, hrest⟩ := hvalues
    rename_i v vs
    cases hf
    obtain ⟨hfirst, -⟩ := List.cons_eq_cons.mp hmap
    cases v with
    | nil => cases hfirst
    | array items => cases hfirst
    | scalar s =>
      cases s with
      | real x => cases hfirst
      | _ => exact absurd haccepts (by simp [Field.Accepts, FieldType.accepts])
  · rw [decodeCursorToken, hread]
    rfl

end CursorExample
end ZyncBase
