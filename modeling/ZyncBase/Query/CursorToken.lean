import ZyncBase.Query.Parser
import ZyncBase.Sql.Value

/-! Cursor tokens: the payload that encodes a cursor, which decodes to the cursor again, and the
orders that a parsed filter can have. -/
namespace ZyncBase

open BigEndian Outcome List

def writeScalarMsgPack : ScalarValue → Payload
  | .docId id => .bin (DocId.toBytes id)
  | .integer v => if 0 ≤ v then .uint v.toNat else .int v
  | .real v => .float v.negative v.magnitude
  | .text v => .str v
  | .boolean v => .bool v
  | .binary v => .bin v

def writeMsgPack : Value → Payload
  | .nil => .nil
  | .scalar s => writeScalarMsgPack s
  | .array items => .arr (items.map writeScalarMsgPack)

def cursorPayload (tableIndex : ℕ) (descriptors : List SortDescriptor) (values : List Value) :
    Payload :=
  .arr [.uint tableIndex, .arr (descriptors.map fun d => .arr [.uint d.fieldIndex, .uint d.desc.toNat]),
    .arr (values.map writeMsgPack)]

/-- A value whose integers have 64 bits. -/
def Value.Fits : Value → Prop
  | .scalar (.integer v) => -2 ^ 63 ≤ v ∧ v < 2 ^ 63
  | _ => True

/-- The value of a field, missing where the record has none. -/
def Record.value (r : Record) (i : ℕ) : Value := r.values[i]?.getD .nil

lemma Record.value_fits {r : Record} (h : ∀ v ∈ r.values, v.Fits) (i : ℕ) : (r.value i).Fits := by
  rw [Record.value]
  cases hv : r.values[i]? with
  | none => trivial
  | some v => exact h v (mem_of_getElem? hv)

def SortDescriptor.Sortable (t : Table) (d : SortDescriptor) : Prop :=
  ∃ f, t.fields[d.fieldIndex]? = some f ∧ f.storageType ≠ .array

section Decoding

lemma docIdFromBytes_toBytes (id : DocId) : docIdFromBytes (DocId.toBytes id) = .ok id := by
  have hid : id.val < 256 ^ 16 := Nat.lt_of_lt_of_eq id.isLt (by decide)
  rw [docIdFromBytes, DocId.toBytes, if_pos (bytes_length _ _),
    foldl_bytes _ _ _ hid, Nat.zero_mul, Nat.zero_add]
  exact congrArg Except.ok (Fin.ext (Nat.mod_eq_of_lt id.isLt))

lemma scalarFromPayload_write {t : FieldType} {s : ScalarValue} (h : t.accepts s)
    (hfits : (Value.scalar s).Fits) : scalarFromPayload t (writeScalarMsgPack s) = .ok s := by
  cases t <;> cases s <;> simp only [FieldType.accepts, Bool.false_eq_true] at h
  case text.text => rfl
  case boolean.boolean => rfl
  case bytes.binary => rfl
  case docId.docId id => simp [scalarFromPayload, writeScalarMsgPack, docIdFromBytes_toBytes, Except.map]
  case real.real r =>
    simp [scalarFromPayload, writeScalarMsgPack, Payload.toFloat, Payload.finiteReal, r.finite, Except.map]
  case integer.integer v =>
    have hv : v < 2 ^ 63 := hfits.2
    rw [writeScalarMsgPack]
    by_cases hpos : 0 ≤ v
    · have hlt : v.toNat < 2 ^ 63 := by omega
      rw [if_pos hpos]
      change Except.map _ (if v.toNat < 2 ^ 63 then _ else _) = _
      rw [if_pos hlt, Int.toNat_of_nonneg hpos]
      rfl
    · rw [if_neg hpos]
      rfl

lemma writeScalarMsgPack_plain (s : ScalarValue) :
    (writeScalarMsgPack s).isNil = false ∧ isArr (writeScalarMsgPack s) = false := by
  cases s with
  | integer v =>
    rw [writeScalarMsgPack]
    split_ifs
    · exact ⟨rfl, rfl⟩
    · exact ⟨rfl, rfl⟩
  | _ => exact ⟨rfl, rfl⟩

lemma SortDescriptor.Sortable.value {t : Table} {d : SortDescriptor} (h : d.Sortable t)
    {r : Record} (hr : t.Conforms r) : ∃ f, t.fields[d.fieldIndex]? = some f ∧
      f.storageType ≠ .array ∧ f.Accepts (r.value d.fieldIndex) ∧
      r.values[d.fieldIndex]? = some (r.value d.fieldIndex) := by
  obtain ⟨f, hf, ht⟩ := h
  obtain ⟨hi, -⟩ := List.getElem?_eq_some_iff.mp hf
  obtain ⟨v, hv⟩ : ∃ v, r.values[d.fieldIndex]? = some v :=
    ⟨_, getElem?_eq_getElem (by rw [hr.length]; exact hi)⟩
  have hvalue : r.value d.fieldIndex = v := by rw [Record.value, hv, Option.getD_some]
  rw [hvalue]
  exact ⟨f, hf, ht, hr.accepts hf hv, hv⟩

lemma fromPayload_write {f : Field} {v : Value} (ht : f.storageType ≠ .array) (h : f.Accepts v)
    (hfits : v.Fits) : ((writeMsgPack v).isNil → f.required = false) ∧ isArr (writeMsgPack v) = false ∧
      fromPayload f.storageType f.itemsType (writeMsgPack v) = .ok v := by
  cases v with
  | nil => exact ⟨fun _ => h, rfl, rfl⟩
  | array items => exact absurd h.1 ht
  | scalar s =>
    obtain ⟨hnil, harr⟩ := writeScalarMsgPack_plain s
    have hscalar := scalarFromPayload_write h hfits
    refine ⟨fun hn => ?_, harr, ?_⟩
    · rw [writeMsgPack, hnil] at hn
      cases hn
    · simp [fromPayload, writeMsgPack, hnil, ht, hscalar, pure, Except.pure]

lemma decodeCursorValues_write {t : Table} {ds : List SortDescriptor} {r : Record}
    (hds : ∀ d ∈ ds, d.Sortable t) (hr : t.Conforms r)
    (hfits : ∀ d ∈ ds, (r.value d.fieldIndex).Fits) :
    decodeCursorValues t ds ((ds.map fun d => r.value d.fieldIndex).map writeMsgPack) =
      .ok (ds.map fun d => r.value d.fieldIndex) := by
  induction ds with
  | nil => rfl
  | cons d ds ih =>
    obtain ⟨f, hf, ht, haccepts, -⟩ := (hds d mem_cons_self).value hr
    obtain ⟨hnil, harr, hdecode⟩ := fromPayload_write ht haccepts (hfits d mem_cons_self)
    have hmissing : ¬ ((writeMsgPack (r.value d.fieldIndex)).isNil ∧ f.required) := fun hboth => by
      have hrequired := hnil hboth.1
      rw [hboth.2] at hrequired
      cases hrequired
    have hrest := ih (fun e he => hds e (mem_cons_of_mem _ he))
      fun e he => hfits e (mem_cons_of_mem _ he)
    rw [map_cons, map_cons, decodeCursorValues, hf, hrest]
    simp [ofOption, hmissing, harr, hdecode, liftCodec, bind, Except.bind, pure, Except.pure]

lemma validateCursorDescriptors_write (ds : List SortDescriptor) : validateCursorDescriptors
    (ds.map fun d => .arr [.uint d.fieldIndex, .uint d.desc.toNat]) ds = .ok () := by
  induction ds with
  | nil => rfl
  | cons d ds ih =>
    rw [map_cons, validateCursorDescriptors]
    simp [Payload.toUsize, ofOption, ih, bind, Except.bind]

lemma validateCursorIdentity_write (tableIndex : ℕ) {ds : List SortDescriptor}
    {values : List Value} (h : values.length = ds.length) :
    validateCursorIdentity tableIndex ds (cursorPayload tableIndex ds values) =
      .ok (values.map writeMsgPack) := by
  unfold validateCursorIdentity cursorPayload
  simp [Payload.toUsize, ofOption, validateCursorDescriptors_write, bind, Except.bind, h, pure, Except.pure]

lemma decodeCursorToken_write {decodeToken : Bytes → Option Payload} {token : Bytes} {t : Table}
    {tableIndex : ℕ} {ds : List SortDescriptor} {r : Record}
    (htoken : decodeToken token =
      some (cursorPayload tableIndex ds (ds.map fun d => r.value d.fieldIndex)))
    (hds : ∀ d ∈ ds, d.Sortable t) (hr : t.Conforms r)
    (hfits : ∀ d ∈ ds, (r.value d.fieldIndex).Fits) :
    decodeCursorToken decodeToken t tableIndex ds token = .ok ⟨ds.map fun d => r.value d.fieldIndex⟩ := by
  have hlength : (ds.map fun d => r.value d.fieldIndex).length = ds.length := length_map _
  rw [decodeCursorToken, htoken]
  simp only [ofOption, ok_bind, validateCursorIdentity_write tableIndex hlength]
  rw [decodeCursorValues_write hds hr hfits]
  rfl

end Decoding

variable {p : Payload}

section Orders

variable {t : Table}

lemma fields_createdAt (t : Table) : t.fields[t.createdAtIndex]? = trailingSystemFields[0]? := by
  unfold Table.fields Table.createdAtIndex
  have hlength : (leadingSystemFields ++ t.userFields).length = 3 + t.userFields.length := by
    rw [length_append]
    rfl
  rw [getElem?_append_right (by rw [hlength, firstUserFieldIndex]), hlength,
    firstUserFieldIndex, Nat.sub_self]

lemma sortable_createdAt (t : Table) (desc : Bool) : (⟨t.createdAtIndex, desc⟩ : SortDescriptor).Sortable t :=
  ⟨_, fields_createdAt t, by decide⟩

lemma parseSortDescriptor_sortable {d : SortDescriptor}
    (h : parseSortDescriptor t p = .ok d) : d.Sortable t := by
  unfold parseSortDescriptor at h
  split at h
  · obtain ⟨i, -, h⟩ := bind_eq_ok.mp h
    obtain ⟨f, hf, h⟩ := bind_eq_ok.mp h
    split_ifs at h with htype
    · obtain ⟨_, he, -⟩ := bind_eq_ok.mp h
      cases he
    · obtain ⟨desc, -, h⟩ := bind_eq_ok.mp h
      cases h
      exact ⟨f, ofOption_eq_ok.mp hf, fun harr => htype (.inl harr)⟩
  · cases h

lemma parseSortItems_sortable {seen ds : List SortDescriptor} {ps : List Payload}
    (hseen : ∀ d ∈ seen, d.Sortable t) (h : parseSortItems t seen ps = .ok ds) : ∀ d ∈ ds, d.Sortable t := by
  induction ps generalizing seen with
  | nil =>
    cases h
    exact hseen
  | cons p ps ih =>
    obtain ⟨d, hd, h⟩ := bind_eq_ok.mp h
    split_ifs at h
    · obtain ⟨_, he, -⟩ := bind_eq_ok.mp h
      cases he
    · refine ih (fun e he => ?_) h
      cases mem_append.mp he with
      | inl he => exact hseen e he
      | inr he => exact mem_singleton.mp he ▸ parseSortDescriptor_sortable hd

lemma parseSortDescriptors_sortable {ds : List SortDescriptor}
    (h : parseSortDescriptors t p = .ok ds) : ∀ d ∈ ds, d.Sortable t := by
  cases p with
  | arr items =>
    rw [parseSortDescriptors] at h
    split_ifs at h
    exact parseSortItems_sortable (fun d hd => absurd hd not_mem_nil) h
  | _ => cases h

/-- An order of sortable fields that tells rows apart, and a limit of 32 bits that is not zero. -/
structure QueryFilter.Canonical (t : Table) (q : QueryFilter) : Prop where
  sortable : ∀ d ∈ q.orderBy, d.Sortable t
  unique : ∃ d ∈ q.orderBy, isUniqueSort t.createdAtIndex d
  limit : ∀ l, q.limit = some l → 0 < l ∧ l < 2 ^ 32

/-- What the keys of the filter map have set so far. -/
structure FilterParseCtx.Ordered (t : Table) (ctx : FilterParseCtx) : Prop where
  sortable : ∀ ds, ctx.orderBy = some ds → ∀ d ∈ ds, d.Sortable t
  limit : ∀ l, ctx.limit = some l → 0 < l ∧ l < 2 ^ 32

lemma parseLimit_range {old limit : Option ℕ}
    (hold : ∀ l, old = some l → 0 < l ∧ l < 2 ^ 32) (h : parseLimit old p = .ok limit) :
    ∀ l, limit = some l → 0 < l ∧ l < 2 ^ 32 := by
  have hpos : ∀ parsed : Option ℕ, (∀ l, parsed = some l → l < 2 ^ 32) → parsed ≠ some 0 →
      ∀ l, parsed = some l → 0 < l ∧ l < 2 ^ 32 := fun parsed hlt hzero l hl =>
    ⟨Nat.pos_of_ne_zero fun h0 => hzero (by rw [hl, h0]), hlt l hl⟩
  cases p with
  | uint v =>
    simp only [parseLimit, ok_bind] at h
    split_ifs at h with hv hzero
    · cases h
    · cases h
      exact hpos _ (fun l hl => Option.some.inj hl ▸ hv) hzero
    · cases h
  | int v =>
    simp only [parseLimit, ok_bind] at h
    split_ifs at h with hneg hzero hv hzero
    · cases h
    · cases h
      exact hold
    · cases h
    · cases h
      refine hpos _ (fun l hl => ?_) hzero
      have hl := Option.some.inj hl
      omega
    · cases h
  | _ =>
    simp only [parseLimit, ok_bind] at h
    split_ifs at h with hzero
    · cases h
    · cases h
      exact hold

lemma handleFilterKey_ordered {ctx ctx' : FilterParseCtx} {key : Bytes}
    (hctx : ctx.Ordered t) (h : ctx.handleFilterKey t key p = .ok ctx') : ctx'.Ordered t := by
  simp only [FilterParseCtx.handleFilterKey] at h
  split_ifs at h
  · split at h
    · obtain ⟨cs, -, h⟩ := bind_eq_ok.mp h
      cases h
      exact ⟨hctx.sortable, hctx.limit⟩
    · cases h
      exact hctx
  · split at h
    · obtain ⟨cs, -, h⟩ := bind_eq_ok.mp h
      cases h
      exact ⟨hctx.sortable, hctx.limit⟩
    · cases h
      exact hctx
  · obtain ⟨ds, hds, h⟩ := bind_eq_ok.mp h
    cases h
    refine ⟨fun ds' hds' => ?_, hctx.limit⟩
    cases hds'
    exact parseSortDescriptors_sortable hds
  · obtain ⟨limit, hlimit, h⟩ := bind_eq_ok.mp h
    cases h
    exact ⟨hctx.sortable, parseLimit_range hctx.limit hlimit⟩
  · split at h
    · cases h
      exact ⟨hctx.sortable, hctx.limit⟩
    · cases h
  · cases h
    exact hctx

lemma handleEntries_ordered {ctx ctx' : FilterParseCtx} {entries : List (Payload × Payload)}
    (hctx : ctx.Ordered t) (h : ctx.handleEntries t entries = .ok ctx') : ctx'.Ordered t := by
  induction entries generalizing ctx with
  | nil =>
    cases h
    exact hctx
  | cons e entries ih =>
    obtain ⟨k, p⟩ := e
    cases k with
    | str key =>
      obtain ⟨next, hn, h⟩ := bind_eq_ok.mp h
      exact ih (handleFilterKey_ordered hctx hn) h
    | _ => exact ih hctx h

lemma settleOrderBy_canonical {orderBy : Option (List SortDescriptor)} {ds : List SortDescriptor}
    (hsort : ∀ cs, orderBy = some cs → ∀ d ∈ cs, d.Sortable t)
    (h : settleOrderBy t orderBy = .ok ds) :
    (∀ d ∈ ds, d.Sortable t) ∧ ∃ d ∈ ds, isUniqueSort t.createdAtIndex d := by
  have hdefault : ∀ d ∈ defaultOrderBy t.createdAtIndex, d.Sortable t ∧ isUniqueSort t.createdAtIndex d := by
    intro d hd
    cases mem_singleton.mp hd
    exact ⟨sortable_createdAt t false, by simp [isUniqueSort]⟩
  have hmem : (⟨t.createdAtIndex, false⟩ : SortDescriptor) ∈ defaultOrderBy t.createdAtIndex :=
    mem_singleton_self _
  cases orderBy with
  | none =>
    cases h
    exact ⟨fun d hd => (hdefault d hd).1, _, hmem, (hdefault _ hmem).2⟩
  | some clauses =>
    rw [settleOrderBy, canonicalizeOrderBy] at h
    split_ifs at h with hearly hlast
    · obtain ⟨d, hd, hu⟩ : ∃ d, clauses.getLast? = some d ∧ isUniqueSort t.createdAtIndex d := by
        simpa [Option.any_eq_true] using hlast
      cases h
      exact ⟨hsort _ rfl, d, mem_of_getLast? hd, hu⟩
    · cases h
      refine ⟨fun d hd => ?_, _, mem_append_right _ hmem, (hdefault _ hmem).2⟩
      cases mem_append.mp hd with
      | inl hd => exact hsort _ rfl d hd
      | inr hd => exact (hdefault d hd).1

lemma parseQueryFilter_canonical {decodeToken : Bytes → Option Payload} {s : Schema}
    {tableIndex : ℕ} {q : QueryFilter} (h : parseQueryFilter decodeToken s tableIndex p = .ok q)
    (ht : s.tableByIndex tableIndex = some t) : q.Canonical t := by
  cases p with
  | map entries =>
    obtain ⟨u, hu, h⟩ := bind_eq_ok.mp h
    obtain rfl : t = u := Option.some.inj (ht.symm.trans (ofOption_eq_ok.mp hu))
    obtain ⟨ctx, hctx, h⟩ := bind_eq_ok.mp h
    obtain ⟨orderBy, horder, h⟩ := bind_eq_ok.mp h
    obtain ⟨after, -, h⟩ := bind_eq_ok.mp h
    cases h
    have hempty : ({} : FilterParseCtx).Ordered t :=
      ⟨fun ds hds => (nomatch hds), fun l hl => (nomatch hl)⟩
    have hordered := handleEntries_ordered hempty hctx
    obtain ⟨hsortable, hunique⟩ := settleOrderBy_canonical hordered.sortable horder
    exact ⟨hsortable, hunique, hordered.limit⟩
  | _ => cases h

end Orders
end ZyncBase
