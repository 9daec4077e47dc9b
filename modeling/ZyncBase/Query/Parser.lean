import ZyncBase.Query.Normalize
import ZyncBase.Typed.Codec

/-! Parsing of query filters from MessagePack payloads. Decoding of a cursor token's base64 and
MessagePack envelope is a parameter. -/
namespace ZyncBase

open Outcome FilterPredicate

/-- `aborted` stands for a checked cast or union access that stops the program. -/
inductive ParserError where
  | invalidMessageFormat | invalidConditionFormat | invalidOperatorCode | invalidSortFormat
  | invalidFieldName | unknownTable | unknownField | typeMismatch | missingOperand
  | unexpectedOperand | invalidOperandType | invalidInOperand | nullOperandUnsupported
  | unsupportedOperatorForFieldType | unsupportedSortFieldType | invalidCursorSortValue | aborted
  deriving DecidableEq, Repr

/-- The most client-supplied sort clauses. -/
def maxSortClauses : ℕ := 8

def ofOption {α : Type} (e : ParserError) : Option α → Except ParserError α
  | none => .error e
  | some a => .ok a

/-- Codec errors surface as one parser error; a stopped program stays stopped. -/
def liftCodec {α : Type} (e : ParserError) : Except CodecError α → Except ParserError α
  | .ok a => .ok a
  | .error .aborted => .error .aborted
  | .error _ => .error e

def parseScalarValue (fieldType : FieldType) (p : Payload) : Except ParserError Value :=
  if p.isNil then .error .nullOperandUnsupported
  else if fieldType = .array then .error .unsupportedOperatorForFieldType
  else liftCodec .typeMismatch (fromPayload fieldType none p)

def parseFieldValue (fieldType : FieldType) (itemsType : Option FieldType) (p : Payload) :
    Except ParserError Value :=
  if p.isNil then .error .nullOperandUnsupported
  else liftCodec .typeMismatch (fromPayload fieldType itemsType p)

def parseArrayElementValue (itemsType : Option FieldType) (p : Payload) : Except ParserError Value := do
  parseScalarValue (← ofOption .typeMismatch itemsType) p

/-- The scalars of a membership operand. -/
def parseInItems (fieldType : FieldType) : List Payload → Except ParserError (List ScalarValue)
  | [] => .ok []
  | p :: ps => do
    match ← parseScalarValue fieldType p with
    | .scalar s => return s :: (← parseInItems fieldType ps)
    | _ => throw .aborted

def parseInOperand (fieldType : FieldType) (p : Payload) : Except ParserError Value :=
  match p with
  | .nil => .error .nullOperandUnsupported
  | .arr items =>
    if fieldType = .array then .error .unsupportedOperatorForFieldType
    else do return (Value.array (← parseInItems fieldType items)).sortedSet
  | _ => .error .invalidInOperand

/-- The operand of a non-nullary operator, by the shape it expects. -/
def parseShapedOperand (shape : ValueShape) (fieldType : FieldType)
    (itemsType : Option FieldType) (raw : Payload) : Except ParserError Value :=
  match shape with
  | .scalarText | .containsText =>
    match raw with
    | .str _ => parseScalarValue .text raw
    | _ => .error .invalidOperandType
  | .scalar | .arrayField => parseFieldValue fieldType itemsType raw
  | .arrayMembership => parseInOperand fieldType raw
  | .containsElement => parseArrayElementValue itemsType raw
  | .nullary => .error .aborted

def parseConditionValueForOperator (op : Operator) (fieldType : FieldType)
    (itemsType : Option FieldType) (p : Option Payload) : Except ParserError (Option Value) := do
  let shape ← ofOption .unsupportedOperatorForFieldType (operatorExpectsValueShape op fieldType)
  if shape = .nullary then
    if p.isSome then throw .unexpectedOperand
    return none
  let raw ← ofOption .missingOperand p
  return some (← parseShapedOperand shape fieldType itemsType raw)

def parseOperator (p : Payload) : Except ParserError Operator := do
  let code ← ofOption .invalidOperatorCode p.toUsize
  ofOption .invalidOperatorCode (Operator.ofNat? code)

def parseConditionParts (t : Table) (field op : Payload) (operand : Option Payload) :
    Except ParserError Condition := do
  let fieldIndex ← ofOption .invalidFieldName field.toUsize
  let f ← ofOption .unknownField t.fields[fieldIndex]?
  let op ← parseOperator op
  let value ← parseConditionValueForOperator op f.storageType f.itemsType operand
  return { fieldIndex, op, value, fieldType := f.storageType, itemsType := f.itemsType }

def parseCondition (t : Table) (p : Payload) : Except ParserError Condition :=
  match p with
  | .arr [field, op] => parseConditionParts t field op none
  | .arr [field, op, operand] => parseConditionParts t field op (some operand)
  | _ => .error .invalidConditionFormat

def parseConditionItems (t : Table) : List Payload → Except ParserError (List Condition)
  | [] => .ok []
  | p :: ps => do return (← parseCondition t p) :: (← parseConditionItems t ps)

def parseConditions (t : Table) (p : Payload) : Except ParserError (List Condition) :=
  match p with
  | .arr items => parseConditionItems t items
  | _ => .error .invalidConditionFormat

def parseSortDirection (p : Payload) : Except ParserError Bool :=
  match p.toUsize with
  | some 0 => .ok false
  | some 1 => .ok true
  | _ => .error .invalidSortFormat

def parseSortDescriptor (t : Table) (p : Payload) : Except ParserError SortDescriptor :=
  match p with
  | .arr [field, direction] => do
    let fieldIndex ← ofOption .invalidFieldName field.toUsize
    let f ← ofOption .unknownField t.fields[fieldIndex]?
    if f.storageType = .array ∨ f.storageType = .bytes then throw .unsupportedSortFieldType
    return { fieldIndex, desc := ← parseSortDirection direction }
  | _ => .error .invalidSortFormat

/-- `seen` holds the descriptors already parsed, which a new one may not repeat. -/
def parseSortItems (t : Table) (seen : List SortDescriptor) :
    List Payload → Except ParserError (List SortDescriptor)
  | [] => .ok seen
  | p :: ps => do
    let d ← parseSortDescriptor t p
    if seen.any fun e => e.fieldIndex = d.fieldIndex then throw .invalidSortFormat
    parseSortItems t (seen ++ [d]) ps

def parseSortDescriptors (t : Table) (p : Payload) : Except ParserError (List SortDescriptor) :=
  match p with
  | .arr items =>
    if items.length < 1 ∨ maxSortClauses < items.length then .error .invalidSortFormat
    else parseSortItems t [] items
  | _ => .error .invalidSortFormat

/-- The order without client clauses. -/
def defaultOrderBy (createdAtIndex : ℕ) : List SortDescriptor :=
  [{ fieldIndex := createdAtIndex, desc := false }]

def isUniqueSort (createdAtIndex : ℕ) (d : SortDescriptor) : Bool :=
  d.fieldIndex = idFieldIndex || d.fieldIndex = createdAtIndex

/-- Unique system fields may only close the order; otherwise `created_at` is appended. -/
def canonicalizeOrderBy (clauses : List SortDescriptor) (createdAtIndex : ℕ) :
    Except ParserError (List SortDescriptor) :=
  if clauses.dropLast.any (isUniqueSort createdAtIndex) then .error .invalidSortFormat
  else if clauses.getLast?.any (isUniqueSort createdAtIndex) then .ok clauses
  else .ok (clauses ++ defaultOrderBy createdAtIndex)

/-- The parse state: what the keys of the filter map have set so far. -/
structure FilterParseCtx where
  predicate : FilterPredicate := {}
  orderBy : Option (List SortDescriptor) := none
  limit : Option ℕ := none
  afterToken : Option Bytes := none

/-- A limit beyond 32 bits fails a checked cast. -/
def parseLimit (old : Option ℕ) (p : Payload) : Except ParserError (Option ℕ) := do
  let limit ← match p with
    | .uint v => if v < 2 ^ 32 then .ok (some v) else .error .aborted
    | .int v =>
      if v < 0 then .ok old else if v < 2 ^ 32 then .ok (some v.toNat) else .error .aborted
    | _ => .ok old
  if limit = some 0 then throw .invalidMessageFormat
  return limit

def asciiBytes (s : String) : Bytes := s.toList.map fun c => UInt8.ofNat c.toNat

/-- One entry of the filter map. Unknown keys and ill-typed lists of conditions are ignored. -/
def FilterParseCtx.handleFilterKey (t : Table) (ctx : FilterParseCtx) (key : Bytes)
    (p : Payload) : Except ParserError FilterParseCtx :=
  if key = asciiBytes "conditions" then
    match p with
    | .arr _ => do
      let conds ← parseConditions t p
      return { ctx with predicate := { ctx.predicate with conditions := some conds } }
    | _ => .ok ctx
  else if key = asciiBytes "orConditions" then
    match p with
    | .arr _ => do
      let conds ← parseConditions t p
      return { ctx with predicate := { ctx.predicate with orClauses := some [conds] } }
    | _ => .ok ctx
  else if key = asciiBytes "orderBy" then do
    return { ctx with orderBy := some (← parseSortDescriptors t p) }
  else if key = asciiBytes "limit" then do
    return { ctx with limit := ← parseLimit ctx.limit p }
  else if key = asciiBytes "after" then
    match p with
    | .str token => .ok { ctx with afterToken := some token }
    | _ => .error .invalidMessageFormat
  else .ok ctx

def FilterParseCtx.handleEntries (t : Table) (ctx : FilterParseCtx) :
    List (Payload × Payload) → Except ParserError FilterParseCtx
  | [] => .ok ctx
  | (.str key, p) :: entries => do
    FilterParseCtx.handleEntries t (← ctx.handleFilterKey t key p) entries
  | _ :: entries => FilterParseCtx.handleEntries t ctx entries

/-- A cursor descriptor must repeat the active order. -/
def validateCursorDescriptors : List Payload → List SortDescriptor → Except ParserError Unit
  | [], [] => .ok ()
  | .arr [field, direction] :: ps, d :: ds => do
    let fieldIndex ← ofOption .invalidCursorSortValue field.toUsize
    let code ← ofOption .invalidCursorSortValue direction.toUsize
    if fieldIndex ≠ d.fieldIndex ∨ code ≠ d.desc.toNat then throw .invalidCursorSortValue
    validateCursorDescriptors ps ds
  | _, _ => .error .invalidCursorSortValue

def validateCursorIdentity (tableIndex : ℕ) (descriptors : List SortDescriptor) (p : Payload) :
    Except ParserError (List Payload) :=
  match p with
  | .arr [table, order, values] => do
    let index ← ofOption .invalidMessageFormat table.toUsize
    if index ≠ tableIndex then throw .invalidCursorSortValue
    match order with
    | .arr ds => validateCursorDescriptors ds descriptors
    | _ => throw .invalidCursorSortValue
    match values with
    | .arr vs => if vs.length ≠ descriptors.length then throw .invalidCursorSortValue else return vs
    | _ => throw .invalidCursorSortValue
  | _ => .error .invalidMessageFormat

def isArr : Payload → Bool
  | .arr _ => true
  | _ => false

def decodeCursorValues (t : Table) : List SortDescriptor → List Payload → Except ParserError (List Value)
  | d :: ds, p :: ps => do
    let f ← ofOption .aborted t.fields[d.fieldIndex]?
    if p.isNil ∧ f.required then throw .invalidCursorSortValue
    if isArr p then throw .invalidCursorSortValue
    let v ← liftCodec .invalidCursorSortValue (fromPayload f.storageType f.itemsType p)
    return v :: (← decodeCursorValues t ds ps)
  | _, _ => .ok []

section Filter

-- Base64 and MessagePack decoding of a token, `none` on malformed or trailing bytes.
variable (decodeToken : Bytes → Option Payload)

def decodeCursorToken (t : Table) (tableIndex : ℕ) (descriptors : List SortDescriptor)
    (token : Bytes) : Except ParserError Cursor := do
  let p ← ofOption .invalidMessageFormat (decodeToken token)
  let values ← validateCursorIdentity tableIndex descriptors p
  return { values := ← decodeCursorValues t descriptors values }

/-- The order of the parsed filter, settled after all keys have been read. -/
def settleOrderBy (t : Table) (orderBy : Option (List SortDescriptor)) :
    Except ParserError (List SortDescriptor) :=
  match orderBy with
  | none => .ok (defaultOrderBy t.createdAtIndex)
  | some clauses => canonicalizeOrderBy clauses t.createdAtIndex

def parseAfter (t : Table) (tableIndex : ℕ) (orderBy : List SortDescriptor)
    (token : Option Bytes) : Except ParserError (Option Cursor) :=
  match token with
  | none => .ok none
  | some token => (decodeCursorToken decodeToken t tableIndex orderBy token).map some

def parseQueryFilter (s : Schema) (tableIndex : ℕ) (p : Payload) : Except ParserError QueryFilter :=
  match p with
  | .map entries => do
    let t ← ofOption .unknownTable (s.tableByIndex tableIndex)
    let ctx ← FilterParseCtx.handleEntries t {} entries
    let orderBy ← settleOrderBy t ctx.orderBy
    let after ← parseAfter decodeToken t tableIndex orderBy ctx.afterToken
    return { predicate := ctx.predicate.normalize, orderBy, limit := ctx.limit, after }
  | _ => .error .invalidMessageFormat

end Filter

/-- The operands that fit a shape on a field. -/
def ValueShape.Admits (f : Field) : ValueShape → Value → Prop
  | .nullary, _ => False
  | .scalar, v => DecodesAs f.storageType f.itemsType v ∧ f.storageType ≠ .array
  | .arrayField, v => DecodesAs .array f.itemsType v
  | .scalarText, v | .containsText, v => ∃ b, v = .scalar (.text b)
  | .arrayMembership, v => ∃ ss, v = .array ss ∧ (∀ s ∈ ss, f.storageType.accepts s) ∧
      SortedSearch.Strict ScalarValue.order ss
  | .containsElement, v => ∃ i s, f.itemsType = some i ∧ v = .scalar s ∧ i.accepts s

/-- A condition on a field of the table whose operand fits its operator. -/
structure Condition.WellTyped (t : Table) (c : Condition) : Prop where
  field : ∃ f, t.fields[c.fieldIndex]? = some f ∧ c.fieldType = f.storageType ∧ c.itemsType = f.itemsType ∧
    ∃ shape, operatorExpectsValueShape c.op f.storageType = some shape ∧ (shape = .nullary → c.value = none) ∧
      (shape ≠ .nullary → ∃ v, c.value = some v ∧ shape.Admits f v)

def FilterPredicate.WellTyped (t : Table) (p : FilterPredicate) : Prop :=
  ∀ c ∈ p.allConditions, c.WellTyped t

lemma ofOption_eq_ok {α : Type} {e : ParserError} {o : Option α} {a : α} :
    ofOption e o = .ok a ↔ o = some a := by
  cases o <;> simp [ofOption]

lemma liftCodec_eq_ok {α : Type} {e : ParserError} {x : Except CodecError α} {a : α} :
    liftCodec e x = .ok a ↔ x = .ok a := by
  cases x with
  | ok b => simp [liftCodec]
  | error c => cases c <;> simp [liftCodec]

variable {p : Payload}

lemma parseScalarValue_decodes {t : FieldType} {v : Value}
    (h : parseScalarValue t p = .ok v) : ∃ s, v = .scalar s ∧ t.accepts s := by
  simp only [parseScalarValue] at h
  split_ifs at h with hn ht
  have hd := fromPayload_decodes (by simpa using hn) (liftCodec_eq_ok.mp h)
  cases v with
  | nil => exact absurd hd (by simp [DecodesAs])
  | scalar s => exact ⟨s, rfl, hd.2⟩
  | array ss => exact absurd hd.1 ht

lemma parseFieldValue_decodes {t : FieldType} {items : Option FieldType}
    {v : Value} (h : parseFieldValue t items p = .ok v) : DecodesAs t items v := by
  simp only [parseFieldValue] at h
  split_ifs at h with hn
  exact fromPayload_decodes (by simpa using hn) (liftCodec_eq_ok.mp h)

lemma parseInItems_accepts {t : FieldType} {ps : List Payload} {ss : List ScalarValue}
    (h : parseInItems t ps = .ok ss) : ∀ s ∈ ss, t.accepts s := by
  induction ps generalizing ss with
  | nil => cases h; simp
  | cons p ps ih =>
    rw [parseInItems] at h
    obtain ⟨v, hv, h⟩ := bind_eq_ok.mp h
    obtain ⟨s, rfl, hs⟩ := parseScalarValue_decodes hv
    obtain ⟨rest, hr, h⟩ := bind_eq_ok.mp h
    cases h
    intro x hx
    rcases List.mem_cons.mp hx with rfl | hx
    · exact hs
    · exact ih hr x hx

variable {op : Operator}

lemma operatorExpectsValueShape_scalar {t : FieldType}
    (h : operatorExpectsValueShape op t = some .scalar) : t ≠ .array := by
  rintro rfl
  cases op <;> simp [operatorExpectsValueShape] at h

lemma operatorExpectsValueShape_arrayField {t : FieldType}
    (h : operatorExpectsValueShape op t = some .arrayField) : t = .array := by
  cases op <;> cases t <;> simp [operatorExpectsValueShape] at h <;> rfl

lemma operatorExpectsValueShape_nullary {t : FieldType} :
    operatorExpectsValueShape op t = some .nullary ↔ op.isNullary := by
  cases op <;> cases t <;> simp [operatorExpectsValueShape, Operator.isNullary]

lemma parseInOperand_admits {t : FieldType} {v : Value}
    (h : parseInOperand t p = .ok v) : ∃ ss, v = .array ss ∧ (∀ s ∈ ss, t.accepts s) ∧
      SortedSearch.Strict ScalarValue.order ss := by
  cases p with
  | arr ps =>
    simp only [parseInOperand] at h
    split_ifs at h
    obtain ⟨ss, hs, h⟩ := bind_eq_ok.mp h
    cases h
    exact ⟨_, rfl, fun s hm => parseInItems_accepts hs s
      (SortedSearch.mem_of_mem_sortedSet _ s ss hm), SortedSearch.strict_sortedSet _ ss⟩
  | _ => simp [parseInOperand] at h

lemma parseShapedOperand_admits {shape : ValueShape} {f : Field}
    {raw : Payload} {v : Value} (hshape : operatorExpectsValueShape op f.storageType = some shape)
    (h : parseShapedOperand shape f.storageType f.itemsType raw = .ok v) : shape.Admits f v := by
  cases shape with
  | nullary => simp [parseShapedOperand] at h
  | scalar => exact ⟨parseFieldValue_decodes h, operatorExpectsValueShape_scalar hshape⟩
  | arrayField =>
    have hd := parseFieldValue_decodes h
    rwa [operatorExpectsValueShape_arrayField hshape] at hd
  | arrayMembership => exact parseInOperand_admits h
  | containsElement =>
    obtain ⟨i, hi, h⟩ := bind_eq_ok.mp h
    obtain ⟨s, rfl, hs⟩ := parseScalarValue_decodes h
    exact ⟨i, s, ofOption_eq_ok.mp hi, rfl, hs⟩
  | scalarText | containsText =>
    cases raw with
    | str b =>
      obtain ⟨s, rfl, hs⟩ := parseScalarValue_decodes h
      cases s <;> simp only [FieldType.accepts, Bool.false_eq_true] at hs
      exact ⟨_, rfl⟩
    | _ => simp [parseShapedOperand] at h

variable {t : Table}

lemma parseConditionParts_wellTyped {field op : Payload} {operand : Option Payload}
    {c : Condition} (h : parseConditionParts t field op operand = .ok c) : c.WellTyped t := by
  obtain ⟨i, -, h⟩ := bind_eq_ok.mp h
  obtain ⟨f, hf, h⟩ := bind_eq_ok.mp h
  obtain ⟨o, -, h⟩ := bind_eq_ok.mp h
  obtain ⟨value, hv, h⟩ := bind_eq_ok.mp h
  cases h
  obtain ⟨shape, hshape, hv⟩ := bind_eq_ok.mp hv
  have hshape := ofOption_eq_ok.mp hshape
  refine ⟨f, ofOption_eq_ok.mp hf, rfl, rfl, shape, hshape, ?_, ?_⟩
  · rintro rfl
    simp only [if_true] at hv
    split_ifs at hv
    · obtain ⟨_, he, -⟩ := bind_eq_ok.mp hv
      cases he
    · exact (pure_eq_ok.mp hv).symm
  · intro hne
    simp only [hne, if_false] at hv
    obtain ⟨raw, -, hv⟩ := bind_eq_ok.mp hv
    obtain ⟨v, hshaped, hv⟩ := bind_eq_ok.mp hv
    exact ⟨v, (pure_eq_ok.mp hv).symm, parseShapedOperand_admits hshape hshaped⟩

lemma parseCondition_wellTyped {c : Condition} (h : parseCondition t p = .ok c) : c.WellTyped t := by
  unfold parseCondition at h
  split at h
  · exact parseConditionParts_wellTyped h
  · exact parseConditionParts_wellTyped h
  · cases h

lemma parseConditions_wellTyped {cs : List Condition}
    (h : parseConditions t p = .ok cs) : ∀ c ∈ cs, c.WellTyped t := by
  cases p with
  | arr ps =>
    simp only [parseConditions] at h
    induction ps generalizing cs with
    | nil => cases h; simp
    | cons p ps ih =>
      rw [parseConditionItems] at h
      obtain ⟨c, hc, h⟩ := bind_eq_ok.mp h
      obtain ⟨rest, hr, h⟩ := bind_eq_ok.mp h
      cases h
      intro d hd
      rcases List.mem_cons.mp hd with rfl | hd
      · exact parseCondition_wellTyped hc
      · exact ih hr d hd
  | _ => simp [parseConditions] at h

lemma handleFilterKey_wellTyped {ctx ctx' : FilterParseCtx} {key : Bytes}
    (hs : ctx.predicate.WellTyped t) (h : ctx.handleFilterKey t key p = .ok ctx') :
    ctx'.predicate.WellTyped t := by
  simp only [FilterParseCtx.handleFilterKey] at h
  split_ifs at h
  · split at h
    · obtain ⟨cs, hc, h⟩ := bind_eq_ok.mp h
      cases h
      intro c hm
      rcases List.mem_append.mp hm with hm | hm
      · exact parseConditions_wellTyped hc c hm
      · exact hs c (List.mem_append_right _ hm)
    · cases h; exact hs
  · split at h
    · obtain ⟨cs, hc, h⟩ := bind_eq_ok.mp h
      cases h
      intro c hm
      rcases List.mem_append.mp hm with hm | hm
      · exact hs c (List.mem_append_left _ hm)
      · exact parseConditions_wellTyped hc c (by simpa using hm)
    · cases h; exact hs
  · obtain ⟨o, -, h⟩ := bind_eq_ok.mp h
    cases h; exact hs
  · obtain ⟨o, -, h⟩ := bind_eq_ok.mp h
    cases h; exact hs
  · split at h
    · cases h; exact hs
    · cases h
  · cases h; exact hs

lemma handleEntries_wellTyped {ctx ctx' : FilterParseCtx}
    {entries : List (Payload × Payload)} (hs : ctx.predicate.WellTyped t)
    (h : FilterParseCtx.handleEntries t ctx entries = .ok ctx') : ctx'.predicate.WellTyped t := by
  induction entries generalizing ctx with
  | nil => cases h; exact hs
  | cons e entries ih =>
    obtain ⟨k, p⟩ := e
    cases k with
    | str key =>
      obtain ⟨next, hn, h⟩ := bind_eq_ok.mp h
      exact ih (handleFilterKey_wellTyped hs hn) h
    | _ => exact ih hs h

lemma parseQueryFilter_predicate {decodeToken : Bytes → Option Payload} {s : Schema}
    {tableIndex : ℕ} {q : QueryFilter}
    (h : parseQueryFilter decodeToken s tableIndex p = .ok q) :
    ∃ t, s.tableByIndex tableIndex = some t ∧ q.predicate.WellTyped t ∧ q.predicate.Normal := by
  cases p with
  | map entries =>
    obtain ⟨t, ht, h⟩ := bind_eq_ok.mp h
    obtain ⟨ctx, hc, h⟩ := bind_eq_ok.mp h
    obtain ⟨orderBy, -, h⟩ := bind_eq_ok.mp h
    obtain ⟨after, -, h⟩ := bind_eq_ok.mp h
    cases h
    have hw : ctx.predicate.WellTyped t := handleEntries_wellTyped (by
      intro c hm
      simp [allConditions] at hm) hc
    exact ⟨t, ofOption_eq_ok.mp ht, fun c hm => hw c (mem_of_mem_normalize _ c hm),
      normalize_normal _⟩
  | _ => simp [parseQueryFilter] at h

lemma Condition.WellTyped.hasOperand {c : Condition} (h : c.WellTyped t) : c.HasOperand := by
  obtain ⟨f, -, -, -, shape, hshape, -, hv⟩ := h.field
  intro hn
  obtain ⟨v, hv, -⟩ := hv (by
    rintro rfl
    rw [operatorExpectsValueShape_nullary] at hshape
    simp [hn] at hshape)
  simp [hv]

lemma FilterPredicate.WellTyped.hasOperands {p : FilterPredicate}
    (h : p.WellTyped t) : p.HasOperands := fun c hc => (h c hc).hasOperand

end ZyncBase
