import ZyncBase.Query.Parser
import ZyncBase.Sdk.Path

/-! Where clauses: how the client flattens them into two lists of conditions, and what the server
makes of the lists. -/
namespace ZyncBase.Sdk

open List

/-- The code of the operator is missing when it is not a number. -/
structure WireCondition where
  field : String
  op : Option ℕ
  value : Option JsonValue

def opCodes : List (String × ℕ) :=
  [("eq", 0), ("ne", 1), ("gt", 2), ("lt", 3), ("gte", 4), ("lte", 5), ("contains", 6), ("startsWith", 7),
   ("endsWith", 8), ("in", 9), ("notIn", 10), ("isNull", 11), ("isNotNull", 12)]

/-- What the table of codes inherits is found in it as well. -/
def inheritedKeys : List String :=
  ["constructor", "__defineGetter__", "__defineSetter__", "hasOwnProperty", "__lookupGetter__",
   "__lookupSetter__", "isPrototypeOf", "propertyIsEnumerable", "toString", "valueOf", "__proto__",
   "toLocaleString"]

def isOpKey (key : String) : Bool := (opCodes.lookup key).isSome || inheritedKeys.contains key

def encodeOperator (field : String) (e : String × JsonValue) : WireCondition :=
  if e.1 = "isNull" ∨ e.1 = "isNotNull" then ⟨field, opCodes.lookup e.1, none⟩
  else ⟨field, opCodes.lookup e.1, some e.2⟩

def encodeOperatorObject (field : String) (value : List (String × JsonValue)) :
    List WireCondition := (value.filter fun e => isOpKey e.1).map (encodeOperator field)

mutual

def encodeConditionValue (field : String) : JsonValue → List WireCondition
  | .object value =>
    if value.any fun e => isOpKey e.1 then encodeOperatorObject field value
    else encodeConditionObject field value
  | v => [⟨field, opCodes.lookup "eq", some v⟩]

def encodeConditionObject (pre : String) : List (String × JsonValue) → List WireCondition
  | [] => []
  | (key, v) :: rest =>
    encodeConditionValue (fieldKey pre key) v ++ encodeConditionObject pre rest

end

/-- The entries of a list, a text or bytes have numbers for keys; null has none, and throws. -/
def objectEntries : JsonValue → Option (List (String × JsonValue))
  | .null => none
  | .boolean _ | .number _ => some []
  | .string units => some (units.zipIdx.map fun e => (toString e.2, .string [e.1]))
  | .bytes bytes => some (bytes.zipIdx.map fun e =>
      (toString e.2, .number (numberOfNat e.1.toNat)))
  | .array items => some (items.zipIdx.map fun e => (toString e.2, e.1))
  | .object entries => some entries

def extractOrConditions (alternatives : List JsonValue) : Option (List WireCondition) :=
  alternatives.foldlM (fun conditions clause => do
    return conditions ++ encodeConditionObject "" (← objectEntries clause)) []

/-- An empty list of conditions is not sent. -/
structure WhereWire where
  conditions : Option (List WireCondition) := none
  orConditions : Option (List WireCondition) := none

def nonempty? {α : Type} (xs : List α) : Option (List α) := if xs.length > 0 then some xs else none

/-- The fields of a clause besides `or`. -/
def restOf (clause : List (String × JsonValue)) : List (String × JsonValue) :=
  clause.filter fun e => e.1 ≠ "or"

/-- An `or` that is no list is left out. -/
def encodeWhereClause (clause : List (String × JsonValue)) : Option WhereWire :=
  let conditions := nonempty? (encodeConditionObject "" (restOf clause))
  match clause.lookup "or" with
  | some (.array alternatives) => do
    return { conditions, orConditions := nonempty? (← extractOrConditions alternatives) }
  | _ => some { conditions }

section Server

variable (t : Table)
-- The encoding of an operand for a field by the dictionary and MessagePack.
variable (pack : String → JsonValue → Option Payload)

/-- The condition that the server reads, `none` if the field, the operator or the operand is
rejected on the way. -/
def readCondition (c : WireCondition) : Option Condition := do
  let fieldIndex ← t.fieldIndex c.field
  let op ← c.op
  let operand ← c.value.mapM (pack c.field)
  (parseConditionParts t (.uint fieldIndex) (.uint op) operand).toOption

/-- The server takes the first list for a conjunction and the second for one clause of
alternatives. -/
def receive (sent : WhereWire) : Option FilterPredicate := do
  let conditions ← sent.conditions.mapM fun cs => cs.mapM (readCondition t pack)
  let orConditions ← sent.orConditions.mapM fun cs => cs.mapM (readCondition t pack)
  return { conditions, orClauses := orConditions.map fun conds => [conds] }

/-- The truth of a single condition on a record. -/
def WireCondition.holds (r : Record) (c : WireCondition) : Bool :=
  (readCondition t pack c).any fun d => d.holds r

end Server

section Meaning

/-- A condition as the query language has it. -/
structure FieldCondition where
  field : String
  op : String
  operand : JsonValue

def documentedOps : List String :=
  ["eq", "ne", "gt", "gte", "lt", "lte", "contains", "startsWith", "endsWith", "in", "notIn", "isNull",
   "isNotNull"]

def isDocumentedOp (key : String) : Bool := documentedOps.contains key

/-- What the operators with an operand say of a stored value. -/
def operatorHolds (op : String) (stored operand : Value) : Bool :=
  match op with
  | "eq" => stored.eql operand
  | "ne" => !stored.eql operand
  | "gt" => stored.order operand = .gt
  | "gte" => compareGte stored operand
  | "lt" => stored.order operand = .lt
  | "lte" => compareLte stored operand
  | "contains" => compareContains stored operand
  | "startsWith" => compareStartsWith stored operand
  | "endsWith" => compareEndsWith stored operand
  | "in" => compareIn stored operand
  | "notIn" => compareNotIn stored operand
  | _ => false

/-- The operand is a list for membership, an element for an array that contains it, a text for the text
operators, and else a value of the field. -/
def operandOf (op : String) (f : Field) (raw : Payload) : Option Value :=
  (if op = "in" ∨ op = "notIn" then parseInOperand f.storageType raw
  else if op = "contains" ∧ f.storageType = .array then parseArrayElementValue f.itemsType raw
  else if op = "contains" ∨ op = "startsWith" ∨ op = "endsWith" then parseScalarValue .text raw
  else parseFieldValue f.storageType f.itemsType raw).toOption

/-- The truth of a condition on a record. -/
def FieldCondition.holds (t : Table) (pack : String → JsonValue → Option Payload) (r : Record)
    (c : FieldCondition) : Bool :=
  ((t.fieldIndex c.field).bind fun i => (t.fields[i]?).map fun f => (f, r.values[i]?)).any fun e =>
    match e.2 with
    | none => c.op = "isNull"
    | some stored =>
      if c.op = "isNull" then stored = .nil
      else if c.op = "isNotNull" then stored ≠ .nil
      else ((pack c.field c.operand).bind (operandOf c.op e.1)).any (operatorHolds c.op stored)

mutual

/-- The conditions on a field: those of its operators, or of the fields below it, or that it is equal to
the value. -/
def valueConditions (field : String) : JsonValue → List FieldCondition
  | .object value =>
    if value.any fun e => isDocumentedOp e.1 then value.map fun e => ⟨field, e.1, e.2⟩
    else objectConditions field value
  | v => [⟨field, "eq", v⟩]

def objectConditions (pre : String) : List (String × JsonValue) → List FieldCondition
  | [] => []
  | (key, v) :: rest => valueConditions (fieldKey pre key) v ++ objectConditions pre rest

end

/-- An object with an operator in it has nothing but operators, and an operator without operand is
`true`. -/
def documentedOperators (value : List (String × JsonValue)) : Bool :=
  value.all fun e => isDocumentedOp e.1 &&
    if e.1 = "isNull" ∨ e.1 = "isNotNull" then
      match e.2 with
      | .boolean true => true
      | _ => false
    else true

mutual

def documentedValue : JsonValue → Bool
  | .object value =>
    if value.any fun e => isDocumentedOp e.1 then documentedOperators value
    else documentedObject value
  | _ => true

def documentedObject : List (String × JsonValue) → Bool
  | [] => true
  | (_, v) :: rest => documentedValue v && documentedObject rest

end

def documentedAlternative : JsonValue → Bool
  | .object value => documentedObject value
  | _ => false

/-- The clauses that the query language describes: at the root, `or` is a list. -/
def documentedClause (clause : List (String × JsonValue)) : Bool :=
  documentedObject (restOf clause) &&
    match clause.lookup "or" with
    | none => true
    | some (.array alternatives) => alternatives.all documentedAlternative
    | some _ => false

def rootConditions (clause : List (String × JsonValue)) : List FieldCondition :=
  objectConditions "" (restOf clause)

def alternativeConditions : JsonValue → List FieldCondition
  | .object value => objectConditions "" value
  | _ => []

def alternativesOf (clause : List (String × JsonValue)) : List (List FieldCondition) :=
  match clause.lookup "or" with
  | some (.array alternatives) => alternatives.map alternativeConditions
  | _ => []

-- The truth of a single condition.
variable (truth : FieldCondition → Bool)

/-- The documented meaning of a clause: all conditions hold at the root and, unless there are no
alternatives, all those of one of them. -/
def clauseMeaning (clause : List (String × JsonValue)) : Bool :=
  (rootConditions clause).all truth &&
    ((alternativesOf clause).isEmpty || (alternativesOf clause).any (·.all truth))

/-- The root holds, and either a condition of the alternatives does although none of them holds as a
whole, or none does although there are some and an alternative asks for nothing. -/
def MetInPart (clause : List (String × JsonValue)) : Prop :=
  (rootConditions clause).all truth ∧ ((∃ c ∈ (alternativesOf clause).flatten, truth c) ∧
      (∀ alternative ∈ alternativesOf clause, alternative.all truth = false) ∨
    (alternativesOf clause).flatten ≠ [] ∧ (∀ c ∈ (alternativesOf clause).flatten, truth c = false) ∧
      [] ∈ alternativesOf clause)

/-- Each condition of an alternative completes one, beside those at the root, and is at the root already if
some alternative asks for nothing. -/
def WholeAlternatives (clause : List (String × JsonValue)) : Prop :=
  (∀ c ∈ (alternativesOf clause).flatten, ∃ alternative ∈ alternativesOf clause,
    ∀ c' ∈ alternative, c' = c ∨ c' ∈ rootConditions clause) ∧
  ((alternativesOf clause).flatten ≠ [] → [] ∈ alternativesOf clause →
    ∃ c ∈ (alternativesOf clause).flatten, c ∈ rootConditions clause)

end Meaning

/-- Whatever the truth of its conditions, the clause is not met in part. -/
lemma wholeAlternatives_iff (clause : List (String × JsonValue)) :
    (∀ truth, ¬ MetInPart truth clause) ↔ WholeAlternatives clause := by
  classical
  constructor
  · intro h
    refine ⟨fun c hc => ?_, fun hsome hempty => ?_⟩
    · by_contra hnone
      push Not at hnone
      refine h (fun c' => decide (c' = c ∨ c' ∈ rootConditions clause)) ⟨?_, .inl ⟨⟨c, hc, ?_⟩, ?_⟩⟩
      · exact all_eq_true.mpr fun c' hc' => decide_eq_true (.inr hc')
      · exact decide_eq_true (.inl rfl)
      · intro alternative ha
        obtain ⟨c', hc', hne, hroot⟩ := hnone alternative ha
        exact all_eq_false.mpr ⟨c', hc', by simp [hne, hroot]⟩
    · by_contra hnone
      push Not at hnone
      refine h (fun c' => decide (c' ∈ rootConditions clause)) ⟨?_, .inr ⟨hsome, ?_, hempty⟩⟩
      · exact all_eq_true.mpr fun c' hc' => decide_eq_true hc'
      · exact fun c hc => decide_eq_false (hnone c hc)
  · rintro ⟨hcompletes, hempty⟩ truth ⟨hroot, ⟨⟨c, hc, htrue⟩, hpart⟩ | ⟨hsome, hfalse, hnone⟩⟩
    · obtain ⟨alternative, ha, hwhole⟩ := hcompletes c hc
      refine absurd (all_eq_true.mpr fun c' hc' => ?_) (Bool.eq_false_iff.mp (hpart alternative ha))
      rcases hwhole c' hc' with rfl | hin
      · exact htrue
      · exact all_eq_true.mp hroot c' hin
    · obtain ⟨c, hc, hin⟩ := hempty hsome hnone
      cases (hfalse c hc).symm.trans (all_eq_true.mp hroot c hin)

section Flattening

lemma lookup_isSome (key : String) : (opCodes.lookup key).isSome = isDocumentedOp key := by
  rw [Bool.eq_iff_iff, Option.isSome_iff_ne_none, ne_eq, lookup_eq_none_iff, isDocumentedOp, contains_iff_mem]
  simp [opCodes, documentedOps]
  tauto

def FieldCondition.encode (c : FieldCondition) : WireCondition := encodeOperator c.field (c.op, c.operand)

lemma encodeOperator_op (field : String) (e : String × JsonValue) :
    (encodeOperator field e).op = opCodes.lookup e.1 := by
  unfold encodeOperator
  split_ifs <;> rfl

lemma isOpKey_of_documented {key : String} (h : isDocumentedOp key) : isOpKey key := by
  rw [isOpKey, lookup_isSome, h, Bool.true_or]

lemma operators_encode {field : String} {value : List (String × JsonValue)} (h : documentedOperators value) :
    encodeOperatorObject field value =
      (value.map fun e => (⟨field, e.1, e.2⟩ : FieldCondition)).map FieldCondition.encode := by
  have hkeys : value.filter (fun e => isOpKey e.1) = value := by
    rw [filter_eq_self]
    intro e he
    exact isOpKey_of_documented (Bool.and_eq_true_iff.mp (all_eq_true.mp h e he)).1
  rw [encodeOperatorObject, hkeys, map_map]
  rfl

mutual

/-- A documented clause is sent condition by condition; a key that is inherited gives no code. -/
theorem valueConditions_encode {field : String} : ∀ {v : JsonValue}, documentedValue v →
    (∀ c ∈ encodeConditionValue field v, c.op.isSome) →
      encodeConditionValue field v = (valueConditions field v).map FieldCondition.encode
  | .object value, h, hcodes => by
    rw [documentedValue] at h
    rw [encodeConditionValue] at hcodes ⊢
    rw [valueConditions]
    by_cases hdoc : value.any fun e => isDocumentedOp e.1
    · have hkey : value.any fun e => isOpKey e.1 := by
        obtain ⟨e, he, hop⟩ := any_eq_true.mp hdoc
        exact any_eq_true.mpr ⟨e, he, isOpKey_of_documented hop⟩
      rw [if_pos hdoc] at h ⊢
      rw [if_pos hkey]
      exact operators_encode h
    · have hkey : ¬ value.any fun e => isOpKey e.1 := by
        intro hkey
        rw [if_pos hkey] at hcodes
        obtain ⟨e, he, hop⟩ := any_eq_true.mp hkey
        have hcode := hcodes _ (mem_map.mpr ⟨e, mem_filter.mpr ⟨he, hop⟩, rfl⟩)
        rw [encodeOperator_op, lookup_isSome] at hcode
        exact hdoc (any_eq_true.mpr ⟨e, he, hcode⟩)
      rw [if_neg hdoc] at h ⊢
      rw [if_neg hkey] at hcodes ⊢
      exact objectConditions_encode h hcodes
  | .null, _, _ | .boolean _, _, _ | .number _, _, _ | .string _, _, _ | .bytes _, _, _ | .array _, _, _ => by
    simp [encodeConditionValue, valueConditions, FieldCondition.encode, encodeOperator]

theorem objectConditions_encode {pre : String} : ∀ {value : List (String × JsonValue)}, documentedObject value →
    (∀ c ∈ encodeConditionObject pre value, c.op.isSome) →
      encodeConditionObject pre value = (objectConditions pre value).map FieldCondition.encode
  | [], _, _ => rfl
  | (key, v) :: rest, h, hcodes => by
    rw [documentedObject, Bool.and_eq_true] at h
    rw [encodeConditionObject] at hcodes ⊢
    rw [objectConditions, map_append,
      valueConditions_encode h.1 fun c hc => hcodes c (mem_append_left _ hc),
      objectConditions_encode h.2 fun c hc => hcodes c (mem_append_right _ hc)]

end

lemma extractOrConditions_eq {alternatives : List JsonValue} (h : alternatives.all documentedAlternative)
    {conditions : List WireCondition} (hsent : extractOrConditions alternatives = some conditions)
    (hcodes : ∀ c ∈ conditions, c.op.isSome) :
    conditions = ((alternatives.map alternativeConditions).flatten).map FieldCondition.encode := by
  suffices hacc : ∀ acc : List WireCondition,
      alternatives.foldlM (fun conditions clause => do
        return conditions ++ encodeConditionObject "" (← objectEntries clause)) acc = some conditions →
      conditions = acc ++ ((alternatives.map alternativeConditions).flatten).map FieldCondition.encode by
    simpa using hacc [] hsent
  clear hsent
  induction alternatives with
  | nil =>
    intro acc hsent
    cases hsent
    simp
  | cons clause rest ih =>
    rw [all_cons, Bool.and_eq_true] at h
    intro acc hsent
    cases clause with
    | object value =>
      rw [foldlM_cons] at hsent
      change rest.foldlM _ (acc ++ encodeConditionObject "" value) = _ at hsent
      have hrest := ih h.2 _ hsent
      have hvalue := objectConditions_encode h.1 fun c hc => hcodes c <| by
        rw [hrest]
        exact mem_append_left _ (mem_append_right _ hc)
      rw [hrest, hvalue, append_assoc, ← map_append]
      rfl
    | _ => cases h.1

end Flattening

section Reading

variable {t : Table} {pack : String → JsonValue → Option Payload} {r : Record}

/-- The name of an operator in the query language. -/
def opName : Operator → String
  | .eq => "eq"
  | .ne => "ne"
  | .gt => "gt"
  | .lt => "lt"
  | .gte => "gte"
  | .lte => "lte"
  | .contains => "contains"
  | .startsWith => "startsWith"
  | .endsWith => "endsWith"
  | .isIn => "in"
  | .notIn => "notIn"
  | .isNull => "isNull"
  | .isNotNull => "isNotNull"

/-- The client's codes are the server's. -/
lemma opName_of_code {key : String} {code : ℕ} {op : Operator} (hcode : opCodes.lookup key = some code)
    (hop : Operator.ofNat? code = some op) : key = opName op := by
  obtain ⟨before, after, heq, -⟩ := lookup_eq_some_iff.mp hcode
  have hmem : (key, code) ∈ opCodes := heq ▸ mem_append_right _ mem_cons_self
  simp only [opCodes, mem_cons, Prod.mk.injEq, not_mem_nil, or_false] at hmem
  rcases hmem with ⟨rfl, rfl⟩ | ⟨rfl, rfl⟩ | ⟨rfl, rfl⟩ | ⟨rfl, rfl⟩ | ⟨rfl, rfl⟩ | ⟨rfl, rfl⟩ | ⟨rfl, rfl⟩ |
    ⟨rfl, rfl⟩ | ⟨rfl, rfl⟩ | ⟨rfl, rfl⟩ | ⟨rfl, rfl⟩ | ⟨rfl, rfl⟩ | ⟨rfl, rfl⟩ <;> cases hop <;> rfl

lemma compareValues_opName (op : Operator) (stored operand : Value) :
    compareValues op stored operand = operatorHolds (opName op) stored operand := by
  cases op <;> rfl

lemma operandOf_opName {op : Operator} {f : Field} {raw : Payload} {value : Option Value}
    (hbinary : op.isNullary = false)
    (h : parseConditionValueForOperator op f.storageType f.itemsType (some raw) = .ok value) :
    value = operandOf (opName op) f raw := by
  obtain ⟨shape, hshape, h⟩ := Outcome.bind_eq_ok.mp h
  cases hexpects : operatorExpectsValueShape op f.storageType with
  | none =>
    rw [hexpects] at hshape
    cases hshape
  | some shape' =>
    rw [hexpects] at hshape
    cases hshape
    have hshaped : shape ≠ .nullary := by
      rintro rfl
      revert hexpects hbinary
      cases op <;> simp [operatorExpectsValueShape, Operator.isNullary] <;> split <;> simp
    rw [if_neg hshaped] at h
    obtain ⟨raw', hraw, h⟩ := Outcome.bind_eq_ok.mp h
    cases hraw
    obtain ⟨w, hw, h⟩ := Outcome.bind_eq_ok.mp h
    cases h
    have hreads : some w = (parseShapedOperand shape f.storageType f.itemsType raw).toOption := by
      rw [hw]
      rfl
    rw [hreads, operandOf]
    cases op with
    | isNull | isNotNull => cases hbinary
    | eq | ne =>
      obtain rfl | rfl : shape = .arrayField ∨ shape = .scalar := by
        rw [operatorExpectsValueShape] at hexpects
        split_ifs at hexpects <;> cases hexpects <;> simp
      all_goals rfl
    | gt | gte | lt | lte =>
      rw [operatorExpectsValueShape] at hexpects
      split_ifs at hexpects
      cases hexpects
      rfl
    | isIn | notIn =>
      rw [operatorExpectsValueShape] at hexpects
      split_ifs at hexpects
      cases hexpects
      rfl
    | startsWith | endsWith =>
      rw [operatorExpectsValueShape] at hexpects
      split_ifs at hexpects
      cases hexpects
      cases raw with
      | str _ => rfl
      | _ => cases hw
    | contains =>
      cases htype : f.storageType with
      | text =>
        rw [htype] at hexpects
        cases hexpects
        cases raw with
        | str _ => rfl
        | _ => cases hw
      | array =>
        rw [htype] at hexpects
        cases hexpects
        rfl
      | _ =>
        rw [htype] at hexpects
        cases hexpects

/-- What the server reads of a condition means what the query language says of it. -/
lemma readCondition_holds {c : FieldCondition} {d : Condition} (h : readCondition t pack c.encode = some d) :
    d.holds r = c.holds t pack r := by
  obtain ⟨i, hi, h⟩ := Option.bind_eq_some_iff.mp h
  obtain ⟨code, hcode, h⟩ := Option.bind_eq_some_iff.mp h
  obtain ⟨operand, hoperand, h⟩ := Option.bind_eq_some_iff.mp h
  have hfield : c.encode.field = c.field := by
    unfold FieldCondition.encode encodeOperator
    split_ifs <;> rfl
  rw [hfield] at hi hoperand
  rw [FieldCondition.encode, encodeOperator_op] at hcode
  have hparse : parseConditionParts t (.uint i) (.uint code) operand = .ok d := by
    cases hparse : parseConditionParts t (.uint i) (.uint code) operand with
    | error e =>
      rw [hparse] at h
      cases h
    | ok d' =>
      rw [hparse] at h
      cases h
      rfl
  obtain ⟨i', hi', h⟩ := Outcome.bind_eq_ok.mp hparse
  cases hi'
  obtain ⟨f, hf, h⟩ := Outcome.bind_eq_ok.mp h
  obtain ⟨op, hop, h⟩ := Outcome.bind_eq_ok.mp h
  obtain ⟨value, hvalue, h⟩ := Outcome.bind_eq_ok.mp h
  cases h
  have hfield' := ofOption_eq_ok.mp hf
  have hop' : Operator.ofNat? code = some op := by
    obtain ⟨code', hcode', hop⟩ := Outcome.bind_eq_ok.mp hop
    cases hcode'
    exact ofOption_eq_ok.mp hop
  have hname : c.op = opName op := opName_of_code hcode hop'
  rw [Condition.holds, FieldCondition.holds, hi, Option.bind_some, hfield', Option.map_some, Option.any_some]
  dsimp only
  cases hstored : r.values[i]? with
  | none =>
    dsimp only
    rw [hname]
    cases op <;> rfl
  | some stored =>
    dsimp only
    cases hnullary : op.isNullary with
    | true =>
      rw [if_pos rfl, hname]
      cases op with
      | isNull | isNotNull => rfl
      | _ => cases hnullary
    | false =>
      have hne : c.op ≠ "isNull" ∧ c.op ≠ "isNotNull" := by
        rw [hname]
        revert hnullary
        cases op <;> decide
      rw [if_neg Bool.false_ne_true, if_neg hne.1, if_neg hne.2]
      have hvalue' : c.encode.value = some c.operand := by
        rw [FieldCondition.encode, encodeOperator, if_neg (not_or.mpr hne)]
      rw [hvalue', Option.mapM_some] at hoperand
      obtain ⟨raw, hraw, rfl⟩ := Option.map_eq_some_iff.mp hoperand
      rw [hraw, Option.bind_some, hname, ← operandOf_opName hnullary hvalue]
      cases value with
      | none => rfl
      | some w => exact compareValues_opName op stored w

lemma readCondition_hasOperand {c : WireCondition} {d : Condition}
    (h : readCondition t pack c = some d) : d.HasOperand := by
  obtain ⟨i, -, h⟩ := Option.bind_eq_some_iff.mp h
  obtain ⟨op, -, h⟩ := Option.bind_eq_some_iff.mp h
  obtain ⟨operand, -, h⟩ := Option.bind_eq_some_iff.mp h
  cases hparse : parseConditionParts t (.uint i) (.uint op) operand with
  | error e =>
    rw [hparse] at h
    cases h
  | ok d' =>
    rw [hparse] at h
    cases h
    exact (parseConditionParts_wellTyped hparse).hasOperand

lemma readConditions_codes {cs : List WireCondition} {ds : List Condition}
    (h : cs.mapM (readCondition t pack) = some ds) : ∀ c ∈ cs, c.op.isSome := by
  induction cs generalizing ds with
  | nil => exact fun c hc => absurd hc not_mem_nil
  | cons c cs ih =>
    rw [mapM_cons] at h
    obtain ⟨d, hd, h⟩ := Option.bind_eq_some_iff.mp h
    obtain ⟨rest, hrest, -⟩ := Option.bind_eq_some_iff.mp h
    obtain ⟨i, -, hd⟩ := Option.bind_eq_some_iff.mp hd
    obtain ⟨op, hop, -⟩ := Option.bind_eq_some_iff.mp hd
    exact forall_mem_cons.mpr ⟨Option.isSome_iff_exists.mpr ⟨op, hop⟩, ih hrest⟩

lemma received_codes {cs : List WireCondition} {read : Option (List Condition)}
    (h : (nonempty? cs).mapM (fun cs => cs.mapM (readCondition t pack)) = some read) :
    ∀ c ∈ cs, c.op.isSome := by
  cases cs with
  | nil => exact fun c hc => absurd hc not_mem_nil
  | cons c cs =>
    obtain ⟨ds, hds, -⟩ := Option.map_eq_some_iff.mp h
    exact readConditions_codes hds

lemma readConditions_spec {cs : List FieldCondition} {ds : List Condition}
    (h : (cs.map FieldCondition.encode).mapM (readCondition t pack) = some ds) :
    (∀ d ∈ ds, d.HasOperand) ∧ ds.map (·.holds r) = cs.map (·.holds t pack r) := by
  induction cs generalizing ds with
  | nil =>
    cases h
    exact ⟨fun d hd => absurd hd not_mem_nil, rfl⟩
  | cons c cs ih =>
    rw [map_cons, mapM_cons] at h
    obtain ⟨d, hd, h⟩ := Option.bind_eq_some_iff.mp h
    obtain ⟨rest, hrest, h⟩ := Option.bind_eq_some_iff.mp h
    cases h
    obtain ⟨hoperands, hholds⟩ := ih hrest
    refine ⟨forall_mem_cons.mpr ⟨readCondition_hasOperand hd, hoperands⟩, ?_⟩
    rw [map_cons, map_cons, hholds, readCondition_holds hd]

lemma readConditions_all {cs : List FieldCondition} {ds : List Condition}
    (h : (cs.map FieldCondition.encode).mapM (readCondition t pack) = some ds) :
    ds.all (·.holds r) = cs.all (·.holds t pack r) := by
  have hmap := congrArg (·.all id) (readConditions_spec (r := r) h).2
  simpa [all_map] using hmap

lemma readConditions_any {cs : List FieldCondition} {ds : List Condition}
    (h : (cs.map FieldCondition.encode).mapM (readCondition t pack) = some ds) :
    ds.any (·.holds r) = cs.any (·.holds t pack r) := by
  have hmap := congrArg (·.any id) (readConditions_spec (r := r) h).2
  simpa [any_map] using hmap

lemma receive_evaluates {conditions alternatives : List FieldCondition} {p : FilterPredicate}
    (h : receive t pack { conditions := nonempty? (conditions.map FieldCondition.encode),
                          orConditions := nonempty? (alternatives.map FieldCondition.encode) } = some p) :
    evaluatePredicate p r = .ok (conditions.all (·.holds t pack r) &&
      (alternatives.isEmpty || alternatives.any (·.holds t pack r))) := by
  obtain ⟨conds, hconds, h⟩ := Option.bind_eq_some_iff.mp h
  obtain ⟨ors, hors, h⟩ := Option.bind_eq_some_iff.mp h
  cases h
  have hand : (∀ d ∈ conds.getD [], d.HasOperand) ∧
      (conds.getD []).all (·.holds r) = conditions.all (·.holds t pack r) := by
    cases conditions with
    | nil =>
      cases hconds
      exact ⟨fun d hd => absurd hd not_mem_nil, rfl⟩
    | cons c cs =>
      obtain ⟨ds, hds, h⟩ := Option.map_eq_some_iff.mp hconds
      cases h
      exact ⟨(readConditions_spec (r := r) hds).1, readConditions_all hds⟩
  have hor : (∀ d ∈ ors.getD [], d.HasOperand) ∧ ((ors.map fun conds => [conds]).getD []).all (clauseHolds r) =
        (alternatives.isEmpty || alternatives.any (·.holds t pack r)) := by
    cases alternatives with
    | nil =>
      cases hors
      exact ⟨fun d hd => absurd hd not_mem_nil, rfl⟩
    | cons c cs =>
      obtain ⟨ds, hds, h⟩ := Option.map_eq_some_iff.mp hors
      cases h
      have hspec := readConditions_spec (r := r) hds
      have hempty : ds.isEmpty = false := by
        have hlen := congrArg List.length hspec.2
        cases ds with
        | nil => simp at hlen
        | cons d ds => rfl
      refine ⟨hspec.1, ?_⟩
      change (clauseHolds r ds && true) = _
      rw [Bool.and_true, clauseHolds, hempty, readConditions_any hds]
      rfl
  have hoperands : FilterPredicate.HasOperands
      { conditions := conds, orClauses := ors.map fun conds => [conds] } := by
    intro d hd
    rcases mem_append.mp hd with hd | hd
    · exact hand.1 d hd
    · cases ors with
      | none => exact absurd hd not_mem_nil
      | some ds => exact hor.1 d (by simpa using hd)
  change evaluatePredicate { conditions := conds, orClauses := ors.map fun conds => [conds] } r = _
  rw [FilterPredicate.evaluatePredicate_eq _ r hoperands, FilterPredicate.holds, hand.2, hor.2]

end Reading

section Agreement

variable {t : Table} {pack : String → JsonValue → Option Payload} {r : Record}

/-- A documented clause that is sent and read holds on a record if the root does and, unless there are none,
one of the conditions of the alternatives. -/
lemma evaluates_flat {clause : List (String × JsonValue)} {sent : WhereWire} {p : FilterPredicate}
    (hdoc : documentedClause clause) (hsent : encodeWhereClause clause = some sent)
    (hread : receive t pack sent = some p) :
    evaluatePredicate p r = .ok ((rootConditions clause).all (·.holds t pack r) &&
      ((alternativesOf clause).flatten.isEmpty || (alternativesOf clause).flatten.any (·.holds t pack r))) := by
  rw [documentedClause, Bool.and_eq_true] at hdoc
  obtain ⟨hfields, hor⟩ := hdoc
  rw [encodeWhereClause] at hsent
  have hflat {alternatives : List WireCondition} (hsent : sent = {
      conditions := nonempty? (encodeConditionObject "" (restOf clause))
      orConditions := nonempty? alternatives })
      (halternatives : (∀ c ∈ alternatives, c.op.isSome) →
        alternatives = (alternativesOf clause).flatten.map FieldCondition.encode) :
      evaluatePredicate p r = .ok ((rootConditions clause).all (·.holds t pack r) &&
        ((alternativesOf clause).flatten.isEmpty ||
          (alternativesOf clause).flatten.any (·.holds t pack r))) := by
    obtain ⟨conds, hconds, h⟩ := Option.bind_eq_some_iff.mp hread
    obtain ⟨ors, hors, -⟩ := Option.bind_eq_some_iff.mp h
    rw [hsent] at hread hconds hors
    rw [objectConditions_encode hfields (received_codes hconds), halternatives (received_codes hors)] at hread
    exact receive_evaluates hread
  cases hlookup : clause.lookup "or" with
  | none =>
    simp only [hlookup] at hsent
    cases hsent
    refine @hflat [] rfl fun _ => ?_
    rw [alternativesOf, hlookup]
    rfl
  | some value =>
    cases value with
    | array alternatives =>
      simp only [hlookup] at hsent hor
      obtain ⟨conditions, hconditions, hsent⟩ := Option.bind_eq_some_iff.mp hsent
      cases hsent
      refine hflat rfl fun hcodes => ?_
      rw [alternativesOf, hlookup]
      exact extractOrConditions_eq hor hconditions hcodes
    | _ => simp [hlookup] at hor

/-- The flat list of conditions stands for the alternatives unless one of them is met in part. -/
lemma flat_eq_clauseMeaning_iff (truth : FieldCondition → Bool) (clause : List (String × JsonValue)) :
    ((rootConditions clause).all truth && ((alternativesOf clause).flatten.isEmpty ||
      (alternativesOf clause).flatten.any truth)) = clauseMeaning truth clause ↔ ¬ MetInPart truth clause := by
  rw [clauseMeaning, MetInPart]
  generalize alternativesOf clause = alternatives
  cases (rootConditions clause).all truth with
  | false => simp
  | true =>
    rw [Bool.true_and, Bool.true_and]
    by_cases hnone : alternatives.flatten = []
    · have hwhole : alternatives.isEmpty || alternatives.any (·.all truth) := by
        cases alternatives with
        | nil => rfl
        | cons alternative rest =>
          rw [flatten_cons, append_eq_nil_iff] at hnone
          rw [hnone.1]
          rfl
      simp [hnone, hwhole]
    have hsome : alternatives ≠ [] := by
      rintro rfl
      exact hnone rfl
    rw [List.isEmpty_eq_false_iff.mpr hnone, List.isEmpty_eq_false_iff.mpr hsome, Bool.false_or, Bool.false_or]
    cases hany : alternatives.flatten.any truth with
    | true =>
      obtain ⟨c, hc, htrue⟩ := any_eq_true.mp hany
      cases hwhole : alternatives.any (·.all truth) with
      | true =>
        obtain ⟨alternative, ha, hall⟩ := any_eq_true.mp hwhole
        refine iff_of_true rfl ?_
        rintro ⟨-, ⟨-, hpart⟩ | ⟨-, hfalse, -⟩⟩
        · cases (hpart alternative ha).symm.trans hall
        · cases (hfalse c hc).symm.trans htrue
      | false =>
        refine iff_of_false (by simp) (not_not.mpr ⟨rfl, .inl ⟨⟨c, hc, htrue⟩, fun alternative ha => ?_⟩⟩)
        exact Bool.eq_false_iff.mpr (any_eq_false.mp hwhole alternative ha)
    | false =>
      have hfalse (c : FieldCondition) (hc : c ∈ alternatives.flatten) : truth c = false :=
        Bool.eq_false_iff.mpr (any_eq_false.mp hany c hc)
      cases hwhole : alternatives.any (·.all truth) with
      | true =>
        obtain ⟨alternative, ha, hall⟩ := any_eq_true.mp hwhole
        refine iff_of_false (by simp) (not_not.mpr ⟨rfl, .inr ⟨hnone, hfalse, ?_⟩⟩)
        cases alternative with
        | nil => exact ha
        | cons c rest =>
          have htrue := all_eq_true.mp hall c mem_cons_self
          cases (hfalse c (mem_flatten.mpr ⟨_, ha, mem_cons_self⟩)).symm.trans htrue
      | false =>
        refine iff_of_true rfl ?_
        rintro ⟨-, ⟨⟨c, hc, htrue⟩, -⟩ | ⟨-, -, hempty⟩⟩
        · cases (hfalse c hc).symm.trans htrue
        · exact any_eq_false.mp hwhole [] hempty rfl

/-- A clause that is sent and read has its documented meaning on a record exactly if it is one of
the documented ones and no alternative of `or` is met in part there; and no alternative ever is, whatever
conditions hold, exactly if each condition of an alternative completes one. -/
theorem encodeWhereClause_means_iff (t : Table) (pack : String → JsonValue → Option Payload)
    (r : Record) {clause : List (String × JsonValue)} {sent : WhereWire} {p : FilterPredicate}
    (hsent : encodeWhereClause clause = some sent) (hread : receive t pack sent = some p) :
    ((documentedClause clause ∧
      evaluatePredicate p r = .ok (clauseMeaning (·.holds t pack r) clause)) ↔
      documentedClause clause ∧ ¬ MetInPart (·.holds t pack r) clause) ∧
    ((∀ truth, ¬ MetInPart truth clause) ↔ WholeAlternatives clause) := by
  refine ⟨and_congr_right fun hdoc => ?_, wholeAlternatives_iff clause⟩
  rw [evaluates_flat hdoc hsent hread, Except.ok.injEq]
  exact flat_eq_clauseMeaning_iff _ clause

end Agreement

namespace WhereExample

def todoTable : Table where
  name := "todos"
  userFields := [.plain "status" .text, .plain "priority" .text]
  fields_wellFormed := by
    intro f hf
    rcases List.mem_pair.mp hf with rfl | rfl <;> exact Field.plain_wellFormed (by decide)
  names_nodup := by decide

def textOf (s : String) : JsonValue := .string (s.toList.map fun c => UInt16.ofNat c.toNat)

def packText (_ : String) : JsonValue → Option Payload
  | .string units => some (.str (units.map fun u => UInt8.ofNat u.toNat))
  | _ => none

def todo (status priority : String) : Record :=
  ⟨[.nil, .nil, .nil, .scalar (.text (asciiBytes status)), .scalar (.text (asciiBytes priority)), .nil, .nil]⟩

def doneAndLow : List (String × JsonValue) :=
  [("or", .array [.object [("status", textOf "done"), ("priority", textOf "low")]])]

def doneOrLow : List (String × JsonValue) :=
  [("or", .array [.object [("status", textOf "done")], .object [("priority", textOf "low")]])]

def predicateOf (clause : List (String × JsonValue)) : FilterPredicate :=
  (((encodeWhereClause clause).bind (receive todoTable packText))).getD {}

/-- A task that is done matches a clause for tasks that are done and of low priority. -/
theorem alternative_split : documentedClause doneAndLow ∧
    ((encodeWhereClause doneAndLow).bind (receive todoTable packText)).isSome ∧
    evaluatePredicate (predicateOf doneAndLow) (todo "done" "high") = .ok true ∧
    clauseMeaning (·.holds todoTable packText (todo "done" "high")) doneAndLow = false := by
  decide

/-- The same task matches a clause for tasks that are done or of low priority, as its alternatives have one
condition each. -/
theorem encodeWhereClause_means_iff_doneOrLow : documentedClause doneOrLow ∧
    evaluatePredicate (predicateOf doneOrLow) (todo "done" "high") =
      .ok (clauseMeaning (·.holds todoTable packText (todo "done" "high")) doneOrLow) := by
  have hmeans := @encodeWhereClause_means_iff todoTable packText (todo "done" "high") doneOrLow _ _ rfl rfl
  refine hmeans.1.mpr ⟨by decide, hmeans.2.mpr ⟨fun c hc => ⟨[c], ?_, by simp⟩, fun _ hempty => ?_⟩ _⟩
  · simpa [alternativesOf, doneOrLow, lookup_cons, alternativeConditions, objectConditions, textOf,
      valueConditions] using hc
  · simp [alternativesOf, doneOrLow, alternativeConditions, objectConditions, textOf,
      valueConditions] at hempty

end WhereExample
end ZyncBase.Sdk
