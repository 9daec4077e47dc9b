import ZyncBase.Query.CursorToken
import ZyncBase.Schema.Constraints

/-! The parser on any payload: it ends in a well-formed filter or in an error, unless a limit
overflows its cast or the operand of an array field is read as an array that it is not. -/
namespace ZyncBase

open Outcome

/-- A limit that the cast to 32 bits does not take. -/
def Payload.isOverlong : Payload → Bool
  | .uint v => 2 ^ 32 ≤ v
  | .int v => 2 ^ 32 ≤ v
  | _ => false

namespace Table

/-- A comparison of an array field with an operand that is neither nil nor an array. -/
def misreadsOperand (t : Table) : Payload → Bool
  | .arr [field, op, operand] =>
    match field.toUsize.bind fun i => t.fields[i]?, parseOperator op with
    | some f, .ok o => f.storageType = .array && (o = .eq || o = .ne) && !operand.isNil && !isArr operand
    | _, _ => false
  | _ => false

/-- The conditions before the first one that fails to parse include a misread one, or that one is
misread. -/
def misreadsAny (t : Table) : List Payload → Bool
  | [] => false
  | p :: ps => t.misreadsOperand p || ((parseCondition t p).isOk && misreadsAny t ps)

/-- The value of a key of the filter map stops the program. -/
def stopsAtKey (t : Table) (key : Bytes) (p : Payload) : Bool :=
  if key = asciiBytes "conditions" ∨ key = asciiBytes "orConditions" then
    match p with
    | .arr items => t.misreadsAny items
    | _ => false
  else key = asciiBytes "limit" && p.isOverlong

def stopsAtSomeKey (t : Table) (ctx : FilterParseCtx) : List (Payload × Payload) → Bool
  | [] => false
  | (.str key, p) :: entries =>
    t.stopsAtKey key p ||
      match ctx.handleFilterKey t key p with
      | .ok ctx => stopsAtSomeKey t ctx entries
      | .error _ => false
  | _ :: entries => stopsAtSomeKey t ctx entries

end Table

/-- Well-typed conditions in normal form, a total order of sortable fields and a limit of 32
bits. -/
structure QueryFilter.WellFormed (t : Table) (q : QueryFilter) : Prop where
  predicate : q.predicate.WellTyped t
  normal : q.predicate.Normal
  canonical : q.Canonical t

variable {p : Payload}

section Scalars

variable {t : Table}

lemma ofOption_ne_aborted {α : Type} {e : ParserError} {o : Option α} (he : e ≠ .aborted) :
    ofOption e o ≠ .error .aborted := by
  cases o with
  | none => exact fun h => he (Except.error.inj h)
  | some a => rintro ⟨⟩

lemma ok_ne_aborted {α : Type} (a : α) : (.ok a : Except ParserError α) ≠ .error .aborted := by
  rintro ⟨⟩

lemma bind_ne_aborted {α β : Type} {x : Except ParserError α} {f : α → Except ParserError β}
    (hx : x ≠ .error .aborted) (hf : ∀ a, x = .ok a → f a ≠ .error .aborted) : x >>= f ≠ .error .aborted := by
  rw [Ne, bind_eq_error]
  rintro (h | ⟨a, ha, h⟩)
  · exact hx h
  · exact hf a ha h

lemma liftCodec_eq_aborted {α : Type} {e : ParserError} {x : Except CodecError α}
    (he : e ≠ .aborted) : liftCodec e x = .error .aborted ↔ x = .error .aborted := by
  cases x with
  | ok a => simp [liftCodec]
  | error c => cases c <;> simp [liftCodec, he]

lemma parseScalarValue_ne_aborted (fieldType : FieldType) (p : Payload) :
    parseScalarValue fieldType p ≠ .error .aborted := by
  unfold parseScalarValue
  split_ifs with hnil harray
  · rintro ⟨⟩
  · rintro ⟨⟩
  · intro h
    rw [liftCodec_eq_aborted (by decide), fromPayload_eq_aborted] at h
    exact harray h.1

lemma parseFieldValue_eq_aborted {fieldType : FieldType} {itemsType : Option FieldType}
    : parseFieldValue fieldType itemsType p = .error .aborted ↔
      fieldType = .array ∧ itemsType.isSome ∧ p.isNil = false ∧ isArr p = false := by
  have harr : matchesType .array p = isArr p := by cases p <;> rfl
  unfold parseFieldValue
  split_ifs with hnil
  · simp [hnil]
  · rw [liftCodec_eq_aborted (by decide), fromPayload_eq_aborted, harr]

lemma parseInItems_ne_aborted (fieldType : FieldType) (ps : List Payload) :
    parseInItems fieldType ps ≠ .error .aborted := by
  induction ps with
  | nil => rintro ⟨⟩
  | cons p ps ih =>
    rw [parseInItems]
    refine bind_ne_aborted (parseScalarValue_ne_aborted fieldType p) fun v hv => ?_
    obtain ⟨s, rfl, -⟩ := parseScalarValue_decodes hv
    exact bind_ne_aborted ih fun _ _ => ok_ne_aborted _

lemma parseInOperand_ne_aborted (fieldType : FieldType) (p : Payload) :
    parseInOperand fieldType p ≠ .error .aborted := by
  cases p with
  | arr items =>
    unfold parseInOperand
    split_ifs
    · rintro ⟨⟩
    · exact bind_ne_aborted (parseInItems_ne_aborted fieldType items) fun _ _ => ok_ne_aborted _
  | _ => rintro ⟨⟩

lemma parseOperator_ne_aborted (p : Payload) : parseOperator p ≠ .error .aborted :=
  bind_ne_aborted (ofOption_ne_aborted (by decide)) fun _ _ => ofOption_ne_aborted (by decide)

end Scalars

section Conditions

variable {t : Table}

lemma operatorExpectsValueShape_eq_arrayField {op : Operator} {fieldType : FieldType} :
    operatorExpectsValueShape op fieldType = some .arrayField ↔ fieldType = .array ∧ (op = .eq ∨ op = .ne) := by
  cases op <;> cases fieldType <;> simp [operatorExpectsValueShape]

lemma parseShapedOperand_eq_aborted {shape : ValueShape} {op : Operator} {f : Field}
    {raw : Payload} (hf : f ∈ t.fields)
    (hshape : operatorExpectsValueShape op f.storageType = some shape) (hne : shape ≠ .nullary) :
    parseShapedOperand shape f.storageType f.itemsType raw = .error .aborted ↔
      f.storageType = .array ∧ (op = .eq ∨ op = .ne) ∧ raw.isNil = false ∧ isArr raw = false := by
  have hother (h : shape ≠ .arrayField) : ¬(f.storageType = .array ∧ (op = .eq ∨ op = .ne) ∧
      raw.isNil = false ∧ isArr raw = false) := by
    rintro ⟨harray, hop, -⟩
    rw [operatorExpectsValueShape_eq_arrayField.mpr ⟨harray, hop⟩] at hshape
    exact h (Option.some.inj hshape).symm
  cases shape with
  | nullary => exact absurd rfl hne
  | arrayField =>
    obtain ⟨harray, hop⟩ := operatorExpectsValueShape_eq_arrayField.mp hshape
    obtain ⟨items, hitems, -⟩ := t.items_primitive hf harray
    rw [parseShapedOperand, parseFieldValue_eq_aborted, hitems]
    simp [harray, hop]
  | scalar =>
    rw [parseShapedOperand, parseFieldValue_eq_aborted]
    exact iff_of_false (fun h => operatorExpectsValueShape_scalar hshape h.1) (hother (by decide))
  | arrayMembership =>
    exact iff_of_false (parseInOperand_ne_aborted _ _) (hother (by decide))
  | containsElement =>
    exact iff_of_false (bind_ne_aborted (ofOption_ne_aborted (by decide)) fun i _ =>
      parseScalarValue_ne_aborted i raw) (hother (by decide))
  | scalarText | containsText =>
    refine iff_of_false (fun h => ?_) (hother (by decide))
    cases raw with
    | str b => exact parseScalarValue_ne_aborted .text _ h
    | _ => cases h

lemma parseConditionValueForOperator_eq_aborted {op : Operator} {f : Field}
    {operand : Option Payload} (hf : f ∈ t.fields) :
    parseConditionValueForOperator op f.storageType f.itemsType operand = .error .aborted ↔
      ∃ raw, operand = some raw ∧
        f.storageType = .array ∧ (op = .eq ∨ op = .ne) ∧ raw.isNil = false ∧ isArr raw = false := by
  unfold parseConditionValueForOperator
  cases hshape : operatorExpectsValueShape op f.storageType with
  | none =>
    refine iff_of_false (by simp [ofOption, bind, Except.bind]) ?_
    rintro ⟨raw, -, harray, hop, -⟩
    rw [operatorExpectsValueShape_eq_arrayField.mpr ⟨harray, hop⟩] at hshape
    cases hshape
  | some shape =>
    rw [ofOption, ok_bind]
    by_cases hnullary : shape = .nullary
    · subst hnullary
      rw [if_pos rfl]
      refine iff_of_false (fun h => by cases operand <;> cases h) ?_
      rintro ⟨raw, -, harray, hop, -⟩
      rw [operatorExpectsValueShape_eq_arrayField.mpr ⟨harray, hop⟩] at hshape
      cases hshape
    · rw [if_neg hnullary]
      cases operand with
      | none => simp [ofOption, bind, Except.bind]
      | some raw =>
        rw [ofOption, ok_bind, bind_eq_error, parseShapedOperand_eq_aborted hf hshape hnullary]
        simp [pure, Except.pure]

lemma parseConditionParts_eq_aborted {field op : Payload} {operand : Option Payload} :
    parseConditionParts t field op operand = .error .aborted ↔
      ∃ i f o raw, field.toUsize = some i ∧ t.fields[i]? = some f ∧ parseOperator op = .ok o ∧
        operand = some raw ∧ f.storageType = .array ∧ (o = .eq ∨ o = .ne) ∧
        raw.isNil = false ∧ isArr raw = false := by
  unfold parseConditionParts
  constructor
  · intro h
    obtain h | ⟨i, hi, h⟩ := bind_eq_error.mp h
    · exact absurd h (ofOption_ne_aborted (by decide))
    obtain h | ⟨f, hf, h⟩ := bind_eq_error.mp h
    · exact absurd h (ofOption_ne_aborted (by decide))
    obtain h | ⟨o, ho, h⟩ := bind_eq_error.mp h
    · exact absurd h (parseOperator_ne_aborted op)
    obtain h | ⟨v, -, h⟩ := bind_eq_error.mp h
    · have hf := ofOption_eq_ok.mp hf
      obtain ⟨raw, hraw, h⟩ :=
        (parseConditionValueForOperator_eq_aborted (List.mem_of_getElem? hf)).mp h
      exact ⟨i, f, o, raw, ofOption_eq_ok.mp hi, hf, ho, hraw, h⟩
    · cases h
  · rintro ⟨i, f, o, raw, hi, hf, ho, hraw, h⟩
    have hvalue : parseConditionValueForOperator o f.storageType f.itemsType operand = .error .aborted :=
      (parseConditionValueForOperator_eq_aborted (List.mem_of_getElem? hf)).mpr ⟨raw, hraw, h⟩
    simp [hi, hf, ho, hvalue, ofOption, bind, Except.bind]

lemma parseCondition_eq_aborted : parseCondition t p = .error .aborted ↔ t.misreadsOperand p := by
  unfold parseCondition
  split
  · rw [parseConditionParts_eq_aborted]
    simp [Table.misreadsOperand]
  · rename_i field op operand
    rw [parseConditionParts_eq_aborted, Table.misreadsOperand]
    constructor
    · rintro ⟨i, f, o, raw, hi, hf, ho, hraw, h⟩
      cases hraw
      simpa [hi, hf, ho, and_assoc] using h
    · intro h
      split at h
      · rename_i f o hf ho
        obtain ⟨i, hi, hf⟩ := Option.bind_eq_some_iff.mp hf
        exact ⟨i, f, o, operand, hi, hf, ho, rfl, by simpa [and_assoc] using h⟩
      · exact absurd h Bool.false_ne_true
  · rename_i hno
    refine iff_of_false (by rintro ⟨⟩) ?_
    unfold Table.misreadsOperand
    split
    · exact absurd rfl (hno _ _ _)
    · exact Bool.false_ne_true

lemma parseConditionItems_eq_aborted {ps : List Payload} :
    parseConditionItems t ps = .error .aborted ↔ t.misreadsAny ps := by
  induction ps with
  | nil => simp [parseConditionItems, Table.misreadsAny]
  | cons p ps ih =>
    rw [parseConditionItems, bind_eq_error, parseCondition_eq_aborted, Table.misreadsAny,
      Bool.or_eq_true, Bool.and_eq_true, ← ih]
    refine or_congr_right ?_
    cases hp : parseCondition t p with
    | error e => simp [Except.isOk, Except.toBool]
    | ok c =>
      simp only [Except.isOk, Except.toBool, true_and, Except.ok.injEq, exists_eq_left']
      rw [bind_eq_error]
      simp [pure, Except.pure]

end Conditions

section Entries

variable {t : Table}

lemma parseSortDescriptor_ne_aborted (p : Payload) : parseSortDescriptor t p ≠ .error .aborted := by
  unfold parseSortDescriptor
  split
  · refine bind_ne_aborted (ofOption_ne_aborted (by decide)) fun i _ =>
      bind_ne_aborted (ofOption_ne_aborted (by decide)) fun f _ => ?_
    split_ifs
    · rintro ⟨⟩
    · refine bind_ne_aborted ?_ fun _ _ => ok_ne_aborted _
      unfold parseSortDirection
      split <;> rintro ⟨⟩
  · rintro ⟨⟩

lemma parseSortItems_ne_aborted (seen : List SortDescriptor) (ps : List Payload) :
    parseSortItems t seen ps ≠ .error .aborted := by
  induction ps generalizing seen with
  | nil => rintro ⟨⟩
  | cons p ps ih =>
    rw [parseSortItems]
    refine bind_ne_aborted (parseSortDescriptor_ne_aborted p) fun d _ => ?_
    split_ifs
    · rintro ⟨⟩
    · exact ih _

lemma parseSortDescriptors_ne_aborted (p : Payload) : parseSortDescriptors t p ≠ .error .aborted := by
  unfold parseSortDescriptors
  split
  · split_ifs
    · rintro ⟨⟩
    · exact parseSortItems_ne_aborted [] _
  · rintro ⟨⟩

lemma parseLimit_eq_aborted {old : Option ℕ} : parseLimit old p = .error .aborted ↔ p.isOverlong := by
  cases p with
  | uint v =>
    simp only [parseLimit, Payload.isOverlong, ok_bind, decide_eq_true_eq]
    split_ifs with hv hzero
    · exact iff_of_false (by rintro ⟨⟩) (by omega)
    · exact iff_of_false (by rintro ⟨⟩) (by omega)
    · exact iff_of_true rfl (by omega)
  | int v =>
    simp only [parseLimit, Payload.isOverlong, ok_bind, decide_eq_true_eq]
    split_ifs with hneg hold hv hzero
    · exact iff_of_false (by rintro ⟨⟩) (by omega)
    · exact iff_of_false (by rintro ⟨⟩) (by omega)
    · exact iff_of_false (by rintro ⟨⟩) (by omega)
    · exact iff_of_false (by rintro ⟨⟩) (by omega)
    · exact iff_of_true rfl (by omega)
  | _ =>
    simp only [parseLimit, Payload.isOverlong, ok_bind]
    split_ifs <;> exact iff_of_false (by rintro ⟨⟩) (by rintro ⟨⟩)

lemma parseConditions_bind_eq_aborted {items : List Payload} {f : List Condition → FilterParseCtx} :
    (do return f (← parseConditions t (.arr items)) : Except ParserError FilterParseCtx) =
      .error .aborted ↔ t.misreadsAny items := by
  rw [bind_eq_error, parseConditions, parseConditionItems_eq_aborted]
  simp [pure, Except.pure]

lemma handleFilterKey_eq_aborted {ctx : FilterParseCtx} {key : Bytes} :
    ctx.handleFilterKey t key p = .error .aborted ↔ t.stopsAtKey key p := by
  have horder : asciiBytes "orderBy" ≠ asciiBytes "limit" := by decide
  have hafter : asciiBytes "after" ≠ asciiBytes "limit" := by decide
  unfold FilterParseCtx.handleFilterKey Table.stopsAtKey
  by_cases hcond : key = asciiBytes "conditions"
  · rw [if_pos hcond, if_pos (.inl hcond)]
    cases p with
    | arr items => exact parseConditions_bind_eq_aborted
    | _ => exact iff_of_false (by rintro ⟨⟩) (by rintro ⟨⟩)
  by_cases hor : key = asciiBytes "orConditions"
  · rw [if_neg hcond, if_pos hor, if_pos (.inr hor)]
    cases p with
    | arr items => exact parseConditions_bind_eq_aborted
    | _ => exact iff_of_false (by rintro ⟨⟩) (by rintro ⟨⟩)
  rw [if_neg hcond, if_neg hor, if_neg (not_or.mpr ⟨hcond, hor⟩), Bool.and_eq_true, decide_eq_true_eq]
  by_cases horderBy : key = asciiBytes "orderBy"
  · rw [if_pos horderBy]
    exact iff_of_false (bind_ne_aborted (parseSortDescriptors_ne_aborted p) fun _ _ => ok_ne_aborted _)
      fun h => horder (horderBy ▸ h.1)
  by_cases hlimit : key = asciiBytes "limit"
  · rw [if_neg horderBy, if_pos hlimit, bind_eq_error, parseLimit_eq_aborted]
    simp [hlimit, pure, Except.pure]
  · rw [if_neg horderBy, if_neg hlimit]
    refine iff_of_false ?_ (fun h => hlimit h.1)
    split_ifs
    · cases p <;> rintro ⟨⟩
    · rintro ⟨⟩

lemma handleEntries_eq_aborted {ctx : FilterParseCtx} {entries : List (Payload × Payload)} :
    ctx.handleEntries t entries = .error .aborted ↔ t.stopsAtSomeKey ctx entries := by
  induction entries generalizing ctx with
  | nil => simp [FilterParseCtx.handleEntries, Table.stopsAtSomeKey]
  | cons e entries ih =>
    obtain ⟨k, p⟩ := e
    cases k with
    | str key =>
      rw [FilterParseCtx.handleEntries, Table.stopsAtSomeKey, bind_eq_error,
        handleFilterKey_eq_aborted, Bool.or_eq_true]
      refine or_congr_right ?_
      cases hkey : ctx.handleFilterKey t key p with
      | error e => simp
      | ok next => simp [ih]
    | _ => exact ih

lemma settleOrderBy_ne_aborted (orderBy : Option (List SortDescriptor)) :
    settleOrderBy t orderBy ≠ .error .aborted := by
  unfold settleOrderBy
  split
  · rintro ⟨⟩
  · unfold canonicalizeOrderBy
    split_ifs <;> rintro ⟨⟩

end Entries

variable {decodeToken : Bytes → Option Payload} {tableIndex : ℕ}

section Cursor

variable {t : Table}

lemma validateCursorDescriptors_ne_aborted (ps : List Payload) (ds : List SortDescriptor) :
    validateCursorDescriptors ps ds ≠ .error .aborted := by
  induction ps, ds using validateCursorDescriptors.induct with
  | case1 => rintro ⟨⟩
  | case2 field direction ps d ds ih =>
    rw [validateCursorDescriptors]
    refine bind_ne_aborted (ofOption_ne_aborted (by decide)) fun i _ =>
      bind_ne_aborted (ofOption_ne_aborted (by decide)) fun _ _ => ?_
    split_ifs
    · rintro ⟨⟩
    · exact ih
  | case3 => simp_all [validateCursorDescriptors]

lemma validateCursorIdentity_ne_aborted (tableIndex : ℕ) (ds : List SortDescriptor)
    (p : Payload) : validateCursorIdentity tableIndex ds p ≠ .error .aborted := by
  unfold validateCursorIdentity
  split
  · rename_i order values
    refine bind_ne_aborted (ofOption_ne_aborted (by decide)) fun i _ => ?_
    split_ifs
    · rintro ⟨⟩
    cases order with
    | arr items =>
      refine bind_ne_aborted (validateCursorDescriptors_ne_aborted _ _) fun _ _ => ?_
      split
      · split_ifs <;> rintro ⟨⟩
      · rintro ⟨⟩
    | _ => rintro ⟨⟩
  · rintro ⟨⟩

lemma decodeCursorValues_ne_aborted {ds : List SortDescriptor} (hds : ∀ d ∈ ds, d.Sortable t)
    (ps : List Payload) : decodeCursorValues t ds ps ≠ .error .aborted := by
  induction ds generalizing ps with
  | nil => cases ps <;> rintro ⟨⟩
  | cons d ds ih =>
    cases ps with
    | nil => rintro ⟨⟩
    | cons p ps =>
      obtain ⟨f, hf, harray⟩ := hds d List.mem_cons_self
      rw [decodeCursorValues, hf, ofOption, ok_bind]
      by_cases hnil : p.isNil ∧ f.required
      · rw [if_pos hnil]
        rintro ⟨⟩
      rw [if_neg hnil]
      by_cases harr : isArr p
      · rw [if_pos harr]
        rintro ⟨⟩
      rw [if_neg harr]
      refine bind_ne_aborted (fun h => ?_) fun v _ =>
        bind_ne_aborted (ih (fun e he => hds e (List.mem_cons_of_mem _ he)) ps) fun _ _ => ok_ne_aborted _
      rw [liftCodec_eq_aborted (by decide), fromPayload_eq_aborted] at h
      exact harray h.1

lemma decodeCursorToken_ne_aborted {ds : List SortDescriptor} (hds : ∀ d ∈ ds, d.Sortable t) (token : Bytes) :
    decodeCursorToken decodeToken t tableIndex ds token ≠ .error .aborted :=
  bind_ne_aborted (ofOption_ne_aborted (by decide)) fun p _ =>
    bind_ne_aborted (validateCursorIdentity_ne_aborted tableIndex ds p) fun vs _ =>
      bind_ne_aborted (decodeCursorValues_ne_aborted hds vs) fun _ _ => ok_ne_aborted _

lemma parseAfter_ne_aborted {ds : List SortDescriptor} (hds : ∀ d ∈ ds, d.Sortable t) (token : Option Bytes) :
    parseAfter decodeToken t tableIndex ds token ≠ .error .aborted := by
  cases token with
  | none => rintro ⟨⟩
  | some token =>
    have hdecode : decodeCursorToken decodeToken t tableIndex ds token ≠ .error .aborted :=
      decodeCursorToken_ne_aborted hds token
    rw [parseAfter]
    cases hcursor : decodeCursorToken decodeToken t tableIndex ds token with
    | ok cursor => rintro ⟨⟩
    | error e =>
      rintro ⟨⟩
      exact hdecode hcursor

end Cursor

def Schema.stopsParser (s : Schema) (tableIndex : ℕ) (p : Payload) : Bool :=
  match s.tableByIndex tableIndex, p with
  | some t, .map entries => t.stopsAtSomeKey {} entries
  | _, _ => false

lemma parseQueryFilter_eq_aborted {s : Schema} :
    parseQueryFilter decodeToken s tableIndex p = .error .aborted ↔ s.stopsParser tableIndex p := by
  unfold parseQueryFilter Schema.stopsParser
  cases p with
  | map entries =>
    cases s.tableByIndex tableIndex with
    | none => exact iff_of_false (by rintro ⟨⟩) Bool.false_ne_true
    | some t =>
      simp only [ofOption, ok_bind]
      rw [bind_eq_error, handleEntries_eq_aborted]
      refine or_iff_left ?_
      rintro ⟨ctx, hctx, h⟩
      obtain h | ⟨orderBy, horder, h⟩ := bind_eq_error.mp h
      · exact settleOrderBy_ne_aborted _ h
      have hempty : ({} : FilterParseCtx).Ordered t :=
        ⟨fun ds hds => (by cases hds), fun l hl => (by cases hl)⟩
      have hordered := handleEntries_ordered hempty hctx
      have hsortable := (settleOrderBy_canonical hordered.sortable horder).1
      obtain h | ⟨after, -, h⟩ := bind_eq_error.mp h
      · exact parseAfter_ne_aborted hsortable _ h
      · cases h
  | _ => cases s.tableByIndex tableIndex <;> exact iff_of_false (by rintro ⟨⟩) Bool.false_ne_true

lemma parseQueryFilter_wellFormed {s : Schema} {q : QueryFilter}
    (h : parseQueryFilter decodeToken s tableIndex p = .ok q) :
    ∃ t, s.tableByIndex tableIndex = some t ∧ q.WellFormed t := by
  obtain ⟨t, ht, htyped, hnormal⟩ := parseQueryFilter_predicate h
  exact ⟨t, ht, htyped, hnormal, parseQueryFilter_canonical h ht⟩

/-- Exactly the payloads that overflow a limit or misread an operand stop the parser; any other one
ends in a well-formed filter or in an error. -/
theorem parseQueryFilter_answers_iff (decodeToken : Bytes → Option Payload) (s : Schema)
    (tableIndex : ℕ) (p : Payload) :
    (parseQueryFilter decodeToken s tableIndex p ≠ .error .aborted ∧
      ∀ q, parseQueryFilter decodeToken s tableIndex p = .ok q →
        ∃ t, s.tableByIndex tableIndex = some t ∧ q.WellFormed t) ↔ s.stopsParser tableIndex p = false := by
  rw [Ne, parseQueryFilter_eq_aborted, Bool.not_eq_true]
  exact and_iff_left fun q hq => parseQueryFilter_wellFormed hq

namespace ParserSafetyExample

def tagTable : Table where
  name := "tags"
  userFields := [{ name := "labels", declaredType := .array, storageType := .array,
                   itemsType := some .text }]
  fields_wellFormed := by
    intro f hf
    cases List.mem_singleton.mp hf
    exact ⟨rfl, by decide, by decide, fun _ => ⟨.text, rfl, rfl⟩, by decide, by decide, rfl⟩
  names_nodup := by decide

def tagSchema : Schema := soloSchema tagTable rfl fun f hf => by rw [List.mem_singleton.mp hf]

/-- A limit of 2 ^ 32, and a text where an array is expected. -/
theorem limit_and_text_stop : parseQueryFilter (fun _ => none) tagSchema 0
        (.map [(.str (asciiBytes "limit"), .uint (2 ^ 32))]) = .error .aborted ∧
      parseQueryFilter (fun _ => none) tagSchema 0
        (.map [(.str (asciiBytes "conditions"),
          .arr [.arr [.uint 3, .uint 0, .str (asciiBytes "red")]])]) = .error .aborted :=
  ⟨rfl, rfl⟩

end ParserSafetyExample
end ZyncBase
