import ZyncBase.Authorization.Evaluate

/-! Document predicates: the check that a condition can be lowered to a filter, and the lowering,
which folds the terms known in memory and collects the rest in conditions and OR clauses. -/
namespace ZyncBase

/-- `accessDenied` is what `buildDocPredicate` adds to the errors of lowering. -/
inductive DocPredicateError where
  | invalidFieldName | invalidValue | invalidContextVariable
  | unsupportedAuthorizationPredicate | unsupportedOperatorForFieldType | accessDenied
  deriving DecidableEq, Repr

abbrev DocResult := Except DocPredicateError

namespace DocPredicate

def orError {α : Type} (o : Option α) (e : DocPredicateError) : DocResult α :=
  match o with
  | some a => .ok a
  | none => .error e

lemma orError_eq_ok {α : Type} {o : Option α} {e : DocPredicateError} {a : α} :
    orError o e = .ok a ↔ o = some a := by
  cases o <;> simp [orError]

section Validation

structure ValueType where
  storageType : FieldType
  itemsType : Option FieldType := none
  deriving DecidableEq, Repr

namespace ValueType

def scalar (storageType : FieldType) : ValueType := { storageType }

def fromField (f : Field) : ValueType := { storageType := f.storageType, itemsType := f.itemsType }

def arrayItemsType (t : ValueType) : DocResult FieldType :=
  if t.storageType ≠ .array then .error .invalidValue else orError t.itemsType .invalidValue

def membershipItemsType (t : ValueType) : DocResult FieldType :=
  if t.storageType = .array then t.arrayItemsType else .ok t.storageType

end ValueType

def validateScalarType (fieldType : FieldType) (s : ScalarValue) : DocResult Unit :=
  if fieldType.accepts s then .ok () else .error .invalidValue

def validateScalarItems (expected : FieldType) : List ScalarValue → DocResult Unit
  | [] => .ok ()
  | s :: ss => do
    validateScalarType expected s
    validateScalarItems expected ss

def expectedShape (op : Operator) (fieldType : FieldType) : DocResult ValueShape :=
  orError (operatorExpectsValueShape op fieldType) .unsupportedOperatorForFieldType

/-- The nullary shape is excluded by the caller. -/
def validateLiteralValue (op : Operator) (lhsType : ValueType) (value : Value) : DocResult Unit := do
  match ← expectedShape op lhsType.storageType, value with
  | .nullary, _ => return ()
  | .scalarText, .scalar (.text _) | .containsText, .scalar (.text _) => return ()
  | .scalar, .scalar s => validateScalarType lhsType.storageType s
  | .arrayMembership, .array ss => do validateScalarItems (← lhsType.membershipItemsType) ss
  | .arrayField, .array ss => do validateScalarItems (← lhsType.arrayItemsType) ss
  | .containsElement, .scalar s => do validateScalarType (← lhsType.arrayItemsType) s
  | _, _ => throw .invalidValue

def resolveContextVarType (v : ContextVar) (table : Table) : DocResult ValueType :=
  match v.scope with
  | .session =>
    if v.field = "userId" then .ok (.scalar .docId)
    else if v.field = "externalId" then .ok (.scalar .text)
    else .error .invalidContextVariable
  | .namespace => .ok (.scalar .text)
  | .path => if v.field ≠ "table" then .error .invalidValue else .ok (.scalar .text)
  | .value => do
    let i ← orError (table.fieldIndex v.field) .invalidFieldName
    let f ← orError table.fields[i]? .invalidFieldName
    return .fromField f
  | .doc => .error .invalidContextVariable

def validateItemsType (expected : FieldType) (actual : Option FieldType) : DocResult Unit :=
  if actual = some expected then .ok () else .error .invalidValue

def validateMatchingValueType (lhsType rhsType : ValueType) : DocResult Unit :=
  if lhsType.storageType = .array then
    if rhsType.storageType ≠ .array then .error .invalidValue
    else do validateItemsType (← lhsType.arrayItemsType) rhsType.itemsType
  else if rhsType.storageType ≠ lhsType.storageType then .error .invalidValue
  else .ok ()

def validateRhsType (op : Operator) (lhsType rhsType : ValueType) : DocResult Unit :=
  if op = .isIn ∨ op = .notIn then
    if rhsType.storageType ≠ .array then .error .invalidValue
    else do validateItemsType (← lhsType.membershipItemsType) rhsType.itemsType
  else if op = .contains ∧ lhsType.storageType = .array then do
    let expected ← lhsType.arrayItemsType
    if rhsType.storageType ≠ expected then throw .invalidValue
  else if op = .startsWith ∨ op = .endsWith then
    if rhsType.storageType ≠ .text then .error .invalidValue else .ok ()
  else validateMatchingValueType lhsType rhsType

def validateContextVarValue (op : Operator) (lhsType : ValueType) (v : ContextVar)
    (table : Table) : DocResult Unit := do
  validateRhsType op lhsType (← resolveContextVarType v table)

def validateDocComparison (comp : Comparison) (table : Table) : DocResult Unit := do
  let i ← orError (table.fieldIndex comp.lhs.field) .invalidFieldName
  let f ← orError table.fields[i]? .invalidFieldName
  let _ ← expectedShape comp.op f.storageType
  if comp.op.isNullary then return ()
  match comp.rhs with
  | none => throw .unsupportedAuthorizationPredicate
  | some (.literal value) => validateLiteralValue comp.op (.fromField f) value
  | some (.contextVar v) => validateContextVarValue comp.op (.fromField f) v table

/-- How many conditions and OR clauses a condition may lower to. -/
structure Shape where
  conditions : ℕ := 0
  orClauses : ℕ := 0
  deriving DecidableEq, Repr

namespace Shape

def isEmpty (s : Shape) : Bool := s.conditions = 0 && s.orClauses = 0

def asOrTermCount (s : Shape) : DocResult ℕ :=
  if s.orClauses > 0 ∧ s.conditions = 0 then .ok s.orClauses
  else if s.conditions = 1 ∧ s.orClauses = 0 then .ok 1
  else .error .unsupportedAuthorizationPredicate

def firstTermCount : Option Shape → DocResult ℕ
  | some existing => existing.asOrTermCount
  | none => .ok 0

end Shape

mutual

def validateShape (table : Table) : AuthCondition → DocResult Shape
  | .boolean _ => .ok {}
  | .logicalAnd conds => validateAndShape table {} conds
  | .logicalOr conds => validateOrShape table none 0 conds
  | .comparison comp =>
    if comp.lhs.scope ≠ .doc then .ok {}
    else do
      validateDocComparison comp table
      return { conditions := 1 }

def validateAndShape (table : Table) (out : Shape) : List AuthCondition → DocResult Shape
  | [] => .ok out
  | c :: cs => do
    let child ← validateShape table c
    validateAndShape table ⟨out.conditions + child.conditions, out.orClauses + child.orClauses⟩ cs

def validateOrShape (table : Table) (first : Option Shape) (orTerms : ℕ) : List AuthCondition → DocResult Shape
  | [] => .ok (if orTerms > 0 then { orClauses := orTerms } else first.getD {})
  | c :: cs => do
    let child ← validateShape table c
    if child.isEmpty then validateOrShape table first orTerms cs
    else if first.isNone && orTerms = 0 then validateOrShape table (some child) 0 cs
    else
      let before ← Shape.firstTermCount first
      let terms ← child.asOrTermCount
      validateOrShape table none (orTerms + before + terms) cs

end

def validateDocPredicate (c : AuthCondition) (table : Table) : DocResult Unit := do
  let _ ← validateShape table c

end Validation

section Lowering

inductive LowerResult where
  | allow | deny | filter (p : FilterPredicate)
  deriving DecidableEq, Repr

/-- The conditions and OR clauses collected from the terms of a conjunction or disjunction. -/
structure PredicateBuilder where
  conditions : List Condition := []
  orClauses : List OrClause := []
  deriving DecidableEq, Repr

namespace PredicateBuilder

def isEmpty (b : PredicateBuilder) : Bool := b.conditions.length = 0 && b.orClauses.length = 0

def moveOrClauses (b : PredicateBuilder) (p : FilterPredicate) : PredicateBuilder :=
  { b with orClauses := b.orClauses ++ p.orClauses.getD [] }

def appendAndFilterMove (b : PredicateBuilder) (p : FilterPredicate) : PredicateBuilder :=
  moveOrClauses { b with conditions := b.conditions ++ p.conditions.getD [] } p

def appendOrFilterMove (b : PredicateBuilder) (p : FilterPredicate) : PredicateBuilder :=
  moveOrClauses { b with orClauses := b.orClauses ++ (p.conditions.getD []).map ([·]) } p

def toOwnedPredicate (b : PredicateBuilder) : FilterPredicate where
  conditions := if b.conditions.length > 0 then some b.conditions else none
  orClauses := if b.orClauses.length > 0 then some b.orClauses else none

end PredicateBuilder

def resolveRhs (ctx : EvalContext) : Option Operand → DocResult (Option Value)
  | some rhs => (orError (resolveOperand rhs ctx) .invalidValue).map some
  | none => .ok none

def comparisonToQueryCondition (ctx : EvalContext) (table : Table) (comp : Comparison) :
    DocResult Condition := do
  let fieldIndex ← orError (table.fieldIndex comp.lhs.field) .invalidFieldName
  let f ← orError table.fields[fieldIndex]? .invalidFieldName
  let value ← resolveRhs ctx comp.rhs
  return { fieldIndex, op := comp.op, value, fieldType := f.storageType, itemsType := f.itemsType }

def comparisonToFilter (ctx : EvalContext) (table : Table) (comp : Comparison) : DocResult FilterPredicate := do
  return { conditions := some [← comparisonToQueryCondition ctx table comp] }

mutual

def lowerCondition (ctx : EvalContext) (table : Table) : AuthCondition → DocResult LowerResult
  | .boolean b => .ok (if b then .allow else .deny)
  | .logicalAnd conds => lowerAnd ctx table {} conds
  | .logicalOr conds => lowerOr ctx table none none conds
  | .comparison comp =>
    if comp.lhs.scope ≠ .doc then
      match evaluateComparison comp ctx with
      | .allow => .ok .allow
      | .deny | .needsDocPredicate => .ok .deny
    else do return .filter (← comparisonToFilter ctx table comp)

def lowerAnd (ctx : EvalContext) (table : Table) (builder : PredicateBuilder) :
    List AuthCondition → DocResult LowerResult
  | [] => .ok (if builder.isEmpty then .allow else .filter builder.toOwnedPredicate)
  | c :: cs => do
    match ← lowerCondition ctx table c with
    | .allow => lowerAnd ctx table builder cs
    | .deny => return .deny
    | .filter p => lowerAnd ctx table (builder.appendAndFilterMove p) cs

/-- The builder appears with the second term that is not constant. -/
def lowerOr (ctx : EvalContext) (table : Table) (firstFilter : Option FilterPredicate)
    (orBuilder : Option PredicateBuilder) : List AuthCondition → DocResult LowerResult
  | [] =>
    match orBuilder, firstFilter with
    | some builder, _ =>
      .ok (if builder.isEmpty then .deny else .filter builder.toOwnedPredicate)
    | none, some p => .ok (.filter p)
    | none, none => .ok .deny
  | c :: cs => do
    match ← lowerCondition ctx table c with
    | .allow => return .allow
    | .deny => lowerOr ctx table firstFilter orBuilder cs
    | .filter p =>
      match orBuilder, firstFilter with
      | some builder, _ => lowerOr ctx table firstFilter (some (builder.appendOrFilterMove p)) cs
      | none, some existing =>
        let builder := PredicateBuilder.appendOrFilterMove {} existing
        lowerOr ctx table none (some (builder.appendOrFilterMove p)) cs
      | none, none => lowerOr ctx table (some p) none cs

end

/-- The filter that guards access to documents; `none` when every document is allowed. -/
def buildDocPredicate (c : AuthCondition) (ctx : EvalContext) (table : Table) :
    DocResult (Option FilterPredicate) := do
  match ← lowerCondition ctx table c with
  | .allow => return none
  | .deny => throw .accessDenied
  | .filter p =>
    let q := p.normalize
    return if q.state = .matchAll then none else some q

end Lowering

end DocPredicate
end ZyncBase
