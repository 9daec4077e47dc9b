import ZyncBase.Lib.TextMatch
import ZyncBase.Schema.Types

/-! The query language: operators with their comparison of values, conditions, and filter
predicates with their normal form. -/
namespace ZyncBase

/-- ASCII lower case, the folding of all case-insensitive text operators. -/
def asciiLower (c : UInt8) : UInt8 := if 65 ≤ c ∧ c ≤ 90 then c + 32 else c

inductive Operator where
  | eq | ne | gt | lt | gte | lte | contains | startsWith | endsWith | isIn | notIn
  | isNull | isNotNull
  deriving DecidableEq, Repr

namespace Operator

def toNat : Operator → ℕ
  | eq => 0
  | ne => 1
  | gt => 2
  | lt => 3
  | gte => 4
  | lte => 5
  | contains => 6
  | startsWith => 7
  | endsWith => 8
  | isIn => 9
  | notIn => 10
  | isNull => 11
  | isNotNull => 12

def ofNat? : ℕ → Option Operator
  | 0 => some eq
  | 1 => some ne
  | 2 => some gt
  | 3 => some lt
  | 4 => some gte
  | 5 => some lte
  | 6 => some contains
  | 7 => some startsWith
  | 8 => some endsWith
  | 9 => some isIn
  | 10 => some notIn
  | 11 => some isNull
  | 12 => some isNotNull
  | _ => none

@[simp] lemma ofNat?_toNat (op : Operator) : ofNat? op.toNat = some op := by
  cases op <;> rfl

def isNullary : Operator → Bool
  | isNull | isNotNull => true
  | _ => false

end Operator

section Compare

def compareNullary (op : Operator) (v : Value) : Bool :=
  match op with
  | .isNull => v = .nil
  | _ => v ≠ .nil

def compareGte (lhs rhs : Value) : Bool := lhs.order rhs = .gt || lhs.order rhs = .eq
def compareLte (lhs rhs : Value) : Bool := lhs.order rhs = .lt || lhs.order rhs = .eq

def compareStartsWith : Value → Value → Bool
  | .scalar (.text a), .scalar (.text b) => TextMatch.startsWithFold asciiLower a b
  | _, _ => false

def compareEndsWith : Value → Value → Bool
  | .scalar (.text a), .scalar (.text b) => TextMatch.endsWithFold asciiLower a b
  | _, _ => false

def searchScalar (a : ScalarValue) (items : List ScalarValue) : Bool :=
  (SortedSearch.binarySearch a.order items).isSome

def compareIn : Value → Value → Bool
  | .scalar a, .array items => searchScalar a items
  | _, _ => false

def compareNotIn : Value → Value → Bool
  | .scalar a, .array items => !searchScalar a items
  | _, _ => false

def compareContains : Value → Value → Bool
  | .array items, .scalar a => searchScalar a items
  | .scalar (.text a), .scalar (.text b) => (TextMatch.indexOfFold asciiLower a b).isSome
  | _, _ => false

/-- The binary operators on resolved operands. -/
def compareValues (op : Operator) (lhs rhs : Value) : Bool :=
  match op with
  | .eq => lhs.eql rhs
  | .ne => !lhs.eql rhs
  | .gt => lhs.order rhs = .gt
  | .lt => lhs.order rhs = .lt
  | .gte => compareGte lhs rhs
  | .lte => compareLte lhs rhs
  | .startsWith => compareStartsWith lhs rhs
  | .endsWith => compareEndsWith lhs rhs
  | .isIn => compareIn lhs rhs
  | .notIn => compareNotIn lhs rhs
  | .contains => compareContains lhs rhs
  | .isNull | .isNotNull => false

end Compare

/-- The operand an operator takes on a field of a given type. -/
inductive ValueShape where
  | nullary | scalar | scalarText | arrayMembership | arrayField | containsElement | containsText
  deriving DecidableEq, Repr

def operatorExpectsValueShape (op : Operator) (fieldType : FieldType) : Option ValueShape :=
  match op with
  | .isNull | .isNotNull => some .nullary
  | .startsWith | .endsWith => if fieldType = .text then some .scalarText else none
  | .contains =>
    match fieldType with
    | .text => some .containsText
    | .array => some .containsElement
    | _ => none
  | .isIn | .notIn =>
    if fieldType = .array ∨ fieldType = .bytes then none else some .arrayMembership
  | .gt | .gte | .lt | .lte =>
    if fieldType = .array ∨ fieldType = .bytes then none else some .scalar
  | .eq | .ne => if fieldType = .array then some .arrayField else some .scalar

structure Condition where
  fieldIndex : ℕ
  op : Operator
  value : Option Value
  fieldType : FieldType
  itemsType : Option FieldType
  deriving DecidableEq, Repr

namespace Condition

def isTriviallyFalse (c : Condition) : Bool := c.op = .isIn && c.value = some (.array [])
def isTriviallyTrue (c : Condition) : Bool := c.op = .notIn && c.value = some (.array [])

/-- Every operator but the nullary ones carries an operand. -/
def HasOperand (c : Condition) : Prop := c.op.isNullary = false → c.value.isSome

end Condition

structure SortDescriptor where
  fieldIndex : ℕ
  desc : Bool
  deriving DecidableEq, Repr

inductive PredicateState where
  | conditional | matchAll | matchNone
  deriving DecidableEq, Repr

abbrev OrClause := List Condition

/-- A conjunction of conditions and of OR clauses. -/
structure FilterPredicate where
  state : PredicateState := .conditional
  conditions : Option (List Condition) := none
  orClauses : Option (List OrClause) := none
  deriving DecidableEq, Repr

/-- Two conditions that hashing and grouping identify. -/
def eqlCondition (a b : Condition) : Bool :=
  a.fieldIndex = b.fieldIndex && a.op = b.op && a.fieldType = b.fieldType && a.itemsType = b.itemsType &&
    match a.value, b.value with
    | none, none => true
    | some v, some w => v.eql w
    | _, _ => false

def conditionValueLessThan : Option Value → Option Value → Bool
  | none, none => false
  | none, some _ => true
  | some _, none => false
  | some a, some b => a.totalOrder b = .lt

/-- The order that `normalize` sorts conditions by. -/
def conditionLessThan (a b : Condition) : Bool :=
  if a.fieldIndex ≠ b.fieldIndex then a.fieldIndex < b.fieldIndex
  else if a.op ≠ b.op then a.op.toNat < b.op.toNat
  else if a.fieldType ≠ b.fieldType then a.fieldType.toNat < b.fieldType.toNat
  else
    match a.itemsType, b.itemsType with
    | none, some _ => true
    | some _, none => false
    | some s, some t =>
      if s ≠ t then s.toNat < t.toNat else conditionValueLessThan a.value b.value
    | none, none => conditionValueLessThan a.value b.value

def orClauseLessThan : OrClause → OrClause → Bool
  | a :: as, b :: bs =>
    if conditionLessThan a b then true
    else if conditionLessThan b a then false
    else orClauseLessThan as bs
  | [], _ :: _ => true
  | _, [] => false

namespace FilterPredicate

def hasClauses (p : FilterPredicate) : Bool :=
  (p.conditions.getD []).length > 0 || (p.orClauses.getD []).length > 0

def isAlwaysTrue (p : FilterPredicate) : Bool :=
  p.state = .matchAll || (p.state = .conditional && !p.hasClauses)

def isAlwaysFalse (p : FilterPredicate) : Bool := p.state = .matchNone

def clearClauses (p : FilterPredicate) : FilterPredicate :=
  { p with conditions := none, orClauses := none }

def compactTrivialTrueConditions (conds : List Condition) : Option (List Condition) :=
  let keep := conds.filter fun c => !c.isTriviallyTrue
  if keep.length = conds.length then some conds
  else if keep.length = 0 then none
  else some keep

def compactTrivialFalseConditions (conds : List Condition) : Option (List Condition) :=
  let keep := conds.filter fun c => !c.isTriviallyFalse
  if keep.length = 0 then none
  else if keep.length = conds.length then some conds
  else some keep

def clauseHasTriviallyTrue (clause : OrClause) : Bool := clause.any Condition.isTriviallyTrue

def normalizeConditions (p : FilterPredicate) : FilterPredicate :=
  match p.conditions with
  | none => p
  | some conds =>
    if conds.any Condition.isTriviallyFalse then { p.clearClauses with state := .matchNone }
    else { p with conditions := compactTrivialTrueConditions conds }

def removeTriviallyTrueOrClauses (p : FilterPredicate) : FilterPredicate :=
  match p.orClauses with
  | none => p
  | some clauses =>
    let keep := clauses.filter fun c => !clauseHasTriviallyTrue c
    if keep.length < clauses.length then
      { p with orClauses := if keep.length = 0 then none else some keep }
    else p

def compactFalseClauses : List OrClause → Option (List OrClause)
  | [] => some []
  | clause :: clauses =>
    match compactTrivialFalseConditions clause with
    | none => none
    | some result => (compactFalseClauses clauses).map (result :: ·)

/-- A clause that loses all its conditions makes the whole predicate false. -/
def compactFalseConditionsInOrClauses (p : FilterPredicate) : FilterPredicate :=
  match p.orClauses with
  | none => p
  | some clauses =>
    match compactFalseClauses clauses with
    | none => { p.clearClauses with state := .matchNone }
    | some clauses => { p with orClauses := some clauses }

def sortConditions (conds : List Condition) : List Condition :=
  conds.insertionSort fun a b => !conditionLessThan b a

def sortClauses (p : FilterPredicate) : FilterPredicate :=
  { p with
    conditions := p.conditions.map sortConditions
    orClauses := p.orClauses.map fun clauses =>
      (clauses.map sortConditions).insertionSort fun a b => !orClauseLessThan b a }

def settleState (p : FilterPredicate) : FilterPredicate :=
  { p with state := if p.hasClauses then .conditional else .matchAll }

/-- Fold away conditions that are constant and bring the rest into a canonical order. -/
def normalize (p : FilterPredicate) : FilterPredicate :=
  if p.state = .matchAll ∨ p.state = .matchNone then p.clearClauses
  else
    let q := p.normalizeConditions
    if q.state = .matchNone then q
    else
      let r := q.removeTriviallyTrueOrClauses
      if q.orClauses.isSome ∧ r.orClauses = none then r.settleState
      else
        let s := r.compactFalseConditionsInOrClauses
        if s.state = .matchNone then s else s.sortClauses.settleState

/-- Concatenation of optional lists, absent when both are. -/
def appendOption {α : Type*} : Option (List α) → Option (List α) → Option (List α)
  | xs, none => xs
  | none, some ys => some ys
  | some xs, some ys => some (xs ++ ys)

def mergeInPlace (p guard : FilterPredicate) : FilterPredicate :=
  if p.state = .matchNone ∨ guard.state = .matchAll then p
  else if guard.state = .matchNone then { state := .matchNone }
  else
    normalize
      { state := .conditional
        conditions := appendOption p.conditions guard.conditions
        orClauses := appendOption p.orClauses guard.orClauses }

end FilterPredicate

structure QueryFilter where
  predicate : FilterPredicate
  orderBy : List SortDescriptor
  limit : Option ℕ := none
  after : Option Cursor := none
  deriving DecidableEq, Repr

end ZyncBase
