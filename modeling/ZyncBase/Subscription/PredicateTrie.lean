import ZyncBase.Query.HashContext

/-! The trie of one collection: a group of subscriptions lies at the end of the path that its
conditions form in a fixed order, and a record is matched by walking the edges it passes. -/
namespace ZyncBase

open AssocMap

/-- Equality first, then cheap operators, then the string operators. -/
def conditionTier : Operator → ℕ
  | .eq => 0
  | .isNull | .isNotNull | .ne | .gt | .lt | .gte | .lte | .isIn | .notIn => 1
  | .contains | .startsWith | .endsWith => 2

def pathConditionLessThan (a b : Condition) : Bool :=
  if conditionTier a.op ≠ conditionTier b.op then conditionTier a.op < conditionTier b.op
  else if a.fieldIndex ≠ b.fieldIndex then a.fieldIndex < b.fieldIndex
  else if a.op ≠ b.op then a.op.toNat < b.op.toNat
  else if a.fieldType ≠ b.fieldType then a.fieldType.toNat < b.fieldType.toNat
  else
    match a.itemsType, b.itemsType with
    | none, some _ => true
    | some _, none => false
    | some s, some t =>
      if s ≠ t then s.toNat < t.toNat else conditionValueLessThan a.value b.value
    | none, none => conditionValueLessThan a.value b.value

def buildPath (p : FilterPredicate) : List Condition :=
  (p.conditions.getD []).insertionSort fun a b => !pathConditionLessThan b a

/-- A trie node: the groups whose path ends here, the equality branches by field and value, and
the edges of the other conditions. -/
inductive Node where
  | mk (leafGroups : List ℕ) (eqBranches : List (ℕ × List (Value × Node)))
      (condBranches : List (Condition × Node))

namespace Node

def empty : Node := mk [] [] []

def leafGroups : Node → List ℕ
  | mk leaves _ _ => leaves

def isEmpty : Node → Bool
  | mk leaves eqs conds => leaves.length = 0 && eqs.length = 0 && conds.length = 0

/-- The child an inserted or removed path goes to. -/
def child (step : Condition) : Node → Option Node
  | mk _ eqs conds =>
    if step.op = .eq then
      match step.value with
      | none => none
      | some value => (find eqKey step.fieldIndex eqs).bind (find Value.eql value)
    else find eqlCondition step conds

def setChild : Node → Condition → Node → Node
  | mk leaves eqs conds, step, c =>
    if step.op = .eq then
      match step.value with
      | none => mk leaves eqs conds
      | some value =>
        let values := (find eqKey step.fieldIndex eqs).getD []
        mk leaves (put eqKey step.fieldIndex (put Value.eql value c values) eqs) conds
    else mk leaves eqs (put eqlCondition step c conds)

/-- Drop an edge, and with the last value of a field the field. -/
def removeChild (step : Condition) : Node → Node
  | mk leaves eqs conds =>
    if step.op = .eq then
      match step.value with
      | none => mk leaves eqs conds
      | some value =>
        let values := remove Value.eql value ((find eqKey step.fieldIndex eqs).getD [])
        if values.length = 0 then mk leaves (remove eqKey step.fieldIndex eqs) conds
        else mk leaves (put eqKey step.fieldIndex values eqs) conds
    else mk leaves eqs (remove eqlCondition step conds)

def putLeaf (groupId : ℕ) : Node → Node
  | mk leaves eqs conds =>
    mk (if groupId ∈ leaves then leaves else leaves ++ [groupId]) eqs conds

def removeLeaf (groupId : ℕ) : Node → Node
  | mk leaves eqs conds => mk (leaves.filter (· ≠ groupId)) eqs conds

/-- An equality without value is an error. -/
def insertAlongPath (groupId : ℕ) : List Condition → Node → Except EvalError Node
  | [], n => .ok (n.putLeaf groupId)
  | step :: path, n =>
    if step.op = .eq ∧ step.value = none then .error .missingConditionValue
    else do
      let c ← insertAlongPath groupId path ((n.child step).getD empty)
      return n.setChild step c

def removeAlongPath (groupId : ℕ) : List Condition → Node → Node
  | [], n => n.removeLeaf groupId
  | step :: path, n =>
    match n.child step with
    | none => n
    | some c =>
      let c' := removeAlongPath groupId path c
      if c'.isEmpty then n.removeChild step else n.setChild step c'

/-- Nothing happens for a predicate that never matches. -/
def insertGroup (groupId : ℕ) (p : FilterPredicate) (n : Node) : Except EvalError Node :=
  match p.state with
  | .matchNone => .ok n
  | .matchAll => .ok (n.putLeaf groupId)
  | .conditional => insertAlongPath groupId (buildPath p) n

/-- A conditional predicate without conditions is left where it is. -/
def removeGroup (groupId : ℕ) (p : FilterPredicate) (n : Node) : Node :=
  match p.state with
  | .matchNone => n
  | .matchAll => n.removeLeaf groupId
  | .conditional =>
    match p.conditions with
    | none => n
    | some _ => removeAlongPath groupId (buildPath p) n

mutual

def collectFromNode (r : Record) : Node → Except EvalError (List ℕ)
  | mk leaves eqs conds => do
    return leaves ++ (← collectFields r eqs) ++ (← collectConditions r conds)

def collectFields (r : Record) : List (ℕ × List (Value × Node)) → Except EvalError (List ℕ)
  | [] => .ok []
  | (field, values) :: rest => do
    return (← collectValue r r.values[field]? values) ++ (← collectFields r rest)

/-- The branch of the record's value; a field beyond the record has none. -/
def collectValue (r : Record) (v : Option Value) : List (Value × Node) → Except EvalError (List ℕ)
  | [] => .ok []
  | (w, c) :: rest =>
    if v.any (w.eql ·) then collectFromNode r c else collectValue r v rest

def collectConditions (r : Record) : List (Condition × Node) → Except EvalError (List ℕ)
  | [] => .ok []
  | (c, n) :: rest => do
    if ← evaluateCondition c r then
      return (← collectFromNode r n) ++ (← collectConditions r rest)
    else collectConditions r rest

end

end Node

/-- The OR clauses of a predicate whose conditions the walk has checked. -/
def residualMatches (p : FilterPredicate) (r : Record) : Except EvalError Bool :=
  match p.state with
  | .matchAll => .ok true
  | .matchNone => .ok false
  | .conditional => evaluateClauses r (p.orClauses.getD [])

end ZyncBase
