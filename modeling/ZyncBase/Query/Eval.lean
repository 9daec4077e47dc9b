import ZyncBase.Query.Ast

/-! Evaluation of filter predicates on records in memory. -/
namespace ZyncBase

open List

inductive EvalError where
  | missingConditionValue
  deriving DecidableEq, Repr

def evaluateCondition (c : Condition) (r : Record) : Except EvalError Bool :=
  match r.values[c.fieldIndex]? with
  | none => .ok (c.op = .isNull)
  | some v =>
    if c.op.isNullary then .ok (compareNullary c.op v)
    else
      match c.value with
      | none => .error .missingConditionValue
      | some rhs => .ok (compareValues c.op v rhs)

def evaluateConditions (r : Record) : List Condition → Except EvalError Bool
  | [] => .ok true
  | c :: cs => do
    if ← evaluateCondition c r then evaluateConditions r cs else return false

/-- Does some condition of the clause hold? -/
def evaluateClause (r : Record) : OrClause → Except EvalError Bool
  | [] => .ok false
  | c :: cs => do
    if ← evaluateCondition c r then return true else evaluateClause r cs

def evaluateClauses (r : Record) : List OrClause → Except EvalError Bool
  | [] => .ok true
  | clause :: clauses => do
    if clause.isEmpty then evaluateClauses r clauses
    else if ← evaluateClause r clause then evaluateClauses r clauses
    else return false

def evaluatePredicate (p : FilterPredicate) (r : Record) : Except EvalError Bool :=
  match p.state with
  | .matchAll => .ok true
  | .matchNone => .ok false
  | .conditional => do
    if ← evaluateConditions r (p.conditions.getD []) then
      evaluateClauses r (p.orClauses.getD [])
    else return false

/-- The truth of a condition, where an absent operand counts as false. -/
def Condition.holds (c : Condition) (r : Record) : Bool :=
  match r.values[c.fieldIndex]? with
  | none => c.op = .isNull
  | some v =>
    if c.op.isNullary then compareNullary c.op v
    else
      match c.value with
      | none => false
      | some rhs => compareValues c.op v rhs

lemma evaluateCondition_eq (c : Condition) (r : Record) (h : c.HasOperand) :
    evaluateCondition c r = .ok (c.holds r) := by
  simp only [evaluateCondition, Condition.holds]
  cases r.values[c.fieldIndex]? with
  | none => rfl
  | some v =>
    cases hn : c.op.isNullary with
    | true => simp
    | false =>
      obtain ⟨w, hw⟩ := Option.isSome_iff_exists.mp (h hn)
      simp [hw]

lemma evaluateConditions_eq (r : Record) (cs : List Condition) (h : ∀ c ∈ cs, c.HasOperand) :
    evaluateConditions r cs = .ok (cs.all (·.holds r)) := by
  induction cs with
  | nil => rfl
  | cons c cs ih =>
    rw [evaluateConditions, evaluateCondition_eq c r (h c mem_cons_self),
      ih fun d hd => h d (mem_cons_of_mem _ hd)]
    cases hc : c.holds r <;> simp [hc, bind, Except.bind, pure, Except.pure]

lemma evaluateClause_eq (r : Record) (cs : OrClause) (h : ∀ c ∈ cs, c.HasOperand) :
    evaluateClause r cs = .ok (cs.any (·.holds r)) := by
  induction cs with
  | nil => rfl
  | cons c cs ih =>
    rw [evaluateClause, evaluateCondition_eq c r (h c mem_cons_self),
      ih fun d hd => h d (mem_cons_of_mem _ hd)]
    cases hc : c.holds r <;> simp [hc, bind, Except.bind, pure, Except.pure]

def clauseHolds (r : Record) (clause : OrClause) : Bool :=
  clause.isEmpty || clause.any (·.holds r)

lemma evaluateClauses_eq (r : Record) (clauses : List OrClause)
    (h : ∀ clause ∈ clauses, ∀ c ∈ clause, c.HasOperand) :
    evaluateClauses r clauses = .ok (clauses.all (clauseHolds r)) := by
  induction clauses with
  | nil => rfl
  | cons clause clauses ih =>
    have ih := ih fun d hd => h d (mem_cons_of_mem _ hd)
    rw [evaluateClauses]
    cases he : clause.isEmpty with
    | true => simp [ih, clauseHolds, he]
    | false =>
      rw [evaluateClause_eq r clause (h clause mem_cons_self), ih]
      cases hc : clause.any (·.holds r) <;> simp [clauseHolds, hc, he, bind, Except.bind, pure, Except.pure]

namespace FilterPredicate

def allConditions (p : FilterPredicate) : List Condition :=
  p.conditions.getD [] ++ (p.orClauses.getD []).flatten

def HasOperands (p : FilterPredicate) : Prop := ∀ c ∈ p.allConditions, c.HasOperand

def holds (p : FilterPredicate) (r : Record) : Bool :=
  match p.state with
  | .matchAll => true
  | .matchNone => false
  | .conditional =>
    (p.conditions.getD []).all (·.holds r) && (p.orClauses.getD []).all (clauseHolds r)

lemma mem_allConditions_of_conditions {p : FilterPredicate} {c : Condition}
    (h : c ∈ p.conditions.getD []) : c ∈ p.allConditions := mem_append_left _ h

lemma mem_allConditions_of_clause {p : FilterPredicate} {c : Condition} {clause : OrClause}
    (hp : clause ∈ p.orClauses.getD []) (h : c ∈ clause) : c ∈ p.allConditions :=
  mem_append_right _ (mem_flatten.mpr ⟨clause, hp, h⟩)

lemma evaluatePredicate_eq (p : FilterPredicate) (r : Record) (h : p.HasOperands) :
    evaluatePredicate p r = .ok (p.holds r) := by
  simp only [evaluatePredicate, holds]
  cases p.state with
  | matchAll => rfl
  | matchNone => rfl
  | conditional =>
    have hc := evaluateConditions_eq r (p.conditions.getD [])
      fun c hc => h c (mem_allConditions_of_conditions hc)
    have ho := evaluateClauses_eq r (p.orClauses.getD [])
      fun clause hp c hc => h c (mem_allConditions_of_clause hp hc)
    dsimp only
    rw [hc, ho]
    cases (p.conditions.getD []).all (·.holds r) <;> rfl

end FilterPredicate
end ZyncBase
