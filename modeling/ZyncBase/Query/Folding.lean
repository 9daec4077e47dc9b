import ZyncBase.Query.Parser

/-! What constant folding changes: normalisation reads a negated membership in no set as true also
where the record has no scalar, and an empty clause as false although evaluation skips it. When
merging a guard into a predicate is their conjunction. -/
namespace ZyncBase

open List

def Condition.scalarOn (c : Condition) (r : Record) : Bool :=
  match r.values[c.fieldIndex]? with
  | some (.scalar _) => true
  | _ => false

lemma compareNotIn_nil (v : Value) :
    compareNotIn v (.array []) = match v with | .scalar _ => true | _ => false := by
  cases v <;> rfl

lemma Condition.holds_of_triviallyTrue {c : Condition} (h : c.isTriviallyTrue = true)
    (r : Record) : c.holds r = c.scalarOn r := by
  simp only [isTriviallyTrue, Bool.and_eq_true, decide_eq_true_eq] at h
  simp only [holds, scalarOn, h, Operator.isNullary, compareValues, compareNotIn_nil]
  cases r.values[c.fieldIndex]? with
  | none => rfl
  | some v => cases v <;> rfl

def Condition.keptFails (c : Condition) (r : Record) : Bool := !c.isTriviallyTrue && !c.holds r

def Condition.droppedFails (c : Condition) (r : Record) : Bool :=
  c.isTriviallyTrue && !c.scalarOn r

namespace FilterPredicate

/-- A nonempty clause without a constantly true condition fails. -/
def clauseKeptFails (r : Record) (clause : OrClause) : Bool :=
  !clause.isEmpty && !clauseHasTriviallyTrue clause && !clause.any (·.holds r)

def clauseDroppedFails (r : Record) (clause : OrClause) : Bool :=
  clauseHasTriviallyTrue clause && !clause.any (·.holds r)

def keptFails (p : FilterPredicate) (r : Record) : Bool :=
  (p.conditions.getD []).any (·.keptFails r) || (p.orClauses.getD []).any (clauseKeptFails r)

def droppedFails (p : FilterPredicate) (r : Record) : Bool :=
  (p.conditions.getD []).any (·.droppedFails r) ||
    (p.orClauses.getD []).any (clauseDroppedFails r)

def hasEmptyClause (p : FilterPredicate) : Bool := (p.orClauses.getD []).any List.isEmpty

/-- Something that normalisation keeps fails on the record, or both or neither of its two
misreadings occur there. -/
def FoldsSafely (p : FilterPredicate) (r : Record) : Prop :=
  p.state = .conditional → p.keptFails r = true ∨ (p.droppedFails r = true ↔ p.hasEmptyClause = true)

instance (p : FilterPredicate) (r : Record) : Decidable (p.FoldsSafely r) :=
  inferInstanceAs (Decidable (_ → _))

end FilterPredicate

/-- Elements that hold when neither of two defects is present hold together when neither defect
is present in any of them. -/
lemma all_eq_not_any {α : Type*} {f g h : α → Bool} {xs : List α}
    (hx : ∀ x ∈ xs, h x = (!f x && !g x)) : xs.all h = (!xs.any f && !xs.any g) := by
  rw [Bool.eq_iff_iff]
  simp only [all_eq_true, Bool.and_eq_true, Bool.not_eq_true', any_eq_false]
  constructor
  · intro hall
    exact ⟨fun x hm => by have := hx x hm; simp_all, fun x hm => by have := hx x hm; simp_all⟩
  · rintro ⟨hf, hg⟩ x hm
    have hfx := hf x hm
    have hgx := hg x hm
    simp_all

namespace Condition

lemma holds_eq_not_fails (c : Condition) (r : Record) : c.holds r = (!c.keptFails r && !c.droppedFails r) := by
  cases ht : c.isTriviallyTrue with
  | false => simp [keptFails, droppedFails, ht]
  | true => simp [keptFails, droppedFails, ht, holds_of_triviallyTrue ht]

lemma foldedHolds_eq_not_fails (c : Condition) (r : Record) : c.foldedHolds r = !c.keptFails r := by
  rw [foldedHolds_eq_or, keptFails, Bool.not_and, Bool.not_not, Bool.not_not]

end Condition

variable {p : FilterPredicate}

namespace FilterPredicate

lemma clauseHolds_eq_not_fails (r : Record) (clause : OrClause) :
    clauseHolds r clause = (!clauseKeptFails r clause && !clauseDroppedFails r clause) := by
  rw [clauseHolds, clauseKeptFails, clauseDroppedFails]
  cases clause with
  | nil => rfl
  | cons c cs =>
    cases clauseHasTriviallyTrue (c :: cs) <;> cases (c :: cs).any (·.holds r) <;> rfl

/-- With its conditions folded, a clause holds when it contains a constantly true condition or
a condition that holds. -/
lemma any_foldedHolds_eq (r : Record) (clause : OrClause) :
    clause.any (·.foldedHolds r) = (clauseHasTriviallyTrue clause || clause.any (·.holds r)) := by
  induction clause with
  | nil => rfl
  | cons c cs ih =>
    have ht : clauseHasTriviallyTrue (c :: cs) = (c.isTriviallyTrue || clauseHasTriviallyTrue cs) := rfl
    rw [any_cons, ih, Condition.foldedHolds_eq_or, any_cons, ht]
    ac_rfl

lemma any_foldedHolds_eq_not_fails (r : Record) (clause : OrClause) :
    clause.any (·.foldedHolds r) = (!clauseKeptFails r clause && !clause.isEmpty) := by
  rw [any_foldedHolds_eq, clauseKeptFails]
  cases clause with
  | nil => rfl
  | cons c cs =>
    cases clauseHasTriviallyTrue (c :: cs) <;> cases (c :: cs).any (·.holds r) <;> rfl

lemma holds_eq_not_fails (h : p.state = .conditional) (r : Record) :
    p.holds r = (!p.keptFails r && !p.droppedFails r) := by
  have hc : (p.conditions.getD []).all (·.holds r) = _ :=
    all_eq_not_any fun c _ => c.holds_eq_not_fails r
  have ho : (p.orClauses.getD []).all (clauseHolds r) = _ :=
    all_eq_not_any fun clause _ => clauseHolds_eq_not_fails r clause
  simp only [holds, h, hc, ho, keptFails, droppedFails, Bool.not_or]
  ac_rfl

lemma foldedHolds_eq_not_fails (h : p.state = .conditional)
    (r : Record) : p.foldedHolds r = (!p.keptFails r && !p.hasEmptyClause) := by
  have hc : (p.conditions.getD []).all (·.foldedHolds r) = !(p.conditions.getD []).any (·.keptFails r) := by
    simp only [Condition.foldedHolds_eq_not_fails, not_any_eq_all_not]
  have ho : (p.orClauses.getD []).all (fun clause => clause.any (·.foldedHolds r)) = _ :=
    all_eq_not_any fun clause _ => any_foldedHolds_eq_not_fails r clause
  rw [foldedHolds_of_conditional h, hc, ho, keptFails, hasEmptyClause, Bool.not_or, Bool.and_assoc]

lemma normalize_hasOperands (h : p.HasOperands) : p.normalize.HasOperands :=
  fun c hc => h c (mem_of_mem_normalize p c hc)

lemma normalize_holds (p : FilterPredicate) (r : Record) : p.normalize.holds r = p.foldedHolds r := by
  rw [← (normalize_normal p).foldedHolds_eq, normalize_foldedHolds]

/-- Normalisation preserves the outcome of evaluation on exactly the records on which it folds
safely. -/
theorem normalize_preserves_iff (p : FilterPredicate) (hp : p.HasOperands) (r : Record) :
    evaluatePredicate p.normalize r = evaluatePredicate p r ↔ p.FoldsSafely r := by
  rw [evaluatePredicate_eq _ r (normalize_hasOperands hp), evaluatePredicate_eq p r hp,
    Except.ok.injEq, normalize_holds]
  by_cases hs : p.state = .conditional
  · rw [holds_eq_not_fails hs, foldedHolds_eq_not_fails hs, FoldsSafely]
    simp only [hs, true_imp_iff]
    cases p.keptFails r <;> cases p.droppedFails r <;> cases p.hasEmptyClause <;> decide
  · have heq : p.foldedHolds r = p.holds r := by
      cases hp : p.state <;> simp_all [foldedHolds, holds]
    exact iff_of_true heq fun h => absurd h hs

end FilterPredicate

namespace FoldingExample

def userTable : Table where
  name := "users"
  userFields := [.plain "role" .text]
  fields_wellFormed := forall_mem_singleton.mpr (Field.plain_wellFormed (by decide))
  names_nodup := by decide

def user (role : Value) : Record where
  values := [.scalar (.docId 7), .scalar (.integer 1), .scalar (.docId 7), role,
    .scalar (.integer 5), .scalar (.integer 5)]

lemma user_conforms {role : Value} (h : role = .nil ∨ ∃ b, role = .scalar (.text b)) :
    userTable.Conforms (user role) := by
  refine .cons ?_ (.cons ?_ (.cons ?_ (.cons ?_ (.cons ?_ (.cons ?_ .nil)))))
  case refine_4 => rcases h with rfl | ⟨b, rfl⟩ <;> rfl
  all_goals rfl

def noRole : FilterPredicate where
  conditions := some [{ fieldIndex := 3, op := .notIn, value := some (.array []),
                        fieldType := .text, itemsType := none }]

def noAlternative : FilterPredicate where
  orClauses := some [[]]

lemma noRole_wellTyped : noRole.WellTyped userTable := by
  intro c hc
  change c ∈ [_] at hc
  rw [mem_singleton] at hc
  subst hc
  exact ⟨_, rfl, rfl, rfl, .arrayMembership, rfl, by simp, fun _ =>
    ⟨_, rfl, [], rfl, fun _ h => absurd h not_mem_nil, .nil⟩⟩

/-- A user without a role is in the folded filters only, or only in the ones not yet folded. -/
theorem roleless_refolded : userTable.Conforms (user .nil) ∧ noRole.WellTyped userTable ∧
    noAlternative.WellTyped userTable ∧
    evaluatePredicate noRole (user .nil) = .ok false ∧
    evaluatePredicate noRole.normalize (user .nil) = .ok true ∧
    evaluatePredicate noAlternative (user .nil) = .ok true ∧
    evaluatePredicate noAlternative.normalize (user .nil) = .ok false :=
  ⟨user_conforms (Or.inl rfl), noRole_wellTyped, fun _ h => absurd h not_mem_nil,
    rfl, rfl, rfl, rfl⟩

theorem normalize_preserves_reader : evaluatePredicate noRole.normalize (user (.scalar (.text [114]))) =
    evaluatePredicate noRole (user (.scalar (.text [114]))) :=
  (noRole.normalize_preserves_iff noRole_wellTyped.hasOperands _).mpr (by decide)

end FoldingExample

namespace FilterPredicate

@[simp] lemma appendOption_getD {α : Type*} (xs ys : Option (List α)) :
    (appendOption xs ys).getD [] = xs.getD [] ++ ys.getD [] := by
  cases xs <;> cases ys <;> simp [appendOption]

def joined (p guard : FilterPredicate) : FilterPredicate where
  conditions := appendOption p.conditions guard.conditions
  orClauses := appendOption p.orClauses guard.orClauses

lemma keptFails_joined (p guard : FilterPredicate) (r : Record) :
    (p.joined guard).keptFails r = (p.keptFails r || guard.keptFails r) := by
  simp only [keptFails, joined, appendOption_getD, any_append]
  ac_rfl

lemma hasEmptyClause_joined (p guard : FilterPredicate) :
    (p.joined guard).hasEmptyClause = (p.hasEmptyClause || guard.hasEmptyClause) := by
  simp only [hasEmptyClause, joined, appendOption_getD, any_append]

/-- Merging meets neither of the two misreadings of normalisation on the record, or their effects
cancel; and nothing that a predicate without restrictions still lists makes a difference. -/
def MergesSafely (p guard : FilterPredicate) (r : Record) : Prop :=
  guard.state = .conditional →
    match p.state with
    | .matchNone => True
    | .conditional =>
      (p.keptFails r || guard.keptFails r) = true ∨
        (p.droppedFails r || guard.droppedFails r) = (p.hasEmptyClause || guard.hasEmptyClause)
    | .matchAll =>
      guard.keptFails r = true ∨
        guard.droppedFails r = (p.keptFails r || p.hasEmptyClause || guard.hasEmptyClause)

lemma mergeInPlace_holds_iff (p guard : FilterPredicate) (r : Record) :
    (p.mergeInPlace guard).holds r = (p.holds r && guard.holds r) ↔ p.MergesSafely guard r := by
  unfold mergeInPlace MergesSafely
  cases hg : guard.state with
  | matchAll => simp [hg, holds]
  | matchNone =>
    cases hp : p.state <;> simp [holds, hg, hp]
  | conditional =>
    cases hp : p.state with
    | matchNone => simp [holds, hp]
    | conditional =>
      have hj : (p.joined guard).state = .conditional := rfl
      simp only [reduceCtorEq, or_self, if_false, true_imp_iff]
      change ((p.joined guard).normalize).holds r = _ ↔ _
      rw [normalize_holds, foldedHolds_eq_not_fails hj, keptFails_joined, hasEmptyClause_joined,
        holds_eq_not_fails hp, holds_eq_not_fails hg]
      cases p.keptFails r <;> cases guard.keptFails r <;> cases p.droppedFails r <;>
        cases guard.droppedFails r <;> cases p.hasEmptyClause <;>
        cases guard.hasEmptyClause <;> decide
    | matchAll =>
      have hj : (p.joined guard).state = .conditional := rfl
      have hph : p.holds r = true := by simp [holds, hp]
      simp only [reduceCtorEq, or_self, if_false, true_imp_iff]
      change ((p.joined guard).normalize).holds r = _ ↔ _
      rw [normalize_holds, foldedHolds_eq_not_fails hj, keptFails_joined, hasEmptyClause_joined,
        hph, holds_eq_not_fails hg]
      cases p.keptFails r <;> cases guard.keptFails r <;> cases guard.droppedFails r <;>
        cases p.hasEmptyClause <;> cases guard.hasEmptyClause <;> decide

lemma Normal.droppedFails_eq (h : p.Normal) (r : Record) : p.droppedFails r = false := by
  simp only [droppedFails, Bool.or_eq_false_iff, any_eq_false]
  refine ⟨fun c hc => ?_, fun clause hm => ?_⟩
  · simp [Condition.droppedFails, (h.conditions c (mem_allConditions_of_conditions hc)).1]
  · have ht : clauseHasTriviallyTrue clause = false :=
      any_eq_false.mpr fun c hc => by
        simp [(h.conditions c (mem_allConditions_of_clause hm hc)).1]
    simp [clauseDroppedFails, ht]

lemma Normal.hasEmptyClause_eq (h : p.Normal) : p.hasEmptyClause = false := by
  rw [hasEmptyClause, any_eq_false]
  intro clause hm he
  rw [List.isEmpty_iff] at he
  exact h.clauses (he ▸ hm)

lemma Normal.mergesSafely {guard : FilterPredicate} (hp : p.Normal) (hg : guard.Normal)
    (r : Record) : p.MergesSafely guard r := by
  intro _
  rw [hp.droppedFails_eq, hg.droppedFails_eq, hp.hasEmptyClause_eq, hg.hasEmptyClause_eq]
  cases hs : p.state with
  | matchNone => trivial
  | conditional => exact .inr rfl
  | matchAll =>
    have hclear := hp.settled (by rw [hs]; simp)
    simp only [hasClauses, Bool.or_eq_false_iff, decide_eq_false_iff_not, Nat.not_lt,
      Nat.le_zero, length_eq_zero_iff] at hclear
    refine .inr ?_
    simp [keptFails, hclear.1, hclear.2]

end FilterPredicate
end ZyncBase
