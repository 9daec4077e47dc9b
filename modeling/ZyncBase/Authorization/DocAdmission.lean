import ZyncBase.Authorization.DocPredicate
import ZyncBase.Query.Normalize

/-! Which rows a document predicate admits, compared with the truth of its condition on the row:
lowering turns the open terms of a disjunction into a conjunction. -/
namespace ZyncBase

open AndOr.Formula FilterPredicate List Outcome

variable {c : AuthCondition} {cs : List AuthCondition} {p : FilterPredicate}

namespace DocPredicate

/-- A comparison on the row for the document, in memory otherwise. -/
def leafHolds (ctx : EvalContext) (table : Table) (r : Record) (comp : Comparison) : Bool :=
  if comp.lhs.scope = .doc then
    comparisonHolds comp ((table.fieldIndex comp.lhs.field).bind (r.values[·]?)) ctx
  else evaluateComparison comp ctx = .allow

/-- The truth of a condition on a row. -/
def conditionHolds (ctx : EvalContext) (table : Table) (r : Record) : AuthCondition → Bool :=
  AndOr.Formula.eval (leafHolds ctx table r)

/-- A comparison on the document against the empty set, which lowering takes for true. -/
def isEmptyNotIn (ctx : EvalContext) (comp : Comparison) : Bool :=
  comp.lhs.scope = .doc && comp.op = .notIn && comp.rhs.bind (resolveOperand · ctx) = some (.array [])

def foldedLeafHolds (ctx : EvalContext) (table : Table) (r : Record) (comp : Comparison) : Bool :=
  isEmptyNotIn ctx comp || leafHolds ctx table r comp

/-- The truth of a condition where every `notIn` over the empty set is true. -/
def foldedHolds (ctx : EvalContext) (table : Table) (r : Record) : AuthCondition → Bool :=
  AndOr.Formula.eval (foldedLeafHolds ctx table r)

mutual

/-- A condition that holds on the row although some disjunction in it, left open in memory, has an
open term that does not hold. -/
def misread (ctx : EvalContext) (table : Table) (r : Record) : AuthCondition → Bool
  | .boolean _ => false
  | .comparison _ => false
  | .logicalAnd conds =>
    conds.all (foldedHolds ctx table r) && misreadAny ctx table r conds
  | .logicalOr conds =>
    evaluateAuth ctx (.logicalOr conds) = .needsDocPredicate &&
      conds.any (foldedHolds ctx table r) && misreadTerm ctx table r conds

def misreadAny (ctx : EvalContext) (table : Table) (r : Record) : List AuthCondition → Bool
  | [] => false
  | c :: cs => misread ctx table r c || misreadAny ctx table r cs

/-- Some open term fails or is itself misread. -/
def misreadTerm (ctx : EvalContext) (table : Table) (r : Record) : List AuthCondition → Bool
  | [] => false
  | c :: cs =>
    (evaluateAuth ctx c = .needsDocPredicate &&
      (!foldedHolds ctx table r c || misread ctx table r c)) ||
      misreadTerm ctx table r cs

end

/-- Every operand of a comparison on the document has a value. -/
def OperandsResolve (ctx : EvalContext) (c : AuthCondition) : Prop :=
  c.Forall fun comp => comp.lhs.scope = .doc → ∀ rhs, comp.rhs = some rhs → (resolveOperand rhs ctx).isSome

mutual

/-- Lowering reaches a comparison on the document whose operand has no value. -/
def missesOperand (ctx : EvalContext) : AuthCondition → Bool
  | .boolean _ => false
  | .comparison comp =>
    comp.lhs.scope = .doc && comp.rhs.any fun rhs => (resolveOperand rhs ctx).isNone
  | .logicalAnd conds => missesOperandBefore ctx .deny conds
  | .logicalOr conds => missesOperandBefore ctx .allow conds

/-- The terms after one that settles the list are not reached. -/
def missesOperandBefore (ctx : EvalContext) (shortCircuit : EvalResult) : List AuthCondition → Bool
  | [] => false
  | c :: cs => missesOperand ctx c ||
      (evaluateAuth ctx c ≠ shortCircuit && missesOperandBefore ctx shortCircuit cs)

end

lemma missesOperandBefore_cons {ctx : EvalContext} {s : EvalResult}
    : missesOperandBefore ctx s (c :: cs) = false ↔ missesOperand ctx c = false ∧
        (evaluateAuth ctx c ≠ s → missesOperandBefore ctx s cs = false) := by
  rw [missesOperandBefore]
  by_cases h : evaluateAuth ctx c = s
  · simp [h]
  · simp [h]

lemma missesOperandBefore_eq_false {ctx : EvalContext} {s : EvalResult}
    (h : ∀ c ∈ cs, missesOperand ctx c = false) : missesOperandBefore ctx s cs = false := by
  induction cs with
  | nil => rfl
  | cons c cs ih =>
    obtain ⟨hc, hcs⟩ := forall_mem_cons.mp h
    exact missesOperandBefore_cons.mpr ⟨hc, fun _ => ih hcs⟩

lemma missesOperand_eq_false {ctx : EvalContext} (h : OperandsResolve ctx c) : missesOperand ctx c = false := by
  induction c using inductChildren with
  | hb b => rfl
  | hc comp =>
    rw [OperandsResolve, forall_comparison] at h
    rw [missesOperand, Bool.and_eq_false_iff]
    by_cases hs : comp.lhs.scope = .doc
    · right
      cases hrhs : comp.rhs with
      | none => rfl
      | some rhs =>
        obtain ⟨v, hv⟩ := Option.isSome_iff_exists.mp (h hs rhs hrhs)
        simp [hv]
    · left
      exact decide_eq_false hs
  | ha cs ih =>
    rw [OperandsResolve, forall_logicalAnd] at h
    exact missesOperandBefore_eq_false fun c hc => ih c hc (h c hc)
  | ho cs ih =>
    rw [OperandsResolve, forall_logicalOr] at h
    exact missesOperandBefore_eq_false fun c hc => ih c hc (h c hc)

lemma misreadAny_eq (ctx : EvalContext) (table : Table) (r : Record) (cs : List AuthCondition) :
    misreadAny ctx table r cs = cs.any (misread ctx table r) := by
  induction cs with
  | nil => rfl
  | cons c cs ih => rw [misreadAny, ih, any_cons]

def openTermsHold (ctx : EvalContext) (table : Table) (r : Record) (cs : List AuthCondition) :
    Bool :=
  cs.all fun c => !(evaluateAuth ctx c = .needsDocPredicate) ||
    (foldedHolds ctx table r c && !misread ctx table r c)

lemma openTermsHold_cons_settled {ctx : EvalContext}
    (h : evaluateAuth ctx c ≠ .needsDocPredicate) (table : Table) (r : Record)
    (cs : List AuthCondition) : openTermsHold ctx table r (c :: cs) = openTermsHold ctx table r cs := by
  simp [openTermsHold, h]

lemma openTermsHold_cons_open {ctx : EvalContext}
    (h : evaluateAuth ctx c = .needsDocPredicate) (table : Table) (r : Record)
    (cs : List AuthCondition) :
    openTermsHold ctx table r (c :: cs) =
      ((foldedHolds ctx table r c && !misread ctx table r c) && openTermsHold ctx table r cs) := by
  simp [openTermsHold, h]

lemma misreadTerm_eq (ctx : EvalContext) (table : Table) (r : Record) (cs : List AuthCondition) :
    misreadTerm ctx table r cs = !openTermsHold ctx table r cs := by
  induction cs with
  | nil => rfl
  | cons c cs ih =>
    rw [misreadTerm, ih, openTermsHold, openTermsHold, all_cons]
    simp only [Bool.not_and, Bool.not_or, Bool.not_not]

/-- Does the outcome of `buildDocPredicate` admit a row? `none` for any other failure. -/
def admits (outcome : DocResult (Option FilterPredicate)) (r : Record) : Option Bool :=
  match outcome with
  | .ok none => some true
  | .ok (some p) => (evaluatePredicate p r).toOption
  | .error .accessDenied => some false
  | .error _ => none

section Folding

variable (ctx : EvalContext) (table : Table) (r : Record)

lemma evaluateAuth_logicalAnd_eq_allow (cs : List AuthCondition) :
    evaluateAuth ctx (.logicalAnd cs) = .allow ↔ ∀ c ∈ cs, evaluateAuth ctx c = .allow := by
  rw [evaluateAuth, evaluateLogical_eq_default (by decide) (by decide) fun r => by cases r <;> simp]
  simp

lemma evaluateAuth_logicalAnd_eq_deny (cs : List AuthCondition) :
    evaluateAuth ctx (.logicalAnd cs) = .deny ↔ ∃ c ∈ cs, evaluateAuth ctx c = .deny := by
  rw [evaluateAuth, evaluateLogical_eq_shortCircuit (by decide) (by decide)]

lemma evaluateAuth_logicalOr_eq_allow (cs : List AuthCondition) :
    evaluateAuth ctx (.logicalOr cs) = .allow ↔ ∃ c ∈ cs, evaluateAuth ctx c = .allow := by
  rw [evaluateAuth, evaluateLogical_eq_shortCircuit (by decide) (by decide)]

lemma evaluateAuth_logicalOr_eq_deny (cs : List AuthCondition) :
    evaluateAuth ctx (.logicalOr cs) = .deny ↔ ∀ c ∈ cs, evaluateAuth ctx c = .deny := by
  rw [evaluateAuth, evaluateLogical_eq_default (by decide) (by decide) fun r => by cases r <;> simp]
  simp

lemma foldedLeafHolds_of_settled (comp : Comparison) (h : evaluateComparison comp ctx ≠ .needsDocPredicate) :
    foldedLeafHolds ctx table r comp = decide (evaluateComparison comp ctx = .allow) := by
  have hs : comp.lhs.scope ≠ .doc := by
    intro hs
    exact h (by rw [evaluateComparison, if_pos hs])
  simp [foldedLeafHolds, isEmptyNotIn, leafHolds, hs]

lemma settled_in_memory (c : AuthCondition) :
    (evaluateAuth ctx c = .allow →
      foldedHolds ctx table r c = true ∧ misread ctx table r c = false) ∧
    (evaluateAuth ctx c = .deny → foldedHolds ctx table r c = false) := by
  induction c using inductChildren with
  | hb b => cases b <;> simp [evaluateAuth, EvalResult.ofBool, foldedHolds, misread]
  | hc comp =>
    rw [evaluateAuth, foldedHolds, eval_comparison, misread]
    constructor
    · intro h
      rw [foldedLeafHolds_of_settled ctx table r comp (by simp [h])]
      simp [h]
    · intro h
      rw [foldedLeafHolds_of_settled ctx table r comp (by simp [h])]
      simp [h]
  | ha cs ih =>
    rw [evaluateAuth_logicalAnd_eq_allow, evaluateAuth_logicalAnd_eq_deny]
    constructor
    · intro h
      have hm : misreadAny ctx table r cs = false := by
        rw [misreadAny_eq, any_eq_false]
        exact fun c hc => by simp [((ih c hc).1 (h c hc)).2]
      refine ⟨?_, by rw [misread, hm, Bool.and_false]⟩
      exact (eval_logicalAnd _ _).mpr fun c hc => ((ih c hc).1 (h c hc)).1
    · rintro ⟨c, hc, hd⟩
      refine Bool.eq_false_iff.mpr fun h => ?_
      have := (eval_logicalAnd _ _).mp h c hc
      rw [show AndOr.Formula.eval _ c = false from (ih c hc).2 hd] at this
      cases this
  | ho cs ih =>
    constructor
    · intro h
      refine ⟨?_, by simp [misread, h]⟩
      obtain ⟨c, hc, ha⟩ := (evaluateAuth_logicalOr_eq_allow ctx cs).mp h
      exact (eval_logicalOr _ _).mpr ⟨c, hc, ((ih c hc).1 ha).1⟩
    · intro h
      rw [evaluateAuth_logicalOr_eq_deny] at h
      refine Bool.eq_false_iff.mpr fun hf => ?_
      obtain ⟨c, hc, ht⟩ := (eval_logicalOr _ _).mp hf
      rw [show AndOr.Formula.eval _ c = false from (ih c hc).2 (h c hc)] at ht
      cases ht

lemma openTermsHold_logicalAnd (cs : List AuthCondition) (h : evaluateAuth ctx (.logicalAnd cs) ≠ .deny) :
    openTermsHold ctx table r cs =
      (foldedHolds ctx table r (.logicalAnd cs) && !misread ctx table r (.logicalAnd cs)) := by
  have hd : ∀ c ∈ cs, evaluateAuth ctx c ≠ .deny := fun c hc hd =>
    h ((evaluateAuth_logicalAnd_eq_deny ctx cs).mpr ⟨c, hc, hd⟩)
  have hf : foldedHolds ctx table r (.logicalAnd cs) = cs.all (foldedHolds ctx table r) := by
    rw [foldedHolds, AndOr.Formula.eval, evalAll_eq]
  have hterm : openTermsHold ctx table r cs =
      cs.all fun c => foldedHolds ctx table r c && !misread ctx table r c := by
    refine all_congr_of_mem fun c hc => ?_
    cases he : evaluateAuth ctx c with
    | allow => simp [(settled_in_memory ctx table r c).1 he]
    | deny => exact absurd he (hd c hc)
    | needsDocPredicate => simp
  rw [hterm, hf, misread, misreadAny_eq, Bool.eq_iff_iff]
  simp only [all_eq_true, Bool.and_eq_true, Bool.not_eq_true', Bool.and_eq_false_iff, any_eq_false]
  constructor
  · intro h
    exact ⟨fun c hc => (h c hc).1, .inr fun c hc => by simp [(h c hc).2]⟩
  · rintro ⟨hall, hn | hm⟩ c hc
    · rw [all_eq_true.mpr hall] at hn
      cases hn
    · exact ⟨hall c hc, by simpa using hm c hc⟩

lemma openTermsHold_logicalOr (cs : List AuthCondition)
    (h : evaluateAuth ctx (.logicalOr cs) = .needsDocPredicate) :
    openTermsHold ctx table r cs =
      (foldedHolds ctx table r (.logicalOr cs) && !misread ctx table r (.logicalOr cs)) := by
  have hf : foldedHolds ctx table r (.logicalOr cs) = cs.any (foldedHolds ctx table r) := by
    rw [foldedHolds, AndOr.Formula.eval, evalAny_eq]
  have hopen : ∃ c ∈ cs, evaluateAuth ctx c = .needsDocPredicate := by
    by_contra hno
    have hdeny : evaluateAuth ctx (.logicalOr cs) = .deny := by
      refine (evaluateAuth_logicalOr_eq_deny ctx cs).mpr fun c hc => ?_
      cases he : evaluateAuth ctx c with
      | allow =>
        rw [(evaluateAuth_logicalOr_eq_allow ctx cs).mpr ⟨c, hc, he⟩] at h
        cases h
      | deny => rfl
      | needsDocPredicate => exact absurd ⟨c, hc, he⟩ hno
    rw [hdeny] at h
    cases h
  have hany : openTermsHold ctx table r cs → cs.any (foldedHolds ctx table r) := by
    intro ht
    obtain ⟨c, hc, he⟩ := hopen
    have := all_eq_true.mp ht c hc
    simp only [he, decide_true, Bool.not_true, Bool.false_or, Bool.and_eq_true] at this
    exact any_eq_true.mpr ⟨c, hc, this.1⟩
  rw [hf, misread, misreadTerm_eq, h]
  cases ht : openTermsHold ctx table r cs with
  | false => cases cs.any (foldedHolds ctx table r) <;> rfl
  | true => simp [hany ht]

end Folding

section Lowering

/-- A predicate collected by lowering: conditional, not empty, with all operands present. -/
structure Collected (p : FilterPredicate) : Prop where
  conditional : p.state = .conditional
  nonempty : p.hasClauses = true
  operands : p.HasOperands

namespace PredicateBuilder

lemma toOwnedPredicate_conditions (b : PredicateBuilder) :
    b.toOwnedPredicate.conditions.getD [] = b.conditions := by
  cases h : b.conditions <;> simp [toOwnedPredicate, h]

lemma toOwnedPredicate_orClauses (b : PredicateBuilder) :
    b.toOwnedPredicate.orClauses.getD [] = b.orClauses := by
  cases h : b.orClauses <;> simp [toOwnedPredicate, h]

lemma toOwnedPredicate_foldedHolds (b : PredicateBuilder) (r : Record) : b.toOwnedPredicate.foldedHolds r =
    (b.conditions.all (·.foldedHolds r) && b.orClauses.all fun clause => clause.any (·.foldedHolds r)) := by
  rw [foldedHolds_of_conditional rfl, toOwnedPredicate_conditions, toOwnedPredicate_orClauses]

lemma appendAndFilterMove_foldedHolds (b : PredicateBuilder) (hp : p.state = .conditional) (r : Record) :
    (b.appendAndFilterMove p).toOwnedPredicate.foldedHolds r =
      (b.toOwnedPredicate.foldedHolds r && p.foldedHolds r) := by
  rw [foldedHolds_of_conditional hp]
  simp only [toOwnedPredicate_foldedHolds, appendAndFilterMove, moveOrClauses, all_append]
  ac_rfl

lemma appendOrFilterMove_foldedHolds (b : PredicateBuilder) (hp : p.state = .conditional) (r : Record) :
    (b.appendOrFilterMove p).toOwnedPredicate.foldedHolds r =
      (b.toOwnedPredicate.foldedHolds r && p.foldedHolds r) := by
  rw [foldedHolds_of_conditional hp]
  simp only [toOwnedPredicate_foldedHolds, appendOrFilterMove, moveOrClauses, all_append,
    all_map, Function.comp_def, any_cons, any_nil, Bool.or_false]
  ac_rfl

lemma toOwnedPredicate_allConditions (b : PredicateBuilder) :
    b.toOwnedPredicate.allConditions = b.conditions ++ b.orClauses.flatten := by
  rw [allConditions, toOwnedPredicate_conditions, toOwnedPredicate_orClauses]

lemma toOwnedPredicate_hasClauses (b : PredicateBuilder) : b.toOwnedPredicate.hasClauses = !b.isEmpty := by
  simp only [hasClauses, toOwnedPredicate_conditions, toOwnedPredicate_orClauses, isEmpty]
  cases b.conditions <;> cases b.orClauses <;> simp

lemma collected_append {b : PredicateBuilder} (hb : b.toOwnedPredicate.HasOperands) (hp : Collected p) :
    Collected (b.appendAndFilterMove p).toOwnedPredicate ∧
      Collected (b.appendOrFilterMove p).toOwnedPredicate := by
  have hne := hp.nonempty
  simp only [hasClauses, Bool.or_eq_true, decide_eq_true_eq, length_pos_iff] at hne
  have hmem {c : Condition} (hc : c ∈ b.conditions ∨ c ∈ b.orClauses.flatten ∨
      c ∈ p.conditions.getD [] ∨ c ∈ (p.orClauses.getD []).flatten) : c.HasOperand := by
    rcases hc with hc | hc | hc | hc
    · exact hb c (by rw [toOwnedPredicate_allConditions]; exact mem_append_left _ hc)
    · exact hb c (by rw [toOwnedPredicate_allConditions]; exact mem_append_right _ hc)
    · exact hp.operands c (mem_append_left _ hc)
    · exact hp.operands c (mem_append_right _ hc)
  constructor
  · refine ⟨rfl, ?_, ?_⟩
    · rw [toOwnedPredicate_hasClauses]
      simp only [appendAndFilterMove, moveOrClauses, isEmpty, length_append]
      cases hne with
      | inl h => simp [h]
      | inr h => simp [h]
    · intro c hc
      rw [toOwnedPredicate_allConditions] at hc
      simp only [appendAndFilterMove, moveOrClauses, flatten_append, mem_append] at hc
      exact hmem (by tauto)
  · refine ⟨rfl, ?_, ?_⟩
    · rw [toOwnedPredicate_hasClauses]
      simp only [appendOrFilterMove, moveOrClauses, isEmpty, length_append, length_map]
      cases hne with
      | inl h => simp [h]
      | inr h => simp [h]
    · intro c hc
      rw [toOwnedPredicate_allConditions] at hc
      simp only [appendOrFilterMove, moveOrClauses, flatten_append, mem_append,
        ← flatMap_def, flatMap_singleton'] at hc
      exact hmem (by tauto)

end PredicateBuilder

open PredicateBuilder

variable (ctx : EvalContext) (table : Table)

/-- Lowering agrees with evaluation in memory, and a condition left open becomes a predicate that
is true on the rows that `term` selects. -/
def Lowers (verdict : EvalResult) (term : Record → Bool) (res : LowerResult) : Prop :=
  match verdict with
  | .allow => res = .allow
  | .deny => res = .deny
  | .needsDocPredicate =>
    ∃ p, res = .filter p ∧ Collected p ∧ ∀ r, p.foldedHolds r = term r

lemma Lowers.congr {v : EvalResult} {term term' : Record → Bool} {res : LowerResult}
    (h : Lowers v term res) (ht : ∀ r, term r = term' r) : Lowers v term' res := funext ht ▸ h

/-- A condition lowers to what evaluation in memory leaves open of it. -/
def ConditionLowers (c : AuthCondition) : Prop :=
  ∃ res, lowerCondition ctx table c = .ok res ∧ Lowers (evaluateAuth ctx c)
      (fun r => foldedHolds ctx table r c && !misread ctx table r c) res

lemma lowerAnd_lowers (cs : List AuthCondition)
    (hcs : ∀ c ∈ cs, missesOperand ctx c = false → ConditionLowers ctx table c)
    (hmiss : missesOperandBefore ctx .deny cs = false)
    (b : PredicateBuilder) (hb : b.toOwnedPredicate.HasOperands) :
    ∃ res, lowerAnd ctx table b cs = .ok res ∧ Lowers (evaluateLogical ctx .deny .allow (!b.isEmpty) cs)
        (fun r => b.toOwnedPredicate.foldedHolds r && openTermsHold ctx table r cs) res := by
  induction cs generalizing b with
  | nil =>
    refine ⟨_, rfl, ?_⟩
    rw [evaluateLogical]
    cases he : b.isEmpty with
    | true => simp [Lowers]
    | false =>
      have hne := b.toOwnedPredicate_hasClauses
      rw [he] at hne
      exact ⟨_, rfl, ⟨rfl, hne, hb⟩, fun r => by simp [openTermsHold]⟩
  | cons c cs ih =>
    obtain ⟨hc, hmiss⟩ := missesOperandBefore_cons.mp hmiss
    obtain ⟨res, hres, hl⟩ := hcs c mem_cons_self hc
    have ih := ih fun d hd => hcs d (mem_cons_of_mem _ hd)
    rw [lowerAnd, hres, ok_bind, evaluateLogical]
    cases he : evaluateAuth ctx c with
    | allow =>
      rw [he] at hl hmiss
      have ih := ih (hmiss (by decide))
      cases hl
      simpa [openTermsHold_cons_settled, he] using ih b hb
    | deny =>
      rw [he] at hl
      cases hl
      exact ⟨_, rfl, by simp [Lowers]⟩
    | needsDocPredicate =>
      rw [he] at hl
      obtain ⟨p, rfl, hp, hh⟩ := hl
      have hc := (collected_append hb hp).1
      obtain ⟨out, hout, hlow⟩ := ih (hmiss (by simp [he])) _ hc.operands
      have hne := hc.nonempty
      rw [toOwnedPredicate_hasClauses] at hne
      rw [hne] at hlow
      refine ⟨out, hout, ?_⟩
      simp only [reduceCtorEq, if_false, decide_true, Bool.or_true]
      refine hlow.congr fun r => ?_
      rw [appendAndFilterMove_foldedHolds b hp.conditional, hh,
        openTermsHold_cons_open he, Bool.and_assoc]

/-- What the two accumulators of `lowerOr` hold so far. -/
def collectedOr (firstFilter : Option FilterPredicate) (orBuilder : Option PredicateBuilder) :
    Option FilterPredicate :=
  match orBuilder with
  | some b => some b.toOwnedPredicate
  | none => firstFilter

/-- One more open term of a disjunction. -/
def addOrTerm (firstFilter : Option FilterPredicate) (orBuilder : Option PredicateBuilder)
    (p : FilterPredicate) : Option FilterPredicate × Option PredicateBuilder :=
  match orBuilder, firstFilter with
  | some builder, _ => (firstFilter, some (builder.appendOrFilterMove p))
  | none, some existing =>
    (none, some ((appendOrFilterMove {} existing).appendOrFilterMove p))
  | none, none => (some p, none)

lemma addOrTerm_collected {first : Option FilterPredicate} {builder : Option PredicateBuilder}
    (hq : ∀ q, collectedOr first builder = some q → Collected q)
    (hp : Collected p) :
    ∃ q, collectedOr (addOrTerm first builder p).1 (addOrTerm first builder p).2 = some q ∧
      Collected q ∧ ∀ r, q.foldedHolds r =
        ((collectedOr first builder).all (·.foldedHolds r) && p.foldedHolds r) := by
  cases builder with
  | some b =>
    exact ⟨_, rfl, (collected_append (hq _ rfl).operands hp).2,
      appendOrFilterMove_foldedHolds b hp.conditional⟩
  | none =>
    cases first with
    | none => exact ⟨p, rfl, hp, fun r => by simp [collectedOr]⟩
    | some existing =>
      have hex : Collected existing := hq _ rfl
      have hempty : (toOwnedPredicate {}).HasOperands := by
        simp [FilterPredicate.HasOperands, toOwnedPredicate_allConditions]
      have hone := (collected_append hempty hex).2
      refine ⟨_, rfl, (collected_append hone.operands hp).2, fun r => ?_⟩
      rw [appendOrFilterMove_foldedHolds _ hp.conditional,
        appendOrFilterMove_foldedHolds _ hex.conditional,
        toOwnedPredicate_foldedHolds]
      simp [collectedOr]

lemma lowerOr_filter (h : lowerCondition ctx table c = .ok (.filter p)) (first : Option FilterPredicate)
    (builder : Option PredicateBuilder) (cs : List AuthCondition) :
    lowerOr ctx table first builder (c :: cs) =
      lowerOr ctx table (addOrTerm first builder p).1 (addOrTerm first builder p).2 cs := by
  rw [lowerOr, h, ok_bind]
  cases builder with
  | some b => rfl
  | none => cases first <;> rfl

lemma lowerOr_lowers (cs : List AuthCondition)
    (hcs : ∀ c ∈ cs, missesOperand ctx c = false → ConditionLowers ctx table c)
    (hmiss : missesOperandBefore ctx .allow cs = false)
    (first : Option FilterPredicate) (builder : Option PredicateBuilder)
    (hq : ∀ q, collectedOr first builder = some q → Collected q) :
    ∃ res, lowerOr ctx table first builder cs = .ok res ∧
      Lowers (evaluateLogical ctx .allow .deny (collectedOr first builder).isSome cs)
        (fun r => (collectedOr first builder).all (·.foldedHolds r) && openTermsHold ctx table r cs) res := by
  induction cs generalizing first builder with
  | nil =>
    rw [evaluateLogical]
    cases builder with
    | some b =>
      have hb := hq _ rfl
      have hne := hb.nonempty
      rw [toOwnedPredicate_hasClauses, Bool.not_eq_true'] at hne
      exact ⟨_, by rw [lowerOr], by simpa [collectedOr, Lowers, hne, openTermsHold] using hb⟩
    | none =>
      cases first with
      | some p =>
        exact ⟨_, by rw [lowerOr], by simpa [collectedOr, Lowers, openTermsHold] using hq p rfl⟩
      | none => exact ⟨_, by rw [lowerOr], by simp [collectedOr, Lowers]⟩
  | cons c cs ih =>
    obtain ⟨hc, hmiss⟩ := missesOperandBefore_cons.mp hmiss
    obtain ⟨res, hres, hl⟩ := hcs c mem_cons_self hc
    have ih := ih fun d hd => hcs d (mem_cons_of_mem _ hd)
    rw [evaluateLogical]
    cases he : evaluateAuth ctx c with
    | allow =>
      rw [he] at hl
      cases hl
      exact ⟨_, by rw [lowerOr, hres]; rfl, by simp [Lowers]⟩
    | deny =>
      rw [he] at hl hmiss
      have ih := ih (hmiss (by decide))
      cases hl
      rw [lowerOr, hres, ok_bind]
      simpa [openTermsHold_cons_settled, he] using ih first builder hq
    | needsDocPredicate =>
      rw [he] at hl
      obtain ⟨p, rfl, hp, hh⟩ := hl
      obtain ⟨q, hadd, hcol, hval⟩ := addOrTerm_collected hq hp
      obtain ⟨out, hout, hlow⟩ := ih (hmiss (by simp [he])) _ _ (by
        rw [hadd]
        rintro _ ⟨⟩
        exact hcol)
      rw [lowerOr_filter ctx table hres]
      refine ⟨out, hout, ?_⟩
      rw [hadd] at hlow
      simp only [reduceCtorEq, if_false, decide_true, Bool.or_true]
      refine hlow.congr fun r => ?_
      rw [Option.all_some, hval, hh, openTermsHold_cons_open he, Bool.and_assoc]

/-- What validation guarantees of a comparison on the document. -/
structure ValidComparison (comp : Comparison) : Prop where
  field : ∃ i f, table.fieldIndex comp.lhs.field = some i ∧ table.fields[i]? = some f
  operand : comp.op.isNullary = false → comp.rhs.isSome

lemma validateDocComparison_valid {comp : Comparison}
    (h : validateDocComparison comp table = .ok ()) : ValidComparison table comp := by
  obtain ⟨i, hi, h⟩ := bind_eq_ok.mp h
  obtain ⟨f, hf, h⟩ := bind_eq_ok.mp h
  obtain ⟨shape, -, h⟩ := bind_eq_ok.mp h
  refine ⟨⟨i, f, orError_eq_ok.mp hi, orError_eq_ok.mp hf⟩, fun hn => ?_⟩
  rw [hn] at h
  cases hr : comp.rhs with
  | some rhs => rfl
  | none =>
    rw [hr] at h
    cases h

lemma validateAndShape_ok {out s : Shape} (h : validateAndShape table out cs = .ok s) :
    ∀ c ∈ cs, ∃ child, validateShape table c = .ok child := by
  induction cs generalizing out with
  | nil => simp
  | cons c cs ih =>
    rw [validateAndShape] at h
    obtain ⟨child, hc, h⟩ := bind_eq_ok.mp h
    exact forall_mem_cons.mpr ⟨⟨child, hc⟩, ih h⟩

lemma validateOrShape_ok {first : Option Shape} {terms : ℕ}
    {s : Shape} (h : validateOrShape table first terms cs = .ok s) :
    ∀ c ∈ cs, ∃ child, validateShape table c = .ok child := by
  induction cs generalizing first terms with
  | nil => simp
  | cons c cs ih =>
    rw [validateOrShape] at h
    obtain ⟨child, hc, h⟩ := bind_eq_ok.mp h
    refine forall_mem_cons.mpr ⟨⟨child, hc⟩, ?_⟩
    split_ifs at h
    · exact ih h
    · exact ih h
    · obtain ⟨before, -, h⟩ := bind_eq_ok.mp h
      obtain ⟨count, -, h⟩ := bind_eq_ok.mp h
      exact ih h

/-- What the check of a comparison guarantees holds of every comparison on the document in a
condition of some shape. -/
lemma validateShape_forall {P : Comparison → Prop}
    (hP : ∀ comp, validateDocComparison comp table = .ok () → P comp) (c : AuthCondition)
    {s : Shape} (h : validateShape table c = .ok s) :
    c.Forall fun comp => comp.lhs.scope = .doc → P comp := by
  induction c using inductChildren generalizing s with
  | hb b => exact forall_boolean _ b
  | hc comp =>
    rw [forall_comparison]
    intro hs
    rw [validateShape, if_neg (not_not.mpr hs)] at h
    obtain ⟨⟨⟩, hv, -⟩ := bind_eq_ok.mp h
    exact hP comp hv
  | ha cs ih =>
    rw [forall_logicalAnd]
    intro c hc
    rw [validateShape] at h
    obtain ⟨child, hchild⟩ := validateAndShape_ok table h c hc
    exact ih c hc hchild
  | ho cs ih =>
    rw [forall_logicalOr]
    intro c hc
    rw [validateShape] at h
    obtain ⟨child, hchild⟩ := validateOrShape_ok table h c hc
    exact ih c hc hchild

lemma validateShape_valid (c : AuthCondition) {s : Shape} (h : validateShape table c = .ok s) :
    c.Forall fun comp => comp.lhs.scope = .doc → ValidComparison table comp :=
  validateShape_forall table (fun _ => validateDocComparison_valid table) c h

variable {ctx table}

lemma resolveRhs_eq {rhs : Option Operand} {value : Option Value}
    (h : resolveRhs ctx rhs = .ok value) : value = rhs.bind (resolveOperand · ctx) := by
  cases rhs with
  | none =>
    cases h
    rfl
  | some rhs =>
    obtain ⟨w, hw, rfl⟩ := map_eq_ok.mp h
    exact (orError_eq_ok.mp hw).symm

lemma foldedHolds_comparisonToQueryCondition {comp : Comparison} {c : Condition}
    (hs : comp.lhs.scope = .doc) (h : comparisonToQueryCondition ctx table comp = .ok c)
    (r : Record) : c.foldedHolds r = foldedLeafHolds ctx table r comp := by
  obtain ⟨i, hi, h⟩ := bind_eq_ok.mp h
  obtain ⟨f, -, h⟩ := bind_eq_ok.mp h
  obtain ⟨value, hv, h⟩ := bind_eq_ok.mp h
  cases h
  rw [orError_eq_ok] at hi
  have hvalue := resolveRhs_eq hv
  subst hvalue
  rw [Condition.foldedHolds_eq_or]
  simp only [foldedLeafHolds, isEmptyNotIn, leafHolds, hs, hi, Condition.isTriviallyTrue,
    Condition.holds, comparisonHolds, if_true, decide_true, Bool.true_and, Option.bind_some]
  congr 1
  cases hv : r.values[i]? with
  | none => cases comp.op <;> simp [Operator.isNullary, compareNullary]
  | some v =>
    cases comp.op.isNullary with
    | true => rfl
    | false => cases comp.rhs.bind (resolveOperand · ctx) <;> rfl

lemma comparisonToFilter_lowers {comp : Comparison} (hs : comp.lhs.scope = .doc)
    (hv : ValidComparison table comp)
    (hr : ∀ rhs, comp.rhs = some rhs → (resolveOperand rhs ctx).isSome) :
    ∃ p, comparisonToFilter ctx table comp = .ok p ∧ Collected p ∧
      ∀ r, p.foldedHolds r = foldedLeafHolds ctx table r comp := by
  obtain ⟨i, f, hi, hf⟩ := hv.field
  have hrhs : resolveRhs ctx comp.rhs = .ok (comp.rhs.bind (resolveOperand · ctx)) := by
    cases hc : comp.rhs with
    | none => rfl
    | some rhs =>
      obtain ⟨v, hv⟩ := Option.isSome_iff_exists.mp (hr rhs hc)
      rw [resolveRhs, hv, Option.bind_some, hv]
      rfl
  have hc : comparisonToQueryCondition ctx table comp = .ok
      { fieldIndex := i, op := comp.op, value := comp.rhs.bind (resolveOperand · ctx),
        fieldType := f.storageType, itemsType := f.itemsType } := by
    rw [comparisonToQueryCondition, hi, orError, ok_bind, hf, orError, ok_bind, hrhs]
    rfl
  refine ⟨_, by rw [comparisonToFilter, hc]; rfl, ⟨rfl, rfl, ?_⟩, fun r => ?_⟩
  · intro c hm
    simp only [allConditions, Option.getD_some, Option.getD_none,
      flatten_nil, append_nil, mem_singleton] at hm
    subst hm
    intro hn
    obtain ⟨rhs, hrhs⟩ := Option.isSome_iff_exists.mp (hv.operand hn)
    rw [hrhs, Option.bind_some]
    exact hr rhs hrhs
  · rw [foldedHolds_of_conditional rfl, ← foldedHolds_comparisonToQueryCondition hs hc]
    simp

/-- Every valid condition lowers to what evaluation in memory leaves open of it, unless an operand
is missed. -/
lemma conditionLowers (c : AuthCondition)
    (hv : c.Forall fun comp => comp.lhs.scope = .doc → ValidComparison table comp)
    (hr : missesOperand ctx c = false) : ConditionLowers ctx table c := by
  induction c using inductChildren with
  | hb b =>
    rw [ConditionLowers, lowerCondition, evaluateAuth]
    cases b <;> exact ⟨_, rfl, rfl⟩
  | hc comp =>
    rw [ConditionLowers, lowerCondition, evaluateAuth]
    rw [forall_comparison] at hv
    by_cases hs : comp.lhs.scope = .doc
    · have hr : ∀ rhs, comp.rhs = some rhs → (resolveOperand rhs ctx).isSome := by
        intro rhs hrhs
        rw [missesOperand, hrhs, hs] at hr
        simpa [← Option.isSome_iff_ne_none] using hr
      obtain ⟨p, hp, hcol, hval⟩ := comparisonToFilter_lowers hs (hv hs) hr
      rw [if_neg (not_not.mpr hs), hp, ok_bind, evaluateComparison, if_pos hs]
      refine ⟨_, rfl, p, rfl, hcol, fun r => ?_⟩
      dsimp only
      rw [hval, foldedHolds, eval_comparison, misread, Bool.not_false, Bool.and_true]
    · rw [if_pos hs, evaluateComparison, if_neg hs]
      cases comparisonHolds comp (resolveContextVar comp.lhs ctx) ctx <;> exact ⟨_, rfl, rfl⟩
  | ha cs ih =>
    rw [forall_logicalAnd] at hv
    have hempty : (toOwnedPredicate {}).HasOperands := by
      simp [FilterPredicate.HasOperands, toOwnedPredicate_allConditions]
    obtain ⟨res, hres, hl⟩ := lowerAnd_lowers ctx table cs (fun c hc => ih c hc (hv c hc)) hr {} hempty
    refine ⟨res, by rw [lowerCondition, hres], ?_⟩
    by_cases hd : evaluateAuth ctx (.logicalAnd cs) = .deny
    · rw [evaluateAuth] at hd ⊢
      have hb : evaluateLogical ctx .deny .allow (!PredicateBuilder.isEmpty {}) cs = .deny := hd
      rw [hd]
      rw [hb] at hl
      exact hl
    · rw [evaluateAuth]
      refine Lowers.congr hl fun r => ?_
      rw [toOwnedPredicate_foldedHolds, openTermsHold_logicalAnd ctx table r cs hd]
      rfl
  | ho cs ih =>
    rw [forall_logicalOr] at hv
    obtain ⟨res, hres, hl⟩ := lowerOr_lowers ctx table cs
      (fun c hc => ih c hc (hv c hc)) hr none none (by rintro q ⟨⟩)
    refine ⟨res, by rw [lowerCondition, hres], ?_⟩
    cases he : evaluateAuth ctx (.logicalOr cs) with
    | allow =>
      rw [evaluateAuth] at he
      have hb : evaluateLogical ctx .allow .deny (collectedOr none none).isSome cs = .allow := he
      rw [hb] at hl
      exact hl
    | deny =>
      rw [evaluateAuth] at he
      have hb : evaluateLogical ctx .allow .deny (collectedOr none none).isSome cs = .deny := he
      rw [hb] at hl
      exact hl
    | needsDocPredicate =>
      have hopen := fun r => openTermsHold_logicalOr ctx table r cs he
      rw [evaluateAuth] at he
      have hb : evaluateLogical ctx .allow .deny (collectedOr none none).isSome cs = .needsDocPredicate := he
      rw [hb] at hl
      exact hl.congr fun r => by rw [hopen]; rfl

lemma missesOperandBefore_cons_eq_true {s : EvalResult} (h : missesOperandBefore ctx s (c :: cs) = true) :
    missesOperand ctx c = true ∨ missesOperand ctx c = false ∧ evaluateAuth ctx c ≠ s ∧
      missesOperandBefore ctx s cs = true := by
  rw [missesOperandBefore, Bool.or_eq_true, Bool.and_eq_true, decide_eq_true_eq] at h
  cases hc : missesOperand ctx c with
  | true => exact .inl rfl
  | false => exact .inr ⟨rfl, h.resolve_left (by simp [hc])⟩

lemma lowerAnd_missing (hlow : ∀ c ∈ cs, missesOperand ctx c = false → ConditionLowers ctx table c)
    (herr : ∀ c ∈ cs, missesOperand ctx c = true →
      lowerCondition ctx table c = .error .invalidValue)
    (h : missesOperandBefore ctx .deny cs = true) (b : PredicateBuilder) :
    lowerAnd ctx table b cs = .error .invalidValue := by
  induction cs generalizing b with
  | nil => cases h
  | cons c cs ih =>
    obtain ⟨hlowc, hlow⟩ := forall_mem_cons.mp hlow
    obtain ⟨herrc, herr⟩ := forall_mem_cons.mp herr
    rw [lowerAnd]
    rcases missesOperandBefore_cons_eq_true h with hc | ⟨hc, hs, hcs⟩
    · rw [herrc hc]
      rfl
    · obtain ⟨res, hres, hl⟩ := hlowc hc
      rw [hres, ok_bind]
      cases he : evaluateAuth ctx c with
      | allow =>
        rw [he] at hl
        cases hl
        exact ih hlow herr hcs b
      | deny => exact absurd he hs
      | needsDocPredicate =>
        rw [he] at hl
        obtain ⟨p, rfl, -⟩ := hl
        exact ih hlow herr hcs _

lemma lowerOr_missing (hlow : ∀ c ∈ cs, missesOperand ctx c = false → ConditionLowers ctx table c)
    (herr : ∀ c ∈ cs, missesOperand ctx c = true →
      lowerCondition ctx table c = .error .invalidValue)
    (h : missesOperandBefore ctx .allow cs = true) (first : Option FilterPredicate)
    (builder : Option PredicateBuilder) : lowerOr ctx table first builder cs = .error .invalidValue := by
  induction cs generalizing first builder with
  | nil => cases h
  | cons c cs ih =>
    obtain ⟨hlowc, hlow⟩ := forall_mem_cons.mp hlow
    obtain ⟨herrc, herr⟩ := forall_mem_cons.mp herr
    rcases missesOperandBefore_cons_eq_true h with hc | ⟨hc, hs, hcs⟩
    · rw [lowerOr, herrc hc]
      rfl
    · obtain ⟨res, hres, hl⟩ := hlowc hc
      cases he : evaluateAuth ctx c with
      | allow => exact absurd he hs
      | deny =>
        rw [he] at hl
        cases hl
        rw [lowerOr, hres, ok_bind]
        exact ih hlow herr hcs first builder
      | needsDocPredicate =>
        rw [he] at hl
        obtain ⟨p, rfl, -⟩ := hl
        rw [lowerOr_filter ctx table hres]
        exact ih hlow herr hcs _ _

lemma lowerCondition_missing (c : AuthCondition)
    (hv : c.Forall fun comp => comp.lhs.scope = .doc → ValidComparison table comp)
    (hr : missesOperand ctx c = true) : lowerCondition ctx table c = .error .invalidValue := by
  induction c using inductChildren with
  | hb b => cases hr
  | hc comp =>
    rw [forall_comparison] at hv
    rw [missesOperand, Bool.and_eq_true, decide_eq_true_eq, Option.any_eq_true] at hr
    obtain ⟨hs, rhs, hrhs, hmiss⟩ := hr
    obtain ⟨i, f, hi, hf⟩ := (hv hs).field
    rw [Option.isNone_iff_eq_none] at hmiss
    rw [lowerCondition, if_neg (not_not.mpr hs), comparisonToFilter, comparisonToQueryCondition, hi,
      orError, ok_bind, hf, orError, ok_bind, hrhs, resolveRhs, hmiss]
    rfl
  | ha cs ih =>
    rw [forall_logicalAnd] at hv
    exact lowerAnd_missing (fun c hc => conditionLowers c (hv c hc)) (fun c hc => ih c hc (hv c hc)) hr {}
  | ho cs ih =>
    rw [forall_logicalOr] at hv
    exact lowerOr_missing (fun c hc => conditionLowers c (hv c hc)) (fun c hc => ih c hc (hv c hc)) hr none none

end Lowering

lemma buildDocPredicate_missing {ctx : EvalContext} {table : Table}
    (hv : validateDocPredicate c table = .ok ()) (hr : missesOperand ctx c = true) :
    buildDocPredicate c ctx table = .error .invalidValue := by
  obtain ⟨s, hs, -⟩ := bind_eq_ok.mp hv
  rw [buildDocPredicate, lowerCondition_missing c (validateShape_valid table c hs) hr]
  rfl

/-- The rows a document predicate admits: those on which the condition is true with its empty
`notIn` comparisons folded, unless it is misread on the row. -/
lemma admits_buildDocPredicate {ctx : EvalContext} {table : Table}
    (hv : validateDocPredicate c table = .ok ()) (hr : missesOperand ctx c = false) (r : Record) :
    admits (buildDocPredicate c ctx table) r = some (foldedHolds ctx table r c && !misread ctx table r c) := by
  obtain ⟨s, hs, -⟩ := bind_eq_ok.mp hv
  obtain ⟨res, hres, hl⟩ := conditionLowers c (validateShape_valid table c hs) hr
  rw [buildDocPredicate, hres, ok_bind]
  cases he : evaluateAuth ctx c with
  | allow =>
    rw [he] at hl
    cases hl
    simp [(settled_in_memory ctx table r c).1 he, admits, pure, Except.pure]
  | deny =>
    rw [he] at hl
    cases hl
    simp [(settled_in_memory ctx table r c).2 he, admits, throw, throwThe, MonadExceptOf.throw]
  | needsDocPredicate =>
    rw [he] at hl
    obtain ⟨p, rfl, hp, hval⟩ := hl
    have hnorm : p.normalize.holds r = (foldedHolds ctx table r c && !misread ctx table r c) := by
      rw [← p.normalize_normal.foldedHolds_eq, p.normalize_foldedHolds, hval]
    have hops : p.normalize.HasOperands := fun d hd =>
      hp.operands d (mem_of_mem_normalize p d hd)
    by_cases hall : p.normalize.state = .matchAll
    · have ht : p.normalize.holds r = true := by rw [FilterPredicate.holds, hall]
      simp [hall, admits, pure, Except.pure, ← hnorm, ht]
    · simp [hall, admits, pure, Except.pure, ← hnorm, evaluatePredicate_eq _ r hops, Except.toOption]

lemma foldedHolds_of_conditionHolds {ctx : EvalContext} {table : Table} {r : Record}
    (h : conditionHolds ctx table r c) : foldedHolds ctx table r c :=
  eval_mono (fun comp hc => by rw [foldedLeafHolds, hc, Bool.or_true]) c h

lemma foldedHolds_of_misread {ctx : EvalContext} {table : Table} {r : Record}
    (h : misread ctx table r c) : foldedHolds ctx table r c := by
  cases c with
  | boolean b => simp [misread] at h
  | comparison comp => simp [misread] at h
  | logicalAnd cs =>
    rw [misread, Bool.and_eq_true, all_eq_true] at h
    exact (eval_logicalAnd _ _).mpr h.1
  | logicalOr cs =>
    rw [misread, Bool.and_eq_true, Bool.and_eq_true, any_eq_true] at h
    exact (eval_logicalOr _ _).mpr h.1.2

/-- A document predicate admits exactly the rows on which its condition is true, except where the
condition is misread or is true through an empty `notIn` alone, but not both. -/
theorem buildDocPredicate_admits_iff {c : AuthCondition} {ctx : EvalContext} {table : Table}
    (hv : validateDocPredicate c table = .ok ()) (hr : OperandsResolve ctx c) (r : Record) :
    admits (buildDocPredicate c ctx table) r = some (conditionHolds ctx table r c) ↔
      (misread ctx table r c ↔ foldedHolds ctx table r c ∧ ¬ conditionHolds ctx table r c) := by
  rw [admits_buildDocPredicate hv (missesOperand_eq_false hr), Option.some.injEq]
  have hmono : conditionHolds ctx table r c → foldedHolds ctx table r c :=
    foldedHolds_of_conditionHolds
  have hmis : misread ctx table r c → foldedHolds ctx table r c := foldedHolds_of_misread
  cases hf : foldedHolds ctx table r c <;> cases ht : conditionHolds ctx table r c <;>
    cases hm : misread ctx table r c <;> simp_all

namespace AdmissionExample

def pageTable : Table where
  name := "pages"
  userFields := [.plain "title" .text, .plain "author" .text]
  fields_wellFormed := by
    intro f hf
    rcases List.mem_pair.mp hf with rfl | rfl <;> exact Field.plain_wellFormed (by decide)
  names_nodup := by decide

def docEquals (field : String) (text : Bytes) : AuthCondition :=
  .comparison ⟨⟨.doc, field⟩, .eq, some (.literal (.scalar (.text text)))⟩

def titleOrAuthor : AuthCondition := .logicalOr [docEquals "title" [97], docEquals "author" [98]]

/-- A page with the right title and another author. -/
def titledPage : Record where
  values := [.scalar (.docId 7), .scalar (.integer 1), .scalar (.docId 7), .scalar (.text [97]),
    .scalar (.text [99]), .scalar (.integer 5), .scalar (.integer 5)]

lemma titledPage_conforms : pageTable.Conforms titledPage := by
  refine .cons ?_ (.cons ?_ (.cons ?_ (.cons ?_ (.cons ?_ (.cons ?_ (.cons ?_ .nil)))))) <;> rfl

lemma validate_titleOrAuthor : validateDocPredicate titleOrAuthor pageTable = .ok () := rfl

lemma titleOrAuthor_resolves : OperandsResolve {} titleOrAuthor := by
  rw [OperandsResolve, titleOrAuthor, forall_logicalOr]
  intro c hc
  simp only [mem_cons, not_mem_nil, or_false] at hc
  rcases hc with rfl | rfl <;>
    exact (forall_comparison _ _).mpr fun _ rhs h => by cases h; rfl

/-- A page that satisfies one side of the disjunction is not admitted. -/
theorem titledPage_rejected :
    validateDocPredicate titleOrAuthor pageTable = .ok () ∧ OperandsResolve {} titleOrAuthor ∧
    pageTable.Conforms titledPage ∧
    conditionHolds {} pageTable titledPage titleOrAuthor = true ∧
    admits (buildDocPredicate titleOrAuthor {} pageTable) titledPage = some false := by
  refine ⟨validate_titleOrAuthor, titleOrAuthor_resolves, titledPage_conforms, ?_, ?_⟩
  · decide
  · decide

theorem buildDocPredicate_admits_iff_titledPage :
    admits (buildDocPredicate titleOrAuthor {} pageTable) titledPage =
        some (conditionHolds {} pageTable titledPage titleOrAuthor) ↔
      (misread {} pageTable titledPage titleOrAuthor ↔ foldedHolds {} pageTable titledPage titleOrAuthor ∧
          ¬ conditionHolds {} pageTable titledPage titleOrAuthor) :=
  buildDocPredicate_admits_iff validate_titleOrAuthor titleOrAuthor_resolves titledPage

end AdmissionExample
end DocPredicate
end ZyncBase
