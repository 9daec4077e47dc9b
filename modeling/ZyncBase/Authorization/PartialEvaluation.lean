import ZyncBase.Authorization.DocAdmission

/-! The verdict of evaluation in memory stands for every document, and strict evaluation takes every
comparison on the document for false. -/
namespace ZyncBase

open AndOr Formula

/-- Strictly, a comparison on the document is denied. -/
def evaluateComparisonInternal (comp : Comparison) (ctx : EvalContext) (strict : Bool) :
    EvalResult :=
  if comp.lhs.scope = .doc then if strict then .deny else .needsDocPredicate
  else EvalResult.ofBool (comparisonHolds comp (resolveContextVar comp.lhs ctx) ctx)

mutual

def evaluateConditionInternal (ctx : EvalContext) (strict : Bool) : AuthCondition → EvalResult
  | .boolean b => EvalResult.ofBool b
  | .logicalAnd conds => evaluateLogicalInternal ctx .deny .allow strict false conds
  | .logicalOr conds => evaluateLogicalInternal ctx .allow .deny strict false conds
  | .comparison comp => evaluateComparisonInternal comp ctx strict

def evaluateLogicalInternal (ctx : EvalContext) (shortCircuit default : EvalResult)
    (strict hasInjection : Bool) : List AuthCondition → EvalResult
  | [] => if hasInjection && !strict then .needsDocPredicate else default
  | c :: cs =>
    let result := evaluateConditionInternal ctx strict c
    if result = shortCircuit then shortCircuit
    else
      evaluateLogicalInternal ctx shortCircuit default strict (hasInjection || result = .needsDocPredicate) cs

end

/-- For commands in which a condition on the document is forbidden. -/
def evaluateConditionStrict (c : AuthCondition) (ctx : EvalContext) : Bool :=
  evaluateConditionInternal ctx true c = .allow

/-- The truth of a condition on a document, on which the comparisons come out as `onDoc` says. -/
def holdsWith (ctx : EvalContext) (onDoc : Comparison → Bool) : AuthCondition → Bool :=
  eval fun comp =>
    if comp.lhs.scope = .doc then onDoc comp
    else comparisonHolds comp (resolveContextVar comp.lhs ctx) ctx

/-- Both operands have a value, except that `isNull` may ask for a left operand without one. A
variable of the document has no value in memory. -/
def operandsFound (comp : Comparison) (ctx : EvalContext) : Bool :=
  if comp.op.isNullary then (resolveContextVar comp.lhs ctx).isSome || comp.op = .isNull
  else (resolveContextVar comp.lhs ctx).isSome && (comp.rhs.bind (resolveOperand · ctx)).isSome

/-- The truth of a condition in which comparisons on the document, and those that miss an operand,
are false. -/
def holdsOnFound (ctx : EvalContext) : AuthCondition → Bool :=
  eval fun comp =>
    comp.lhs.scope ≠ .doc && operandsFound comp ctx && comparisonHolds comp (resolveContextVar comp.lhs ctx) ctx

section Known

variable {ctx : EvalContext}

/-- What is known of a comparison in memory. -/
def comparisonTruth (ctx : EvalContext) (strict : Bool) (comp : Comparison) : Kleene.Truth :=
  if comp.lhs.scope = .doc then if strict then some false else none
  else some (comparisonHolds comp (resolveContextVar comp.lhs ctx) ctx)

def EvalResult.ofTruth : Kleene.Truth → EvalResult
  | some b => .ofBool b
  | none => .needsDocPredicate

@[simp] lemma ofTruth_eq_allow {a : Kleene.Truth} : EvalResult.ofTruth a = .allow ↔ a = some true := by
  rcases a with _ | _ | _ <;> simp [EvalResult.ofTruth, EvalResult.ofBool]

@[simp] lemma ofTruth_eq_deny {a : Kleene.Truth} : EvalResult.ofTruth a = .deny ↔ a = some false := by
  rcases a with _ | _ | _ <;> simp [EvalResult.ofTruth, EvalResult.ofBool]

lemma known_strict (c : AuthCondition) :
    c.known (comparisonTruth ctx true) = some (holdsWith ctx (fun _ => false) c) := by
  have hleaf : comparisonTruth ctx true = fun comp => some (if comp.lhs.scope = .doc then false
      else comparisonHolds comp (resolveContextVar comp.lhs ctx) ctx) := by
    funext comp
    by_cases hdoc : comp.lhs.scope = .doc
    · simp [comparisonTruth, hdoc]
    · simp [comparisonTruth, hdoc]
  rw [hleaf]
  exact known_some _ c

lemma known_ne_none {strict : Bool} (hs : strict = true) (c : AuthCondition) :
    c.known (comparisonTruth ctx strict) ≠ none := by
  rw [hs, known_strict]
  exact Option.some_ne_none _

lemma evaluateLogicalInternal_eq (short : Bool) {strict : Bool} {cs : List AuthCondition}
    (hcs : ∀ c ∈ cs, evaluateConditionInternal ctx strict c =
      .ofTruth (c.known (comparisonTruth ctx strict)))
    {injected : Bool} (hinjected : strict = true → injected = false) :
    evaluateLogicalInternal ctx (.ofBool short) (.ofBool !short) strict injected cs =
      .ofTruth ((if short then Kleene.or3 else Kleene.and3) (if injected then none else some !short)
        ((if short then knownAny else knownAll) (comparisonTruth ctx strict) cs)) := by
  set known := (if short then knownAny else knownAll) (comparisonTruth ctx strict)
    with hknown
  have hcons (c : AuthCondition) (cs : List AuthCondition) : known (c :: cs) =
      (if short then Kleene.or3 else Kleene.and3) (c.known (comparisonTruth ctx strict)) (known cs) := by
    cases short <;> rfl
  have hnil : known [] = some !short := by cases short <;> rfl
  induction cs generalizing injected with
  | nil =>
    rw [evaluateLogicalInternal, hnil]
    cases strict with
    | true => rw [hinjected rfl]; cases short <;> rfl
    | false => cases short <;> cases injected <;> rfl
  | cons c cs ih =>
    rw [List.forall_mem_cons] at hcs
    rw [evaluateLogicalInternal, hcons, hcs.1]
    cases hc : c.known (comparisonTruth ctx strict) with
    | none =>
      rw [EvalResult.ofTruth, if_neg (by cases short <;> decide),
        ih hcs.2 fun hs => absurd hc (known_ne_none hs c)]
      simp only [decide_true, Bool.or_true, if_true]
      rcases known cs with _ | _ | _ <;> cases short <;> cases injected <;> rfl
    | some b =>
      by_cases hb : b = short
      · subst hb
        rw [EvalResult.ofTruth, if_pos rfl]
        rcases known cs with _ | _ | _ <;> cases b <;> cases injected <;> rfl
      · obtain rfl : b = !short := Bool.eq_not.mpr hb
        rw [EvalResult.ofTruth, if_neg (by cases short <;> decide),
          ih hcs.2 fun hs => by rw [hinjected hs]; cases short <;> rfl]
        rcases known cs with _ | _ | _ <;> cases short <;> cases injected <;> rfl

lemma evaluateConditionInternal_eq (strict : Bool) (c : AuthCondition) :
    evaluateConditionInternal ctx strict c = .ofTruth (c.known (comparisonTruth ctx strict)) := by
  induction c using inductChildren with
  | hb b => rw [evaluateConditionInternal, known]; rfl
  | hc comp =>
    rw [evaluateConditionInternal, known]
    unfold evaluateComparisonInternal comparisonTruth
    by_cases hdoc : comp.lhs.scope = .doc
    · rw [if_pos hdoc, if_pos hdoc]
      cases strict <;> rfl
    · rw [if_neg hdoc, if_neg hdoc]
      rfl
  | ha cs ih =>
    rw [evaluateConditionInternal, known]
    refine (evaluateLogicalInternal_eq false ih fun _ => rfl).trans ?_
    change EvalResult.ofTruth (Kleene.and3 (some true) (knownAll _ cs)) = _
    cases knownAll (comparisonTruth ctx strict) cs with
    | none => rfl
    | some b => cases b <;> rfl
  | ho cs ih =>
    rw [evaluateConditionInternal, known]
    refine (evaluateLogicalInternal_eq true ih fun _ => rfl).trans ?_
    change EvalResult.ofTruth (Kleene.or3 (some false) (knownAny _ cs)) = _
    cases knownAny (comparisonTruth ctx strict) cs with
    | none => rfl
    | some b => cases b <;> rfl

lemma evaluateConditionStrict_eq (c : AuthCondition) :
    evaluateConditionStrict c ctx = holdsWith ctx (fun _ => false) c := by
  unfold evaluateConditionStrict
  rw [evaluateConditionInternal_eq, known_strict]
  cases holdsWith ctx (fun _ => false) c <;> rfl

lemma evaluateConditionInternal_false (c : AuthCondition) :
    evaluateConditionInternal ctx false c = evaluateAuth ctx c := by
  have hlist (s d : EvalResult) : ∀ (cs : List AuthCondition) (injected : Bool),
      (∀ c ∈ cs, evaluateConditionInternal ctx false c = evaluateAuth ctx c) →
      evaluateLogicalInternal ctx s d false injected cs = evaluateLogical ctx s d injected cs := by
    intro cs
    induction cs with
    | nil =>
      intro injected _
      rw [evaluateLogicalInternal, evaluateLogical, Bool.not_false, Bool.and_true]
    | cons c cs ih =>
      intro injected hcs
      rw [List.forall_mem_cons] at hcs
      rw [evaluateLogicalInternal, evaluateLogical, hcs.1, ih _ hcs.2]
  induction c using inductChildren with
  | hb b => rw [evaluateConditionInternal, evaluateAuth]
  | hc comp =>
    rw [evaluateConditionInternal, evaluateAuth]
    rfl
  | ha cs ih => rw [evaluateConditionInternal, evaluateAuth, hlist _ _ cs false ih]
  | ho cs ih => rw [evaluateConditionInternal, evaluateAuth, hlist _ _ cs false ih]

end Known

section Found

variable {ctx : EvalContext}

lemma operandsFound_of_holds {comp : Comparison}
    (h : comparisonHolds comp (resolveContextVar comp.lhs ctx) ctx = true) :
    operandsFound comp ctx = true := by
  unfold comparisonHolds at h
  unfold operandsFound
  by_cases hn : comp.op.isNullary = true
  · rw [if_pos hn] at h ⊢
    cases hl : resolveContextVar comp.lhs ctx with
    | some v => rfl
    | none =>
      rw [hl] at h
      cases hop : comp.op <;> simp [hop, Operator.isNullary, compareNullary] at hn h ⊢
  · rw [if_neg hn] at h ⊢
    cases hl : resolveContextVar comp.lhs ctx with
    | none =>
      rw [hl] at h
      cases h
    | some l =>
      cases hr : comp.rhs.bind (resolveOperand · ctx) with
      | none =>
        rw [hl, hr] at h
        cases h
      | some r => rfl

lemma holdsOnFound_eq (c : AuthCondition) : holdsOnFound ctx c = holdsWith ctx (fun _ => false) c := by
  unfold holdsOnFound holdsWith
  congr 1
  funext comp
  by_cases hdoc : comp.lhs.scope = .doc
  · simp [hdoc]
  · cases hholds : comparisonHolds comp (resolveContextVar comp.lhs ctx) ctx with
    | false => simp [hdoc]
    | true => simp [hdoc, operandsFound_of_holds hholds]

end Found

/-- An allowed or denied condition is true or false on every document. Strict evaluation allows just
the conditions that are true when all comparisons on the document are false. Neither allows anything
that is not true also when the comparisons without operands are false. -/
theorem partial_evaluation_sound (c : AuthCondition) (ctx : EvalContext) :
    (evaluateAuth ctx c = .allow → ∀ onDoc, holdsWith ctx onDoc c = true) ∧
      (evaluateAuth ctx c = .deny → ∀ onDoc, holdsWith ctx onDoc c = false) ∧
      evaluateConditionStrict c ctx = holdsWith ctx (fun _ => false) c ∧
      (evaluateAuth ctx c = .allow ∨ evaluateConditionStrict c ctx = true → holdsOnFound ctx c = true) := by
  have hknown (b : Bool) (hb : c.known (comparisonTruth ctx false) = some b)
      (onDoc : Comparison → Bool) : holdsWith ctx onDoc c = b := by
    refine eval_of_known (fun comp b hcomp => ?_) c b hb
    unfold comparisonTruth at hcomp
    by_cases hdoc : comp.lhs.scope = .doc
    · rw [if_pos hdoc] at hcomp
      cases hcomp
    · rw [if_neg hdoc] at hcomp ⊢
      exact Option.some.inj hcomp
  have hallow : evaluateAuth ctx c = .allow → ∀ onDoc, holdsWith ctx onDoc c = true := by
    intro h
    rw [← evaluateConditionInternal_false, evaluateConditionInternal_eq, ofTruth_eq_allow] at h
    exact hknown true h
  refine ⟨hallow, fun h => ?_, evaluateConditionStrict_eq c, fun h => ?_⟩
  · rw [← evaluateConditionInternal_false, evaluateConditionInternal_eq, ofTruth_eq_deny] at h
    exact hknown false h
  · rw [holdsOnFound_eq]
    cases h with
    | inl h => exact hallow h _
    | inr h => rw [← evaluateConditionStrict_eq, h]

namespace PartialEvaluationExample

/-- Clients without a user may read every document, others their own. -/
def anonymousOrOwner : AuthCondition :=
  .logicalOr [.comparison ⟨⟨.session, "userId"⟩, .isNull, none⟩,
    .comparison ⟨⟨.doc, "owner_id"⟩, .eq, some (.contextVar ⟨.session, "userId"⟩)⟩]

theorem partial_evaluation_sound_anonymous : ∀ onDoc, holdsWith {} onDoc anonymousOrOwner = true :=
  (partial_evaluation_sound anonymousOrOwner {}).1 rfl

end PartialEvaluationExample
end ZyncBase
