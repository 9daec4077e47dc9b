import ZyncBase.Authorization.DocAdmission

/-! A guard that is lowered from a valid condition has all its operands, and so has a query that it
is merged into. -/
namespace ZyncBase

open AndOr.Formula Outcome List FilterPredicate

variable {c : Condition} {guard p : FilterPredicate}

namespace FilterPredicate

lemma mem_allConditions_appendOption {cs ds : Option (List Condition)}
    {es fs : Option (List OrClause)} {state : PredicateState}
    (h : c ∈ allConditions ⟨state, appendOption cs ds, appendOption es fs⟩) :
    c ∈ allConditions ⟨state, cs, es⟩ ∨ c ∈ allConditions ⟨state, ds, fs⟩ := by
  have hgetD {α : Type} (xs ys : Option (List α)) :
      (appendOption xs ys).getD [] = xs.getD [] ++ ys.getD [] := by
    cases xs <;> cases ys <;> simp [appendOption]
  simp only [allConditions, hgetD, mem_append, flatten_append] at h ⊢
  tauto

lemma mem_allConditions_mergeInPlace (h : c ∈ (p.mergeInPlace guard).allConditions) :
    c ∈ p.allConditions ∨ c ∈ guard.allConditions := by
  unfold mergeInPlace at h
  split_ifs at h
  · exact .inl h
  · simp [allConditions] at h
  · cases mem_allConditions_appendOption (mem_of_mem_normalize _ c h) with
    | inl h => exact .inl h
    | inr h => exact .inr h

lemma HasOperands.mergeInPlace (hp : p.HasOperands)
    (hg : guard.HasOperands) : (p.mergeInPlace guard).HasOperands := fun c hc =>
  (mem_allConditions_mergeInPlace hc).elim (hp c) (hg c)

end FilterPredicate

namespace DocPredicate

variable {ctx : EvalContext} {table : Table} {P : Condition → Prop}

namespace PredicateBuilder

lemma mem_empty : c ∉ (toOwnedPredicate {}).allConditions := by
  simp [toOwnedPredicate_allConditions]

lemma mem_appendAnd {b : PredicateBuilder} (h : c ∈ (b.appendAndFilterMove p).toOwnedPredicate.allConditions) :
    c ∈ b.toOwnedPredicate.allConditions ∨ c ∈ p.allConditions := by
  rw [toOwnedPredicate_allConditions] at h ⊢
  simp only [appendAndFilterMove, moveOrClauses, flatten_append, mem_append,
    allConditions] at h ⊢
  tauto

lemma mem_appendOr {b : PredicateBuilder} (h : c ∈ (b.appendOrFilterMove p).toOwnedPredicate.allConditions) :
    c ∈ b.toOwnedPredicate.allConditions ∨ c ∈ p.allConditions := by
  rw [toOwnedPredicate_allConditions] at h ⊢
  simp only [appendOrFilterMove, moveOrClauses, flatten_append, mem_append,
    ← flatMap_def, flatMap_singleton', allConditions] at h ⊢
  tauto

end PredicateBuilder

open PredicateBuilder

def LowersWith (P : Condition → Prop) (ctx : EvalContext) (table : Table) (c : AuthCondition) :
    Prop :=
  ∀ p, lowerCondition ctx table c = .ok (.filter p) → ∀ d ∈ p.allConditions, P d

lemma lowerAnd_with {cs : List AuthCondition} {b : PredicateBuilder} (hcs : ∀ c ∈ cs, LowersWith P ctx table c)
    (hb : ∀ d ∈ b.toOwnedPredicate.allConditions, P d)
    (h : lowerAnd ctx table b cs = .ok (.filter p)) : ∀ d ∈ p.allConditions, P d := by
  induction cs generalizing b with
  | nil =>
    rw [lowerAnd] at h
    split_ifs at h
    · cases h
    · cases h
      exact hb
  | cons c cs ih =>
    rw [lowerAnd] at h
    rw [forall_mem_cons] at hcs
    obtain ⟨res, hres, h⟩ := bind_eq_ok.mp h
    cases res with
    | allow => exact ih hcs.2 hb h
    | deny => cases h
    | filter q =>
      exact ih hcs.2 (fun d hd => (mem_appendAnd hd).elim (hb d)
        (hcs.1 q hres d)) h

lemma lowerOr_with {cs : List AuthCondition} {first : Option FilterPredicate}
    {builder : Option PredicateBuilder} (hcs : ∀ c ∈ cs, LowersWith P ctx table c)
    (hq : ∀ q, collectedOr first builder = some q → ∀ d ∈ q.allConditions, P d)
    (h : lowerOr ctx table first builder cs = .ok (.filter p)) : ∀ d ∈ p.allConditions, P d := by
  induction cs generalizing first builder with
  | nil =>
    rw [lowerOr.eq_def] at h
    cases builder with
    | some b =>
      dsimp only at h
      split_ifs at h
      · cases h
      · cases h
        exact hq _ rfl
    | none =>
      cases first with
      | some q =>
        cases h
        exact hq _ rfl
      | none => cases h
  | cons c cs ih =>
    rw [forall_mem_cons] at hcs
    cases hres : lowerCondition ctx table c with
    | error e =>
      rw [lowerOr, hres] at h
      cases h
    | ok res =>
      cases res with
      | allow =>
        rw [lowerOr, hres] at h
        cases h
      | deny =>
        rw [lowerOr, hres, ok_bind] at h
        exact ih hcs.2 hq h
      | filter q =>
        rw [lowerOr_filter ctx table hres] at h
        refine ih hcs.2 (fun q' hq' d hd => ?_) h
        have hnew := hcs.1 q hres
        cases builder with
        | some b =>
          cases hq'
          exact (mem_appendOr hd).elim (hq _ rfl d) (hnew d)
        | none =>
          cases first with
          | none =>
            cases hq'
            exact hnew d hd
          | some existing =>
            cases hq'
            rcases mem_appendOr hd with hd | hd
            · exact (mem_appendOr hd).elim
                (fun hd => absurd hd mem_empty) (hq existing rfl d)
            · exact hnew d hd

/-- A property of what the comparisons on the document lower to holds of what the whole condition
lowers to. -/
lemma lowerCondition_with (c : AuthCondition)
    (hv : c.Forall fun comp => comp.lhs.scope = .doc →
      ∀ d, comparisonToQueryCondition ctx table comp = .ok d → P d) : LowersWith P ctx table c := by
  induction c using inductChildren with
  | hb b =>
    intro p h
    rw [lowerCondition] at h
    cases b <;> cases h
  | hc comp =>
    intro p h
    rw [forall_comparison] at hv
    rw [lowerCondition] at h
    split_ifs at h with hs
    · cases he : evaluateComparison comp ctx <;> rw [he] at h <;> cases h
    · obtain ⟨q, hq, hp⟩ := bind_eq_ok.mp h
      cases hp
      obtain ⟨d, hd, hp⟩ := bind_eq_ok.mp hq
      cases hp
      intro e he
      simp only [allConditions, Option.getD_some, Option.getD_none,
        flatten_nil, append_nil, mem_singleton] at he
      subst he
      exact hv (not_not.mp hs) e hd
  | ha cs ih =>
    intro p h
    rw [forall_logicalAnd] at hv
    rw [lowerCondition] at h
    exact lowerAnd_with (fun c hc => ih c hc (hv c hc)) (fun d hd => absurd hd mem_empty) h
  | ho cs ih =>
    intro p h
    rw [forall_logicalOr] at hv
    rw [lowerCondition] at h
    exact lowerOr_with (fun c hc => ih c hc (hv c hc)) (by rintro q ⟨⟩) h

lemma buildDocPredicate_with {c : AuthCondition}
    (hP : ∀ comp d, validateDocComparison comp table = .ok () →
      comparisonToQueryCondition ctx table comp = .ok d → P d) (hv : validateDocPredicate c table = .ok ())
    (h : buildDocPredicate c ctx table = .ok (some guard)) : ∀ d ∈ guard.allConditions, P d := by
  obtain ⟨shape, hshape, -⟩ := bind_eq_ok.mp hv
  obtain ⟨res, hres, h⟩ := bind_eq_ok.mp h
  cases res with
  | allow => cases h
  | deny => cases h
  | filter p =>
    have hvalid := validateShape_forall table (fun comp hcomp d hd => hP comp d hcomp hd) c hshape
    have hp := lowerCondition_with c hvalid p hres
    dsimp only at h
    split_ifs at h
    · cases h
    · cases h
      exact fun d hd => hp d (mem_of_mem_normalize p d hd)

lemma buildDocPredicate_operands {c : AuthCondition} (hv : validateDocPredicate c table = .ok ())
    (h : buildDocPredicate c ctx table = .ok (some guard)) : guard.HasOperands := by
  refine buildDocPredicate_with (fun comp d hcomp hd hn => ?_) hv h
  obtain ⟨i, _, hd⟩ := bind_eq_ok.mp hd
  obtain ⟨f, _, hd⟩ := bind_eq_ok.mp hd
  obtain ⟨value, hvalue, hd⟩ := bind_eq_ok.mp hd
  cases hd
  obtain ⟨rhs, hrhs⟩ := Option.isSome_iff_exists.mp ((validateDocComparison_valid table hcomp).operand hn)
  rw [hrhs] at hvalue
  obtain ⟨v, _, rfl⟩ := map_eq_ok.mp hvalue
  rfl

end DocPredicate
end ZyncBase
