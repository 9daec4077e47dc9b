import ZyncBase.Query.Eval

/-! Normalisation of filter predicates: it introduces no condition, leaves no constant condition
and no empty clause, and computes the predicate with the constant conditions folded. -/
namespace ZyncBase

open List Condition

lemma all_congr_of_mem {α : Type*} {f g : α → Bool} {xs : List α} (h : ∀ a ∈ xs, f a = g a) :
    xs.all f = xs.all g := by
  rw [Bool.eq_iff_iff, all_eq_true, all_eq_true]
  exact forall₂_congr fun a ha => by rw [h a ha]

lemma any_congr_of_mem {α : Type*} {f g : α → Bool} {xs : List α} (h : ∀ a ∈ xs, f a = g a) :
    xs.any f = xs.any g := by
  rw [Bool.eq_iff_iff, any_eq_true, any_eq_true]
  exact exists_congr fun a => and_congr_right fun ha => by rw [h a ha]

namespace FilterPredicate

lemma compactTrivialTrueConditions_getD (conds : List Condition) :
    (compactTrivialTrueConditions conds).getD [] = conds.filter fun c => !c.isTriviallyTrue := by
  simp only [compactTrivialTrueConditions]
  split_ifs with hl h0
  · exact (filter_eq_self.mpr (length_filter_eq_length_iff.mp hl)).symm
  · exact (length_eq_zero_iff.mp h0).symm
  · rfl

lemma compactTrivialFalseConditions_eq_some (conds out : List Condition) :
    compactTrivialFalseConditions conds = some out ↔
      out = conds.filter (fun c => !c.isTriviallyFalse) ∧ out ≠ [] := by
  simp only [compactTrivialFalseConditions]
  split_ifs with h0 hl
  · rw [length_eq_zero_iff] at h0
    simp [h0]
  · have hs := filter_eq_self.mpr (length_filter_eq_length_iff.mp hl)
    have hne : conds ≠ [] := by
      rintro rfl
      simp at h0
    simp only [Option.some.injEq, hs]
    exact ⟨fun h => ⟨h.symm, h ▸ hne⟩, fun h => h.1.symm⟩
  · rw [length_eq_zero_iff] at h0
    simp only [Option.some.injEq]
    exact ⟨fun h => ⟨h.symm, h ▸ h0⟩, fun h => h.1.symm⟩

lemma compactTrivialFalseConditions_eq_none (conds : List Condition) :
    compactTrivialFalseConditions conds = none ↔ conds.all isTriviallyFalse := by
  simp only [compactTrivialFalseConditions]
  split_ifs with h0 hl
  · simpa using h0
  · simpa using h0
  · simpa using h0

lemma removeTriviallyTrueOrClauses_getD (p : FilterPredicate) :
    p.removeTriviallyTrueOrClauses.orClauses.getD [] =
      (p.orClauses.getD []).filter fun c => !clauseHasTriviallyTrue c := by
  simp only [removeTriviallyTrueOrClauses]
  cases hp : p.orClauses with
  | none => simp [hp]
  | some clauses =>
    dsimp only [Option.getD_some]
    split_ifs with hl h0
    · exact (length_eq_zero_iff.mp h0).symm
    · rfl
    · rw [hp, Option.getD_some, eq_comm, filter_eq_self, ← length_filter_eq_length_iff]
      exact le_antisymm (length_filter_le _ _) (not_lt.mp hl)

@[simp] lemma removeTriviallyTrueOrClauses_conditions (p : FilterPredicate) :
    p.removeTriviallyTrueOrClauses.conditions = p.conditions := by
  simp only [removeTriviallyTrueOrClauses]
  split
  · rfl
  · split_ifs <;> rfl

@[simp] lemma removeTriviallyTrueOrClauses_state (p : FilterPredicate) :
    p.removeTriviallyTrueOrClauses.state = p.state := by
  simp only [removeTriviallyTrueOrClauses]
  split
  · rfl
  · split_ifs <;> rfl

lemma mem_sortConditions (c : Condition) (conds : List Condition) :
    c ∈ sortConditions conds ↔ c ∈ conds := mem_insertionSort _

lemma all_sortConditions (f : Condition → Bool) (conds : List Condition) :
    (sortConditions conds).all f = conds.all f := (perm_insertionSort _ _).all_eq

lemma any_sortConditions (f : Condition → Bool) (conds : List Condition) :
    (sortConditions conds).any f = conds.any f := (perm_insertionSort _ _).any_eq

lemma mem_sortClauses_clauses (p : FilterPredicate) (clause : OrClause) :
    clause ∈ p.sortClauses.orClauses.getD [] ↔ ∃ old ∈ p.orClauses.getD [], sortConditions old = clause := by
  cases hp : p.orClauses with
  | none => simp [sortClauses, hp]
  | some clauses => simp [sortClauses, hp]

lemma sortClauses_conditions (p : FilterPredicate) :
    p.sortClauses.conditions.getD [] = sortConditions (p.conditions.getD []) := by
  cases hp : p.conditions with
  | none => simp [sortClauses, hp, sortConditions]
  | some conds => simp [sortClauses, hp]

lemma compactFalseClauses_eq_some (clauses out : List OrClause) : compactFalseClauses clauses = some out ↔
    out = clauses.map (List.filter fun c => !c.isTriviallyFalse) ∧ [] ∉ out := by
  induction clauses generalizing out with
  | nil => simp only [compactFalseClauses, Option.some.injEq, map_nil]; grind
  | cons clause clauses ih =>
    rw [compactFalseClauses]
    cases hc : compactTrivialFalseConditions clause with
    | none =>
      have hf : clause.filter (fun c => !c.isTriviallyFalse) = [] := by
        rw [compactTrivialFalseConditions_eq_none] at hc
        simpa using hc
      simp only [reduceCtorEq, map_cons, hf, false_iff, not_and, not_not]
      rintro rfl
      exact mem_cons_self
    | some result =>
      obtain ⟨rfl, hne⟩ := (compactTrivialFalseConditions_eq_some _ _).mp hc
      simp only [Option.map_eq_some_iff, ih, map_cons]
      constructor
      · rintro ⟨rest, ⟨rfl, hr⟩, rfl⟩
        exact ⟨rfl, by simp only [mem_cons, not_or]; exact ⟨hne.symm, hr⟩⟩
      · rintro ⟨rfl, hr⟩
        exact ⟨_, ⟨rfl, fun h => hr (mem_cons_of_mem _ h)⟩, rfl⟩

lemma compactFalseClauses_eq_none (clauses : List OrClause) :
    compactFalseClauses clauses = none ↔ ∃ clause ∈ clauses, clause.all isTriviallyFalse := by
  induction clauses with
  | nil => simp [compactFalseClauses]
  | cons clause clauses ih =>
    rw [compactFalseClauses, exists_mem_cons_iff]
    cases hc : compactTrivialFalseConditions clause with
    | none => simp [(compactTrivialFalseConditions_eq_none _).mp hc]
    | some result =>
      have : ¬ clause.all isTriviallyFalse := by
        rw [← compactTrivialFalseConditions_eq_none, hc]
        simp
      simp [ih, this]

end FilterPredicate

/-- A condition as normalisation reads it: membership in no set is constantly false, its
negation constantly true. -/
def Condition.foldedHolds (c : Condition) (r : Record) : Bool :=
  c.isTriviallyTrue || (!c.isTriviallyFalse && c.holds r)

lemma Condition.foldedHolds_of_triviallyTrue {c : Condition} (h : c.isTriviallyTrue = true)
    (r : Record) : c.foldedHolds r = true := by simp [foldedHolds, h]

lemma Condition.foldedHolds_of_triviallyFalse {c : Condition} (h : c.isTriviallyFalse = true)
    (r : Record) : c.foldedHolds r = false := by
  have hop : c.op = .isIn := by
    simp only [isTriviallyFalse, Bool.and_eq_true, decide_eq_true_eq] at h
    exact h.1
  simp [foldedHolds, h, isTriviallyTrue, hop]

lemma Condition.foldedHolds_of_nontrivial {c : Condition} (ht : c.isTriviallyTrue = false)
    (hf : c.isTriviallyFalse = false) (r : Record) : c.foldedHolds r = c.holds r := by
  simp [foldedHolds, ht, hf]

lemma compareIn_nil (v : Value) : compareIn v (.array []) = false := by
  cases v <;> rfl

lemma Condition.foldedHolds_eq_or (c : Condition) (r : Record) :
    c.foldedHolds r = (c.isTriviallyTrue || c.holds r) := by
  cases hf : c.isTriviallyFalse with
  | false => simp [foldedHolds, hf]
  | true =>
    rw [foldedHolds_of_triviallyFalse hf]
    simp only [isTriviallyFalse, Bool.and_eq_true, decide_eq_true_eq] at hf
    simp only [isTriviallyTrue, holds, hf, Operator.isNullary, compareValues, compareIn_nil]
    cases r.values[c.fieldIndex]? <;> rfl

namespace FilterPredicate

/-- A predicate with its conditions folded, in which an empty clause is false. -/
def foldedHolds (p : FilterPredicate) (r : Record) : Bool :=
  match p.state with
  | .matchAll => true
  | .matchNone => false
  | .conditional =>
    (p.conditions.getD []).all (·.foldedHolds r) &&
      (p.orClauses.getD []).all fun clause => clause.any (·.foldedHolds r)

lemma foldedHolds_of_conditional {p : FilterPredicate} (h : p.state = .conditional) (r : Record) :
    p.foldedHolds r = ((p.conditions.getD []).all (·.foldedHolds r) &&
      (p.orClauses.getD []).all fun clause => clause.any (·.foldedHolds r)) := by
  rw [foldedHolds, h]

/-- No condition is constant, no clause is empty, and a settled predicate has no clauses. -/
structure Normal (p : FilterPredicate) : Prop where
  conditions : ∀ c ∈ p.allConditions, c.isTriviallyTrue = false ∧ c.isTriviallyFalse = false
  clauses : [] ∉ p.orClauses.getD []
  settled : p.state ≠ .conditional → p.hasClauses = false

lemma Normal.foldedHolds_eq {p : FilterPredicate} (h : p.Normal) (r : Record) :
    p.foldedHolds r = p.holds r := by
  have hc (c) (hc : c ∈ p.allConditions) : c.foldedHolds r = c.holds r :=
    foldedHolds_of_nontrivial (h.conditions c hc).1 (h.conditions c hc).2 r
  simp only [foldedHolds, holds]
  cases p.state with
  | matchAll => rfl
  | matchNone => rfl
  | conditional =>
    dsimp only
    congr 1
    · exact all_congr_of_mem fun c hm => hc c (mem_allConditions_of_conditions hm)
    · refine all_congr_of_mem fun clause hm => ?_
      have hne : clause.isEmpty = false := by
        cases clause with
        | nil => exact absurd hm h.clauses
        | cons c cs => rfl
      rw [clauseHolds, hne, Bool.false_or]
      exact any_congr_of_mem fun c hm' => hc c (mem_allConditions_of_clause hm hm')

lemma normalizeConditions_foldedHolds (p : FilterPredicate) (hs : p.state = .conditional)
    (r : Record) : p.normalizeConditions.foldedHolds r = p.foldedHolds r := by
  simp only [normalizeConditions]
  cases hp : p.conditions with
  | none => rfl
  | some conds =>
    dsimp only
    split_ifs with hf
    · obtain ⟨c, hc, htf⟩ := any_eq_true.mp hf
      have : conds.all (·.foldedHolds r) = false :=
        all_eq_false.mpr ⟨c, hc, by simp [foldedHolds_of_triviallyFalse htf]⟩
      simp [foldedHolds, hs, hp, this]
    · simp only [foldedHolds, hs, hp, compactTrivialTrueConditions_getD, Option.getD_some]
      rw [all_filter]
      congr 1
      refine all_congr_of_mem fun c _ => ?_
      cases ht : c.isTriviallyTrue <;> simp [Condition.foldedHolds, ht]

lemma removeTriviallyTrueOrClauses_foldedHolds (p : FilterPredicate) (r : Record) :
    p.removeTriviallyTrueOrClauses.foldedHolds r = p.foldedHolds r := by
  simp only [foldedHolds, removeTriviallyTrueOrClauses_state,
    removeTriviallyTrueOrClauses_conditions, removeTriviallyTrueOrClauses_getD]
  rw [all_filter]
  cases p.state with
  | matchAll => rfl
  | matchNone => rfl
  | conditional =>
    dsimp only
    congr 1
    refine all_congr_of_mem fun clause _ => ?_
    cases ht : clauseHasTriviallyTrue clause with
    | false => simp
    | true =>
      obtain ⟨c, hc, htc⟩ := any_eq_true.mp ht
      have : clause.any (·.foldedHolds r) = true :=
        any_eq_true.mpr ⟨c, hc, foldedHolds_of_triviallyTrue htc r⟩
      simp [this]

lemma compactFalseConditionsInOrClauses_foldedHolds (p : FilterPredicate)
    (hs : p.state = .conditional) (r : Record) :
    p.compactFalseConditionsInOrClauses.foldedHolds r = p.foldedHolds r := by
  simp only [compactFalseConditionsInOrClauses]
  cases hp : p.orClauses with
  | none => rfl
  | some clauses =>
    dsimp only
    cases hc : compactFalseClauses clauses with
    | none =>
      obtain ⟨clause, hm, hf⟩ := (compactFalseClauses_eq_none _).mp hc
      have : (clauses.all fun clause => clause.any (·.foldedHolds r)) = false := by
        refine all_eq_false.mpr ⟨clause, hm, ?_⟩
        simp only [any_eq_true, not_exists, not_and]
        intro c hcm
        simp [foldedHolds_of_triviallyFalse (all_eq_true.mp hf c hcm)]
      simp [foldedHolds, hs, hp, this]
    | some out =>
      obtain ⟨rfl, -⟩ := (compactFalseClauses_eq_some _ _).mp hc
      simp only [foldedHolds, hs, hp, Option.getD_some, all_map]
      congr 1
      refine all_congr_of_mem fun clause _ => ?_
      rw [Function.comp_apply, any_filter]
      refine any_congr_of_mem fun c _ => ?_
      cases hf : c.isTriviallyFalse with
      | false => simp
      | true => simp [foldedHolds_of_triviallyFalse hf]

lemma sortClauses_foldedHolds (p : FilterPredicate) (r : Record) :
    p.sortClauses.foldedHolds r = p.foldedHolds r := by
  have hcl : ((p.sortClauses.orClauses.getD []).all fun cl => cl.any (·.foldedHolds r)) =
      (p.orClauses.getD []).all fun cl => cl.any (·.foldedHolds r) := by
    rw [Bool.eq_iff_iff, all_eq_true, all_eq_true]
    simp only [mem_sortClauses_clauses, forall_exists_index, and_imp, forall_apply_eq_imp_iff₂,
      any_sortConditions]
  have hst : p.sortClauses.state = p.state := rfl
  simp only [foldedHolds, hst, sortClauses_conditions, all_sortConditions, hcl]

lemma settleState_foldedHolds (p : FilterPredicate) (hs : p.state = .conditional)
    (r : Record) : p.settleState.foldedHolds r = p.foldedHolds r := by
  cases hc : p.hasClauses with
  | true => simp [foldedHolds, settleState, hc, hs]
  | false =>
    simp only [hasClauses, Bool.or_eq_false_iff, decide_eq_false_iff_not, Nat.not_lt,
      Nat.le_zero, length_eq_zero_iff] at hc
    have : p.hasClauses = false := by simp [hasClauses, hc.1, hc.2]
    simp [foldedHolds, settleState, this, hs, hc.1, hc.2]

lemma normalizeConditions_state (p : FilterPredicate) (hs : p.state = .conditional) :
    p.normalizeConditions.state = .matchNone ∨ p.normalizeConditions.state = .conditional := by
  simp only [normalizeConditions]
  split
  · exact .inr hs
  · split_ifs
    · exact .inl rfl
    · exact .inr hs

lemma compactFalseConditionsInOrClauses_state (p : FilterPredicate) (hs : p.state = .conditional) :
    p.compactFalseConditionsInOrClauses.state = .matchNone ∨
      p.compactFalseConditionsInOrClauses.state = .conditional := by
  simp only [compactFalseConditionsInOrClauses]
  split
  · exact .inr hs
  · split
    · exact .inl rfl
    · exact .inr hs

lemma normalize_cases (p : FilterPredicate) : (p.state ≠ .conditional ∧ p.normalize = p.clearClauses) ∨
    ∃ q r, q = p.normalizeConditions ∧ r = q.removeTriviallyTrueOrClauses ∧ p.state = .conditional ∧
      ((q.state = .matchNone ∧ p.normalize = q) ∨
        (q.state = .conditional ∧
          ((r.orClauses = none ∧ p.normalize = r.settleState) ∨
            (r.compactFalseConditionsInOrClauses.state = .matchNone ∧
              p.normalize = r.compactFalseConditionsInOrClauses) ∨
            (r.compactFalseConditionsInOrClauses.state = .conditional ∧
              p.normalize = r.compactFalseConditionsInOrClauses.sortClauses.settleState)))) := by
  by_cases h₁ : p.state = .matchAll ∨ p.state = .matchNone
  · exact .inl ⟨by rcases h₁ with h | h <;> simp [h], by simp [normalize, h₁]⟩
  have hs : p.state = .conditional := by
    cases hp : p.state <;> simp_all
  refine .inr ⟨_, _, rfl, rfl, hs, ?_⟩
  rcases normalizeConditions_state p hs with hq | hq
  · exact .inl ⟨hq, by simp [normalize, hs, hq]⟩
  refine .inr ⟨hq, ?_⟩
  by_cases h₃ : p.normalizeConditions.orClauses.isSome ∧
      p.normalizeConditions.removeTriviallyTrueOrClauses.orClauses = none
  · exact .inl ⟨h₃.2, by simp [normalize, hs, hq, h₃]⟩
  refine .inr ?_
  rcases compactFalseConditionsInOrClauses_state
    p.normalizeConditions.removeTriviallyTrueOrClauses (by simpa using hq) with hf | hf
  · exact .inl ⟨hf, by simp [normalize, hs, hq, h₃, hf]⟩
  · exact .inr ⟨hf, by simp [normalize, hs, hq, h₃, hf]⟩

lemma normalize_foldedHolds (p : FilterPredicate) (rec : Record) :
    p.normalize.foldedHolds rec = p.foldedHolds rec := by
  rcases normalize_cases p with ⟨hs, hn⟩ | ⟨q, r, hqp, hrq, hs, hn⟩
  · rw [hn]
    cases hp : p.state <;> simp_all [foldedHolds, clearClauses]
  rw [← normalizeConditions_foldedHolds p hs rec, ← hqp]
  rcases hn with ⟨-, hn⟩ | ⟨hq, hn⟩
  · rw [hn]
  rw [← removeTriviallyTrueOrClauses_foldedHolds q rec, ← hrq]
  have hr : r.state = .conditional := by simpa [hrq] using hq
  rcases hn with ⟨-, hn⟩ | ⟨-, hn⟩ | ⟨hf, hn⟩
  · rw [hn, settleState_foldedHolds _ hr]
  · rw [hn, compactFalseConditionsInOrClauses_foldedHolds _ hr]
  · have hsort : r.compactFalseConditionsInOrClauses.sortClauses.state = .conditional := hf
    rw [hn, settleState_foldedHolds _ hsort, sortClauses_foldedHolds,
      compactFalseConditionsInOrClauses_foldedHolds _ hr]

/-- No constant condition in the conjunction. -/
def PlainConditions (p : FilterPredicate) : Prop :=
  ∀ c ∈ p.conditions.getD [], c.isTriviallyTrue = false ∧ c.isTriviallyFalse = false

lemma normalizeConditions_plain (p : FilterPredicate) : p.normalizeConditions.PlainConditions := by
  intro c hc
  simp only [normalizeConditions] at hc
  cases hp : p.conditions with
  | none => simp [hp] at hc
  | some conds =>
    simp only [hp] at hc
    split_ifs at hc with hf
    · simp [clearClauses] at hc
    · rw [compactTrivialTrueConditions_getD, mem_filter] at hc
      refine ⟨by simpa using hc.2, ?_⟩
      simp only [any_eq_true, not_exists, not_and] at hf
      simpa using hf c hc.1

lemma compactFalseConditionsInOrClauses_clauses (p : FilterPredicate)
    (h : p.compactFalseConditionsInOrClauses.state = .conditional) :
    p.compactFalseConditionsInOrClauses.conditions = p.conditions ∧
    p.compactFalseConditionsInOrClauses.orClauses.getD [] =
      (p.orClauses.getD []).map (List.filter fun c => !c.isTriviallyFalse) ∧
    [] ∉ p.compactFalseConditionsInOrClauses.orClauses.getD [] := by
  simp only [compactFalseConditionsInOrClauses] at h ⊢
  cases hp : p.orClauses with
  | none => simp [hp]
  | some clauses =>
    simp only [hp] at h ⊢
    cases hc : compactFalseClauses clauses with
    | none => simp [hc] at h
    | some out =>
      obtain ⟨rfl, hne⟩ := (compactFalseClauses_eq_some _ _).mp hc
      exact ⟨rfl, rfl, hne⟩

lemma sortConditions_eq_nil (conds : List Condition) : sortConditions conds = [] ↔ conds = [] := by
  rw [← length_eq_zero_iff, ← length_eq_zero_iff, sortConditions, length_insertionSort]

lemma normalizeConditions_matchNone (p : FilterPredicate) (hs : p.state = .conditional)
    (h : p.normalizeConditions.state = .matchNone) :
    p.normalizeConditions.conditions = none ∧ p.normalizeConditions.orClauses = none := by
  simp only [normalizeConditions] at h ⊢
  cases hp : p.conditions with
  | none => simp [hp, hs] at h
  | some conds =>
    simp only [hp] at h ⊢
    split_ifs at h ⊢ with hf
    · simp [clearClauses]
    · simp [hs] at h

lemma compactFalseConditionsInOrClauses_matchNone (p : FilterPredicate)
    (hs : p.state = .conditional) (h : p.compactFalseConditionsInOrClauses.state = .matchNone) :
    p.compactFalseConditionsInOrClauses.conditions = none ∧
      p.compactFalseConditionsInOrClauses.orClauses = none := by
  simp only [compactFalseConditionsInOrClauses] at h ⊢
  cases hp : p.orClauses with
  | none => simp [hp, hs] at h
  | some clauses =>
    simp only [hp] at h ⊢
    cases hc : compactFalseClauses clauses with
    | none => simp [clearClauses]
    | some out => simp [hc, hs] at h

lemma normal_of_none {p : FilterPredicate} (hc : p.conditions = none) (ho : p.orClauses = none) : p.Normal :=
  ⟨by simp [allConditions, hc, ho], by simp [ho], by simp [hasClauses, hc, ho]⟩

lemma settleState_settled (p : FilterPredicate) (h : p.settleState.state ≠ .conditional) :
    p.settleState.hasClauses = false := by
  have hs : p.settleState.hasClauses = p.hasClauses := rfl
  rw [hs]
  cases hc : p.hasClauses with
  | false => rfl
  | true => simp [settleState, hc] at h

lemma normalize_normal (p : FilterPredicate) : p.normalize.Normal := by
  rcases normalize_cases p with ⟨-, hn⟩ | ⟨q, r, hq, hr, hs, hn⟩
  · rw [hn]
    exact normal_of_none rfl rfl
  have hqp : q.PlainConditions := hq ▸ normalizeConditions_plain p
  have hrp : r.PlainConditions := by
    intro c hc
    rw [hr, removeTriviallyTrueOrClauses_conditions] at hc
    exact hqp c hc
  rcases hn with ⟨hst, hn⟩ | ⟨hst, hn⟩
  · obtain ⟨hc, ho⟩ := normalizeConditions_matchNone p hs (hq ▸ hst)
    rw [hn, hq]
    exact normal_of_none hc ho
  have hrs : r.state = .conditional := by simpa [hr] using hst
  rcases hn with ⟨hnone, hn⟩ | ⟨hf, hn⟩ | ⟨hf, hn⟩
  · rw [hn]
    refine ⟨fun c hc => hrp c ?_, by simp [settleState, hnone], settleState_settled r⟩
    simpa [allConditions, settleState, hnone] using hc
  · obtain ⟨hc, ho⟩ := compactFalseConditionsInOrClauses_matchNone r hrs hf
    rw [hn]
    exact normal_of_none hc ho
  · obtain ⟨hcond, hcl, hne⟩ := compactFalseConditionsInOrClauses_clauses r hf
    rw [hn]
    refine ⟨?_, ?_, settleState_settled _⟩
    · intro c hc
      rcases mem_append.mp hc with hc | hc
      · refine hrp c ?_
        rw [← hcond, ← mem_sortConditions, ← sortClauses_conditions]
        exact hc
      · obtain ⟨clause, hm, hc⟩ := mem_flatten.mp hc
        obtain ⟨old, ho, rfl⟩ := (mem_sortClauses_clauses _ clause).mp hm
        rw [mem_sortConditions] at hc
        rw [hcl, mem_map] at ho
        obtain ⟨source, hsrc, rfl⟩ := ho
        rw [hr, removeTriviallyTrueOrClauses_getD, mem_filter] at hsrc
        obtain ⟨hmem, hnf⟩ := mem_filter.mp hc
        refine ⟨?_, by simpa using hnf⟩
        have hnt := hsrc.2
        simp only [clauseHasTriviallyTrue, Bool.not_eq_true', any_eq_false] at hnt
        simpa using hnt c hmem
    · intro hm
      obtain ⟨old, ho, he⟩ := (mem_sortClauses_clauses _ []).mp hm
      rw [sortConditions_eq_nil] at he
      exact hne (he ▸ ho)

lemma mem_of_mem_normalizeConditions (p : FilterPredicate) (c : Condition)
    (h : c ∈ p.normalizeConditions.allConditions) : c ∈ p.allConditions := by
  simp only [normalizeConditions] at h
  cases hp : p.conditions with
  | none => simpa [hp] using h
  | some conds =>
    simp only [hp] at h
    split_ifs at h
    · simp [allConditions, clearClauses] at h
    · rcases mem_append.mp h with h | h
      · rw [compactTrivialTrueConditions_getD] at h
        exact mem_allConditions_of_conditions (by simpa [hp] using mem_of_mem_filter h)
      · exact mem_append_right _ h

lemma mem_of_mem_normalize (p : FilterPredicate) (c : Condition)
    (h : c ∈ p.normalize.allConditions) : c ∈ p.allConditions := by
  rcases normalize_cases p with ⟨-, hn⟩ | ⟨q, r, hq, hr, hs, hn⟩
  · simp [hn, allConditions, clearClauses] at h
  have hqp (d) (hd : d ∈ q.allConditions) : d ∈ p.allConditions :=
    mem_of_mem_normalizeConditions p d (hq ▸ hd)
  have hrq (d) (hd : d ∈ r.allConditions) : d ∈ q.allConditions := by
    rcases mem_append.mp hd with hd | hd
    · rw [hr, removeTriviallyTrueOrClauses_conditions] at hd
      exact mem_allConditions_of_conditions hd
    · obtain ⟨clause, hm, hd⟩ := mem_flatten.mp hd
      rw [hr, removeTriviallyTrueOrClauses_getD, mem_filter] at hm
      exact mem_allConditions_of_clause hm.1 hd
  rcases hn with ⟨-, hn⟩ | ⟨hst, ⟨-, hn⟩ | ⟨hf, hn⟩ | ⟨hf, hn⟩⟩
  · exact hqp c (hn ▸ h)
  · refine hqp c (hrq c ?_)
    rw [hn] at h
    exact h
  · have hrs : r.state = .conditional := by simpa [hr] using hst
    obtain ⟨hc, ho⟩ := compactFalseConditionsInOrClauses_matchNone r hrs hf
    rw [hn] at h
    simp [allConditions, hc, ho] at h
  · obtain ⟨hcond, hcl, -⟩ := compactFalseConditionsInOrClauses_clauses r hf
    refine hqp c (hrq c ?_)
    rw [hn] at h
    rcases mem_append.mp h with h | h
    · have h' : c ∈ r.compactFalseConditionsInOrClauses.sortClauses.conditions.getD [] := h
      rw [sortClauses_conditions, mem_sortConditions, hcond] at h'
      exact mem_allConditions_of_conditions h'
    · obtain ⟨clause, hm, hc⟩ := mem_flatten.mp h
      obtain ⟨old, ho, rfl⟩ := (mem_sortClauses_clauses _ clause).mp hm
      rw [mem_sortConditions] at hc
      rw [hcl, mem_map] at ho
      obtain ⟨source, hsrc, rfl⟩ := ho
      exact mem_allConditions_of_clause hsrc (mem_of_mem_filter hc)

end FilterPredicate
end ZyncBase
