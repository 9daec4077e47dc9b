import ZyncBase.Lib.Keyset
import ZyncBase.Query.HashContext
import ZyncBase.Query.Normalize

/-! The order by which normalisation sorts conditions and clauses, and how far normalisation is
canonical: what it makes of permuted predicates, and of a predicate it has already normalised. -/
namespace ZyncBase

open AssocMap CanonicalSort Keyset List Condition
open Option (bind_some getD_some isNone_iff_eq_none isSome_map map_congr map_none map_some not_isSome)

lemma Operator.toNat_inj {a b : Operator} : a.toNat = b.toNat ↔ a = b := by
  constructor
  · intro h
    have := congrArg Operator.ofNat? h
    rwa [Operator.ofNat?_toNat, Operator.ofNat?_toNat, Option.some.injEq] at this
  · rintro rfl
    rfl

lemma FieldType.toNat_inj {a b : FieldType} : a.toNat = b.toNat ↔ a = b := by
  cases a <;> cases b <;> decide

namespace Condition

def itemsRank (c : Condition) : ℕ := c.itemsType.elim 0 fun t => t.toNat + 1

def compareOperands (a b : Condition) : Ordering :=
  List.compareLex Value.totalOrder a.value.toList b.value.toList

/-- The three-way form of `conditionLessThan`. -/
def order : Condition → Condition → Ordering :=
  compareLex (compareOn fieldIndex)
    (compareLex (compareOn fun c => c.op.toNat)
      (compareLex (compareOn fun c => c.fieldType.toNat)
        (compareLex (compareOn itemsRank) compareOperands)))

instance : Std.TransCmp compareOperands :=
  transCmp_key (inferInstance : Std.TransCmp (List.compareLex Value.totalOrder))
    fun c : Condition => c.value.toList

instance : Std.TransCmp order := by
  unfold order
  infer_instance

lemma itemsRank_inj {a b : Condition} : a.itemsRank = b.itemsRank ↔ a.itemsType = b.itemsType := by
  simp only [itemsRank]
  cases a.itemsType <;> cases b.itemsType <;> simp [FieldType.toNat_inj]

lemma compareOperands_lt (a b : Condition) :
    compareOperands a b = .lt ↔ conditionValueLessThan a.value b.value = true := by
  simp only [compareOperands, conditionValueLessThan]
  cases a.value <;> cases b.value <;>
    simp [List.compareLex_nil_cons, List.compareLex_nil_nil, List.compareLex_cons_nil,
      List.compareLex_cons_cons]

lemma compareOperands_eq (a b : Condition) :
    compareOperands a b = .eq ↔ sameOption Value.eql a.value b.value = true := by
  simp only [compareOperands]
  cases a.value <;> cases b.value <;>
    simp [List.compareLex_nil_cons, List.compareLex_nil_nil, List.compareLex_cons_nil,
      List.compareLex_cons_cons, sameOption, Value.eql_iff]

lemma order_eq_iff (a b : Condition) : order a b = .eq ↔ eqlCondition a b = true := by
  rw [eqlCondition_iff]
  simp only [order, compareLex_eq_eq, compareOn, compare_eq_iff_eq, Operator.toNat_inj,
    FieldType.toNat_inj, itemsRank_inj, compareOperands_eq]

end Condition

lemma conditionLessThan_iff (a b : Condition) : conditionLessThan a b = true ↔ a.order b = .lt := by
  have hlt {x y : ℕ} {o : Ordering} : (compare x y).then o = .lt ↔ x < y ∨ x = y ∧ o = .lt := by
    rw [Ordering.then_eq_lt, compare_lt_iff_lt, compare_eq_iff_eq]
  simp only [order, compareLex, compareOn, hlt, Operator.toNat_inj,
    FieldType.toNat_inj, compareOperands_lt]
  simp only [conditionLessThan, itemsRank]
  by_cases hf : a.fieldIndex = b.fieldIndex
  · by_cases ho : a.op = b.op
    · by_cases ht : a.fieldType = b.fieldType
      · cases hi : a.itemsType with
        | none =>
          cases hj : b.itemsType with
          | none => simp [hf, ho, ht]
          | some j => simp [hf, ho, ht]
        | some i =>
          cases hj : b.itemsType with
          | none => simp [hf, ho, ht]
          | some j =>
            by_cases hij : i = j
            · simp [hf, ho, ht, hij]
            · have hne : i.toNat ≠ j.toNat := mt FieldType.toNat_inj.mp hij
              simp [hf, ho, ht, hij, hne]
      · simp [hf, ho, ht]
    · simp [hf, ho]
  · simp [hf]

lemma orClauseLessThan_iff (as bs : OrClause) :
    orClauseLessThan as bs = true ↔ List.compareLex order as bs = .lt := by
  induction as generalizing bs with
  | nil => cases bs <;> simp [orClauseLessThan, List.compareLex_nil_cons, List.compareLex_nil_nil]
  | cons a as ih =>
    cases bs with
    | nil => simp [orClauseLessThan, List.compareLex_cons_nil]
    | cons b bs =>
      rw [orClauseLessThan, List.compareLex_cons_cons]
      cases hc : a.order b with
      | lt => simp [(conditionLessThan_iff a b).mpr hc]
      | gt =>
        have hlt : conditionLessThan a b = false := by
          rw [← Bool.not_eq_true, conditionLessThan_iff, hc]
          simp
        have hgt := (conditionLessThan_iff b a).mpr (Std.OrientedCmp.lt_of_gt hc)
        simp [hlt, hgt]
      | eq =>
        have hlt : conditionLessThan a b = false := by
          rw [← Bool.not_eq_true, conditionLessThan_iff, hc]
          simp
        have hgt : conditionLessThan b a = false := by
          rw [← Bool.not_eq_true, conditionLessThan_iff, Std.OrientedCmp.eq_symm hc]
          simp
        simp [hlt, hgt, ih]

namespace FilterPredicate

lemma not_lessThan_iff (a b : Condition) : (!conditionLessThan b a) = (a.order b).isLE := by
  have hswap : b.order a = (a.order b).swap := Std.OrientedCmp.eq_swap
  rw [Bool.eq_iff_iff, Bool.not_eq_true', ← Bool.not_eq_true, conditionLessThan_iff, hswap]
  cases a.order b <;> simp

lemma sortConditions_eq_sort (conds : List Condition) : sortConditions conds = sort order conds := by
  simp only [sortConditions, sort, not_lessThan_iff]

lemma not_clauseLessThan_iff (a b : OrClause) :
    (!orClauseLessThan b a) = (List.compareLex order a b).isLE := by
  have hswap : List.compareLex order b a = (List.compareLex order a b).swap :=
    Std.OrientedCmp.eq_swap
  rw [Bool.eq_iff_iff, Bool.not_eq_true', ← Bool.not_eq_true, orClauseLessThan_iff, hswap]
  cases List.compareLex order a b <;> simp

end FilterPredicate

/-- Clauses in another order, each with its conditions in another order. -/
def PermutedClauses (cs ds : List OrClause) : Prop :=
  ∃ es, cs.Perm es ∧ List.Forall₂ List.Perm es ds

namespace PermutedClauses

variable {γ : Type*} {cs ds : List OrClause}

lemma map_perm {f : OrClause → γ} (hf : ∀ a b : OrClause, a.Perm b → f a = f b)
    (h : PermutedClauses cs ds) : (cs.map f).Perm (ds.map f) := by
  obtain ⟨es, hp, hall⟩ := h
  have heq : es.map f = ds.map f := by
    clear hp
    induction hall with
    | nil => rfl
    | cons hab _ ih => rw [map_cons, map_cons, hf _ _ hab, ih]
  exact heq ▸ hp.map f

lemma filter {g : OrClause → Bool} (hg : ∀ a b : OrClause, a.Perm b → g a = g b)
    (h : PermutedClauses cs ds) : PermutedClauses (cs.filter g) (ds.filter g) := by
  obtain ⟨es, hp, hall⟩ := h
  refine ⟨es.filter g, hp.filter g, ?_⟩
  clear hp
  induction hall with
  | nil => exact .nil
  | cons hab _ ih =>
    rw [filter_cons, filter_cons, hg _ _ hab]
    split_ifs
    · exact .cons hab ih
    · exact ih

lemma any_eq {g : OrClause → Bool} (hg : ∀ a b : OrClause, a.Perm b → g a = g b)
    (h : PermutedClauses cs ds) : cs.any g = ds.any g := by
  have hid (l : List OrClause) : l.any g = (l.map g).any id := by rw [any_map]; rfl
  rw [hid, hid, (h.map_perm hg).any_eq]

lemma all_eq {g : OrClause → Bool} (hg : ∀ a b : OrClause, a.Perm b → g a = g b)
    (h : PermutedClauses cs ds) : cs.all g = ds.all g := by
  have hid (l : List OrClause) : l.all g = (l.map g).all id := by rw [all_map]; rfl
  rw [hid, hid, (h.map_perm hg).all_eq]

lemma eq_nil_iff (h : PermutedClauses cs ds) : cs = [] ↔ ds = [] := by
  have hlen : cs.length = ds.length := by
    simpa using (h.map_perm (f := fun _ => ()) fun _ _ _ => rfl).length_eq
  rw [← length_eq_zero_iff, ← length_eq_zero_iff, hlen]

end PermutedClauses

namespace FilterPredicate

/-- The same conditions, clauses and alternatives in another order. -/
structure Permuted (p q : FilterPredicate) : Prop where
  state : p.state = q.state
  conditions : (p.conditions.getD []).Perm (q.conditions.getD [])
  clauses : PermutedClauses (p.orClauses.getD []) (q.orClauses.getD [])

/-- Settled from the start, or settled as false by folding. -/
def isConstant (p : FilterPredicate) : Bool :=
  p.state ≠ .conditional || (p.conditions.getD []).any isTriviallyFalse ||
    (p.orClauses.getD []).any fun clause =>
      !clauseHasTriviallyTrue clause && clause.all isTriviallyFalse

/-- All clauses are dropped, and there were some: normalisation returns before it sorts. -/
def skipsSorting (p : FilterPredicate) : Bool :=
  !(p.orClauses.getD []).isEmpty && (p.orClauses.getD []).all clauseHasTriviallyTrue

/-- The conditions that folding leaves. -/
def keptConditions (p : FilterPredicate) : List Condition :=
  (p.conditions.getD []).filter fun c => !c.isTriviallyTrue

/-- The clauses that folding leaves. -/
def keptClauses (p : FilterPredicate) : List OrClause :=
  ((p.orClauses.getD []).filter fun c => !clauseHasTriviallyTrue c).map
    (List.filter fun c => !c.isTriviallyFalse)

def folded (p : FilterPredicate) : FilterPredicate :=
  { p with
    conditions := p.conditions.bind compactTrivialTrueConditions
    orClauses := if p.skipsSorting then none else p.orClauses.map fun _ => p.keptClauses }

lemma isConstant_eq_false {p : FilterPredicate} (h : p.isConstant = false) :
    p.state = .conditional ∧ (p.conditions.getD []).any isTriviallyFalse = false ∧
      ∀ clause ∈ p.orClauses.getD [],
        (!clauseHasTriviallyTrue clause && clause.all isTriviallyFalse) = false := by
  simp only [isConstant, Bool.or_eq_false_iff, decide_eq_false_iff_not, ne_eq, not_not,
    any_eq_false, Bool.not_eq_true] at h
  exact ⟨h.1.1, by simpa using h.1.2, h.2⟩

lemma normalizeConditions_of_any {p : FilterPredicate}
    (h : (p.conditions.getD []).any isTriviallyFalse = true) :
    p.normalizeConditions = { state := .matchNone } := by
  cases hc : p.conditions with
  | none => simp [hc] at h
  | some conds =>
    rw [hc, getD_some] at h
    simp only [normalizeConditions, hc, clearClauses, if_pos h]

lemma normalizeConditions_of_not_any {p : FilterPredicate}
    (h : (p.conditions.getD []).any isTriviallyFalse = false) :
    p.normalizeConditions = { p with conditions := p.conditions.bind compactTrivialTrueConditions } := by
  cases hc : p.conditions with
  | none =>
    simp only [normalizeConditions, hc, Option.bind_none]
    rw [← hc]
  | some conds =>
    rw [hc] at h
    simp only [normalizeConditions, hc]
    rw [if_neg (by simpa using h)]
    rfl

lemma removeTriviallyTrueOrClauses_eq (p : FilterPredicate) : p.removeTriviallyTrueOrClauses =
    { p with
      orClauses := if p.skipsSorting then none
          else p.orClauses.map (List.filter fun c => !clauseHasTriviallyTrue c) } := by
  cases hc : p.orClauses with
  | none =>
    have hs : p.skipsSorting = false := by simp [skipsSorting, hc]
    simp only [removeTriviallyTrueOrClauses, hc, hs, map_none]
    rw [← hc]
    rfl
  | some clauses =>
    simp only [removeTriviallyTrueOrClauses, hc, skipsSorting, getD_some, map_some]
    by_cases hlt : (clauses.filter fun c => !clauseHasTriviallyTrue c).length < clauses.length
    · rw [if_pos hlt]
      by_cases h0 : (clauses.filter fun c => !clauseHasTriviallyTrue c).length = 0
      · have hne : clauses.isEmpty = false := by
          cases clauses with
          | nil => cases hlt
          | cons c cs => rfl
        have hall : clauses.all clauseHasTriviallyTrue = true := by
          rw [length_eq_zero_iff, filter_eq_nil_iff] at h0
          simpa using h0
        simp [h0, hne, hall]
      · have hall : clauses.all clauseHasTriviallyTrue = false := by
          rw [length_eq_zero_iff, filter_eq_nil_iff] at h0
          simpa using h0
        simp [h0, hall]
    · have heq : clauses.filter (fun c => !clauseHasTriviallyTrue c) = clauses := by
        rw [filter_eq_self, ← length_filter_eq_length_iff]
        exact le_antisymm (length_filter_le _ _) (not_lt.mp hlt)
      have hskip : (!clauses.isEmpty && clauses.all clauseHasTriviallyTrue) = false := by
        cases clauses with
        | nil => rfl
        | cons c cs =>
          have hc := (filter_eq_self.mp heq) c mem_cons_self
          simp_all
      simp only [heq, lt_irrefl, if_false, hskip, Bool.false_eq_true]
      rw [← hc]

lemma compactFalseConditionsInOrClauses_eq {p : FilterPredicate}
    (h : ∀ clause ∈ p.orClauses.getD [], clause.all isTriviallyFalse = false) :
    p.compactFalseConditionsInOrClauses =
      { p with
        orClauses := p.orClauses.map (List.map (List.filter fun c => !c.isTriviallyFalse)) } := by
  cases hc : p.orClauses with
  | none =>
    simp only [compactFalseConditionsInOrClauses, hc, map_none]
    rw [← hc]
  | some clauses =>
    rw [hc, getD_some] at h
    have hout : compactFalseClauses clauses =
        some (clauses.map (List.filter fun c => !c.isTriviallyFalse)) := by
      rw [compactFalseClauses_eq_some]
      refine ⟨rfl, fun hm => ?_⟩
      obtain ⟨clause, hm, hnil⟩ := mem_map.mp hm
      rw [filter_eq_nil_iff] at hnil
      have hall := h clause hm
      simp only [all_eq_false] at hall
      obtain ⟨c, hcm, hf⟩ := hall
      exact hnil c hcm (by simpa using hf)
    simp only [compactFalseConditionsInOrClauses, hc, hout, map_some]

lemma firstPasses_eq {p : FilterPredicate} (h : (p.conditions.getD []).any isTriviallyFalse = false) :
    p.normalizeConditions.removeTriviallyTrueOrClauses =
      { p with
        conditions := p.conditions.bind compactTrivialTrueConditions
        orClauses := if p.skipsSorting then none
          else p.orClauses.map (List.filter fun c => !clauseHasTriviallyTrue c) } := by
  rw [normalizeConditions_of_not_any h, removeTriviallyTrueOrClauses_eq]
  rfl

lemma normalize_of_constant {p : FilterPredicate} (h : p.isConstant = true) :
    p.normalize = { state := if p.state = .matchAll then .matchAll else .matchNone } := by
  by_cases hs : p.state = .conditional
  · by_cases ha : (p.conditions.getD []).any isTriviallyFalse = true
    · simp [normalize, hs, normalizeConditions_of_any ha]
    · rw [Bool.not_eq_true] at ha
      have hex : ∃ clause ∈ p.orClauses.getD [], clauseHasTriviallyTrue clause = false ∧
          clause.all isTriviallyFalse = true := by
        simpa only [isConstant, hs, ne_eq, not_true, decide_false, ha, Bool.false_or,
          any_eq_true, Bool.and_eq_true, Bool.not_eq_true'] using h
      obtain ⟨clause, hm, ht, hf⟩ := hex
      have hskip : p.skipsSorting = false := by
        have hall : (p.orClauses.getD []).all clauseHasTriviallyTrue = false :=
          all_eq_false.mpr ⟨clause, hm, by simp [ht]⟩
        rw [skipsSorting, hall, Bool.and_false]
      obtain ⟨clauses, hc⟩ : ∃ clauses, p.orClauses = some clauses := by
        cases hc : p.orClauses with
        | none => simp [hc] at hm
        | some clauses => exact ⟨clauses, rfl⟩
      rw [hc, getD_some] at hm
      have hnone : compactFalseClauses (clauses.filter fun c => !clauseHasTriviallyTrue c) =
          none :=
        (compactFalseClauses_eq_none _).mpr ⟨clause, mem_filter.mpr ⟨hm, by simp [ht]⟩, hf⟩
      have hq := normalizeConditions_of_not_any ha
      have hr : p.normalizeConditions.removeTriviallyTrueOrClauses.orClauses =
          some (clauses.filter fun c => !clauseHasTriviallyTrue c) := by
        rw [firstPasses_eq ha, hskip, hc]
        rfl
      have hqs : p.normalizeConditions.state = .conditional := by rw [hq]; exact hs
      simp only [normalize, hs, hqs, hr, compactFalseConditionsInOrClauses, hnone, clearClauses]
      simp
  · cases hp : p.state with
    | conditional => exact absurd hp hs
    | matchAll => simp [normalize, hp, clearClauses]
    | matchNone => simp [normalize, hp, clearClauses]

lemma normalize_of_not_constant {p : FilterPredicate} (h : p.isConstant = false) :
    p.normalize = if p.skipsSorting then p.folded.settleState
      else p.folded.sortClauses.settleState := by
  obtain ⟨hs, ha, hcl⟩ := isConstant_eq_false h
  have hq := normalizeConditions_of_not_any ha
  have hqs : p.normalizeConditions.state = .conditional := by rw [hq]; exact hs
  have hqo : p.normalizeConditions.orClauses = p.orClauses := by rw [hq]
  have hr := firstPasses_eq ha
  cases hskip : p.skipsSorting with
  | true =>
    have hsome : p.orClauses.isSome = true := by
      cases hc : p.orClauses with
      | none => simp [skipsSorting, hc] at hskip
      | some clauses => rfl
    rw [hskip, if_pos rfl] at hr
    simp only [normalize, hs, hqs, hqo, hsome, hr, folded, hskip]
    simp
  | false =>
    simp only [hskip, Bool.false_eq_true, if_false] at hr
    have hnone : ¬ (p.normalizeConditions.orClauses.isSome = true ∧
        p.normalizeConditions.removeTriviallyTrueOrClauses.orClauses = none) := by
      rw [hqo, hr]
      cases p.orClauses <;> simp
    have hfold : compactFalseConditionsInOrClauses
        p.normalizeConditions.removeTriviallyTrueOrClauses = p.folded := by
      rw [compactFalseConditionsInOrClauses_eq]
      · rw [hr, folded, hskip]
        cases hc : p.orClauses <;> simp [keptClauses, hc]
      · intro clause hm
        rw [hr] at hm
        cases hc : p.orClauses with
        | none => simp [hc] at hm
        | some clauses =>
          simp only [hc, map_some, getD_some, mem_filter] at hm
          have hkept := hcl clause (by simpa [hc] using hm.1)
          rwa [hm.2, Bool.true_and] at hkept
    have hfs : p.folded.state = .conditional := hs
    simp only [normalize, hs, hqs, hnone, hfold, hfs]
    simp

section Folded

variable (p : FilterPredicate)

lemma folded_conditions_getD : p.folded.conditions.getD [] = p.keptConditions := by
  cases hc : p.conditions with
  | none => simp [folded, keptConditions, hc]
  | some conds => simp [folded, keptConditions, hc, compactTrivialTrueConditions_getD]

lemma folded_conditions_isSome : p.folded.conditions.isSome =
    (!p.keptConditions.isEmpty || (p.conditions.getD []).isEmpty && p.conditions.isSome) := by
  cases hc : p.conditions with
  | none => simp [folded, keptConditions, hc]
  | some conds =>
    simp only [folded, keptConditions, hc, bind_some, getD_some, compactTrivialTrueConditions]
    split_ifs with hl h0
    · rw [List.filter_eq_self.mpr (length_filter_eq_length_iff.mp hl)]
      simp
    · rw [length_eq_zero_iff.mp h0]
      cases conds with
      | nil => simp at hl
      | cons c cs => rfl
    · rw [length_eq_zero_iff, ← List.isEmpty_iff, Bool.not_eq_true] at h0
      simp [h0]

lemma folded_orClauses_getD : p.folded.orClauses.getD [] = p.keptClauses := by
  cases hs : p.skipsSorting with
  | false => cases hc : p.orClauses <;> simp [folded, hs, hc, keptClauses]
  | true =>
    have hkept : (p.orClauses.getD []).filter (fun c => !clauseHasTriviallyTrue c) = [] := by
      rw [skipsSorting, Bool.and_eq_true, all_eq_true] at hs
      rw [filter_eq_nil_iff]
      intro c hm
      simp [hs.2 c hm]
    simp [folded, hs, keptClauses, hkept]

lemma folded_orClauses_isSome : p.folded.orClauses.isSome = (!p.skipsSorting && p.orClauses.isSome) := by
  cases hs : p.skipsSorting <;> simp [folded, hs]

lemma sortClauses_orClauses : p.sortClauses.orClauses.getD [] =
    sort (List.compareLex order) ((p.orClauses.getD []).map sortConditions) := by
  cases hc : p.orClauses with
  | none => rw [sortClauses, hc]; rfl
  | some clauses =>
    simp only [sortClauses, hc, map_some, getD_some, sort, not_clauseLessThan_iff]

lemma hasClauses_eq : p.hasClauses = (!(p.conditions.getD []).isEmpty || !(p.orClauses.getD []).isEmpty) := by
  cases hc : p.conditions.getD [] <;> cases ho : p.orClauses.getD [] <;>
    simp [hasClauses, hc, ho]

end Folded

lemma eqlCondition_iff_row (a b : Condition) : eqlCondition a b = true ↔ a.order = b.order := by
  rw [← order_eq_iff, eq_iff_row]

lemma sameConditions_iff (as bs : List Condition) :
    sameList eqlCondition as bs = true ↔ as.map order = bs.map order :=
  sameList_iff_map eqlCondition_iff_row as bs

lemma sameClauses_iff (cs ds : List OrClause) : sameList (sameList eqlCondition) cs ds = true ↔
    cs.map (List.map order) = ds.map (List.map order) :=
  sameList_iff_map sameConditions_iff cs ds

lemma map_sortConditions_eq {as bs : List Condition} (h : as.Perm bs) :
    (sortConditions as).map order = (sortConditions bs).map order := by
  rw [sortConditions_eq_sort, sortConditions_eq_sort]
  exact map_sort_eq (@eq_iff_row _ order _) (h.map _)

namespace Permuted

variable {p q : FilterPredicate} (h : p.Permuted q)
include h

lemma isConstant_eq : p.isConstant = q.isConstant := by
  rw [isConstant, isConstant, h.state, h.conditions.any_eq, h.clauses.any_eq fun a b hab => by
      rw [clauseHasTriviallyTrue, clauseHasTriviallyTrue, hab.any_eq, hab.all_eq]]

lemma clauses_isEmpty : (p.orClauses.getD []).isEmpty = (q.orClauses.getD []).isEmpty := by
  rw [Bool.eq_iff_iff, List.isEmpty_iff, List.isEmpty_iff]
  exact h.clauses.eq_nil_iff

lemma skipsSorting_eq : p.skipsSorting = q.skipsSorting := by
  rw [skipsSorting, skipsSorting, h.clauses_isEmpty, h.clauses.all_eq fun a b hab => by
      rw [clauseHasTriviallyTrue, clauseHasTriviallyTrue, hab.any_eq]]

lemma keptConditions_perm : p.keptConditions.Perm q.keptConditions := h.conditions.filter _

lemma keptClauses_perm : ((p.keptClauses.map sortConditions).map (List.map order)).Perm
    ((q.keptClauses.map sortConditions).map (List.map order)) := by
  simp only [keptClauses, map_map]
  refine (h.clauses.filter fun a b hab => ?_).map_perm fun a b hab => ?_
  · rw [clauseHasTriviallyTrue, clauseHasTriviallyTrue, hab.any_eq]
  · exact map_sortConditions_eq (hab.filter _)

lemma keptConditions_isEmpty : p.keptConditions.isEmpty = q.keptConditions.isEmpty :=
  h.keptConditions_perm.isEmpty_eq

lemma keptClauses_isEmpty : p.keptClauses.isEmpty = q.keptClauses.isEmpty := by
  have hlen := h.keptClauses_perm.length_eq
  simp only [length_map] at hlen
  rw [Bool.eq_iff_iff, List.isEmpty_iff, List.isEmpty_iff, ← length_eq_zero_iff, hlen, length_eq_zero_iff]

end Permuted

/-- Where a predicate has no conditions, or no clauses, the other one has an absent list just when
it has one. -/
def SamePresence (p q : FilterPredicate) : Prop :=
  (p.conditions.getD [] = [] → p.conditions.isSome = q.conditions.isSome) ∧
    (p.orClauses.getD [] = [] → p.orClauses.isSome = q.orClauses.isSome)

instance (p q : FilterPredicate) : Decidable (p.SamePresence q) :=
  inferInstanceAs (Decidable (_ ∧ _))

/-- When the sort is skipped, the conditions that are left already stand in the same order. -/
def SortsLike (p q : FilterPredicate) : Prop :=
  p.isConstant = true ∨
    (SamePresence p q ∧
      (p.skipsSorting = true → sameList eqlCondition p.keptConditions q.keptConditions = true))

/-- When the sort is skipped, the conditions that are left are already sorted; and when nothing
is left, no empty list is. -/
def Settles (p : FilterPredicate) : Prop :=
  p.isConstant = true ∨
    ((p.keptConditions = [] → p.keptClauses = [] →
        p.conditions ≠ some [] ∧ p.orClauses ≠ some []) ∧
      (p.skipsSorting = true →
        p.keptConditions.Pairwise fun a b => conditionLessThan b a = false))

@[simp] lemma settleState_conditions (p : FilterPredicate) : p.settleState.conditions = p.conditions := rfl

@[simp] lemma settleState_orClauses (p : FilterPredicate) : p.settleState.orClauses = p.orClauses := rfl

@[simp] lemma sortClauses_conditions_isSome (p : FilterPredicate) :
    p.sortClauses.conditions.isSome = p.conditions.isSome := isSome_map

@[simp] lemma sortClauses_orClauses_isSome (p : FilterPredicate) :
    p.sortClauses.orClauses.isSome = p.orClauses.isSome := isSome_map

@[simp] lemma hasClauses_sortClauses (p : FilterPredicate) : p.sortClauses.hasClauses = p.hasClauses := by
  rw [hasClauses_eq, hasClauses_eq, sortClauses_conditions, sortClauses_orClauses]
  congr 2
  · exact (perm_insertionSort _ _).isEmpty_eq
  · rw [(perm_sort _ _).isEmpty_eq, isEmpty_map]

lemma settleState_sortClauses_state (p : FilterPredicate) :
    p.sortClauses.settleState.state = p.settleState.state := by
  simp only [settleState, hasClauses_sortClauses]

instance (p q : FilterPredicate) : Decidable (p.SortsLike q) :=
  inferInstanceAs (Decidable (_ ∨ _))

instance (p : FilterPredicate) : Decidable p.Settles := inferInstanceAs (Decidable (_ ∨ _))

lemma keptClauses_of_skipsSorting {p : FilterPredicate} (h : p.skipsSorting = true) : p.keptClauses = [] := by
  rw [← folded_orClauses_getD, folded, h]
  rfl

namespace Permuted

variable {p q : FilterPredicate} (h : p.Permuted q)
include h

lemma folded_presence : p.SamePresence q ↔ p.folded.conditions.isSome = q.folded.conditions.isSome ∧
    p.folded.orClauses.isSome = q.folded.orClauses.isSome := by
  rw [SamePresence, folded_conditions_isSome, folded_conditions_isSome, folded_orClauses_isSome,
    folded_orClauses_isSome, ← h.keptConditions_isEmpty, ← h.conditions.isEmpty_eq, ← h.skipsSorting_eq]
  refine and_congr ?_ ?_
  · cases hp : p.conditions.getD [] with
    | nil => simp [keptConditions, hp]
    | cons c cs => simp
  · have hempty := h.clauses_isEmpty
    cases hp : p.orClauses.getD [] with
    | nil =>
      have hs : p.skipsSorting = false := by rw [skipsSorting, hp]; rfl
      simp [hs]
    | cons c cs =>
      rw [hp] at hempty
      have hps : p.orClauses.isSome = true := by
        cases ho : p.orClauses with
        | none => simp [ho] at hp
        | some cs => rfl
      have hqs : q.orClauses.isSome = true := by
        cases ho : q.orClauses with
        | none => simp [ho] at hempty
        | some cs => rfl
      simp [hps, hqs]

lemma settleState_state : p.folded.settleState.state = q.folded.settleState.state := by
  simp only [settleState, hasClauses_eq, folded_conditions_getD, folded_orClauses_getD,
    h.keptConditions_isEmpty, h.keptClauses_isEmpty]

lemma sorted_same : sameList eqlCondition (p.folded.sortClauses.conditions.getD [])
        (q.folded.sortClauses.conditions.getD []) = true ∧
      sameList (sameList eqlCondition) (p.folded.sortClauses.orClauses.getD [])
        (q.folded.sortClauses.orClauses.getD []) = true := by
  rw [sortClauses_conditions, sortClauses_conditions, folded_conditions_getD,
    folded_conditions_getD, sortClauses_orClauses, sortClauses_orClauses, folded_orClauses_getD,
    folded_orClauses_getD, sameConditions_iff, sameClauses_iff]
  exact ⟨map_sortConditions_eq h.keptConditions_perm,
    map_sort_eq (compareLex_eq_iff (@eq_iff_row _ order _)) h.keptClauses_perm⟩

/-- The normal forms of permuted predicates agree in all their parts: state, conditions, clauses
and the presence of both lists. -/
lemma normalize_same_iff :
    (p.normalize.state = q.normalize.state ∧
      sameOption (sameList eqlCondition) p.normalize.conditions q.normalize.conditions = true ∧
      sameOption (sameList (sameList eqlCondition)) p.normalize.orClauses
        q.normalize.orClauses = true) ↔ p.SortsLike q := by
  cases hc : p.isConstant with
  | true =>
    have hq := h.isConstant_eq ▸ hc
    rw [normalize_of_constant hc, normalize_of_constant hq, h.state]
    exact iff_of_true ⟨rfl, rfl, rfl⟩ (.inl hc)
  | false =>
    have hq : q.isConstant = false := h.isConstant_eq ▸ hc
    rw [normalize_of_not_constant hc, normalize_of_not_constant hq, ← h.skipsSorting_eq,
      SortsLike, hc, h.folded_presence]
    simp only [sameOption_sameList_iff, Bool.false_eq_true, false_or]
    cases hs : p.skipsSorting with
    | true =>
      have hnone : sameList (sameList eqlCondition) p.keptClauses q.keptClauses = true := by
        rw [keptClauses_of_skipsSorting hs, keptClauses_of_skipsSorting (h.skipsSorting_eq ▸ hs)]
        rfl
      simp only [if_true, settleState_conditions, settleState_orClauses, h.settleState_state,
        folded_conditions_getD, folded_orClauses_getD, hnone, true_and, true_imp_iff]
      tauto
    | false =>
      obtain ⟨hconds, hclauses⟩ := h.sorted_same
      simp only [Bool.false_eq_true, if_false, settleState_conditions, settleState_orClauses,
        settleState_sortClauses_state, h.settleState_state, hconds, hclauses, sortClauses_conditions_isSome,
        sortClauses_orClauses_isSome, true_and, false_imp_iff, and_true]

end Permuted

section Again

variable {p : FilterPredicate}

lemma Normal.normalize_eq (h : p.Normal) (hs : p.state = .conditional) :
    p.normalize = p.sortClauses.settleState := by
  have hcond (c) (hc : c ∈ p.conditions.getD []) :=
    h.conditions c (mem_allConditions_of_conditions hc)
  have htrue (clause) (hm : clause ∈ p.orClauses.getD []) : clauseHasTriviallyTrue clause = false :=
    any_eq_false.mpr fun c hc => by
      simp [(h.conditions c (mem_allConditions_of_clause hm hc)).1]
  have hfalse (clause) (hm : clause ∈ p.orClauses.getD []) : clause.all isTriviallyFalse = false := by
    cases clause with
    | nil => exact absurd hm h.clauses
    | cons c cs =>
      refine all_eq_false.mpr ⟨c, mem_cons_self, ?_⟩
      simp [(h.conditions c (mem_allConditions_of_clause hm mem_cons_self)).2]
  have hconst : p.isConstant = false := by
    simp only [isConstant, hs, ne_eq, not_true, decide_false, Bool.false_or,
      Bool.or_eq_false_iff, any_eq_false]
    exact ⟨fun c hc => by simp [(hcond c hc).2], fun clause hm => by simp [hfalse clause hm]⟩
  have hskip : p.skipsSorting = false := by
    cases hc : p.orClauses.getD [] with
    | nil => rw [skipsSorting, hc]; rfl
    | cons c cs =>
      have hc' := htrue c (by rw [hc]; exact mem_cons_self)
      rw [skipsSorting, hc]
      simp [hc']
  have hfold : p.folded = p := by
    have hc : p.conditions.bind compactTrivialTrueConditions = p.conditions := by
      cases hc : p.conditions with
      | none => rfl
      | some conds =>
        have hall : conds.filter (fun c => !c.isTriviallyTrue) = conds :=
          filter_eq_self.mpr fun c hm => by simp [(hcond c (by simpa [hc] using hm)).1]
        rw [bind_some, compactTrivialTrueConditions, hall, if_pos rfl]
    have ho : p.orClauses.map (fun _ => p.keptClauses) = p.orClauses := by
      cases ho : p.orClauses with
      | none => rfl
      | some clauses =>
        have hall : clauses.filter (fun c => !clauseHasTriviallyTrue c) = clauses :=
          filter_eq_self.mpr fun c hm => by simp [htrue c (by simpa [ho] using hm)]
        have hid : clauses.map (List.filter fun c => !c.isTriviallyFalse) = clauses.map id := by
          refine map_congr_left fun clause hm => filter_eq_self.mpr fun c hc => ?_
          have hm : clause ∈ p.orClauses.getD [] := by rw [ho]; exact hm
          simp [(h.conditions c (mem_allConditions_of_clause hm hc)).2]
        rw [map_some, keptClauses, ho, getD_some, hall, hid, map_id]
    rw [folded, hskip, hc]
    simp only [Bool.false_eq_true, if_false, ho]
  rw [normalize_of_not_constant hconst, hskip, hfold]
  rfl

lemma normalize_of_settled (h : p.state ≠ .conditional) : p.normalize = p.clearClauses := by
  cases hp : p.state with
  | conditional => exact absurd hp h
  | matchAll => simp [normalize, hp]
  | matchNone => simp [normalize, hp]

lemma sortConditions_eq_self_iff (conds : List Condition) :
    sortConditions conds = conds ↔ conds.Pairwise fun a b => conditionLessThan b a = false := by
  rw [sortConditions_eq_sort, sort_eq_self_iff]
  simp only [← not_lessThan_iff, Bool.not_eq_true']

lemma sortConditions_idem (conds : List Condition) :
    sortConditions (sortConditions conds) = sortConditions conds := by
  simp only [sortConditions_eq_sort, sort_sort]

lemma sortClauses_idem (p : FilterPredicate) : p.sortClauses.sortClauses = p.sortClauses := by
  have hcl (clauses : List OrClause) :
      (((clauses.map sortConditions).insertionSort fun a b => !orClauseLessThan b a).map
        sortConditions).insertionSort (fun a b => !orClauseLessThan b a) =
      (clauses.map sortConditions).insertionSort fun a b => !orClauseLessThan b a := by
    have hid : ((clauses.map sortConditions).insertionSort fun a b => !orClauseLessThan b a).map
        sortConditions = _ := map_congr_left (g := id) fun clause hm => by
      rw [mem_insertionSort] at hm
      obtain ⟨old, -, rfl⟩ := mem_map.mp hm
      exact sortConditions_idem old
    rw [hid, map_id]
    simp only [not_clauseLessThan_iff]
    exact sort_sort _
  simp only [sortClauses, Option.map_map]
  congr 1
  · refine map_congr fun conds _ => ?_
    exact sortConditions_idem conds
  · refine map_congr fun clauses _ => ?_
    exact hcl clauses

lemma settleState_state_iff (p : FilterPredicate) :
    p.settleState.state = .conditional ↔ p.hasClauses = true := by
  rw [settleState]
  cases p.hasClauses <;> simp

lemma sortClauses_settleState (p : FilterPredicate) :
    p.settleState.sortClauses.settleState = p.sortClauses.settleState := rfl

lemma clearClauses_eq_self_iff (p : FilterPredicate) :
    p.clearClauses = p ↔ p.conditions = none ∧ p.orClauses = none := by
  obtain ⟨state, conditions, orClauses⟩ := p
  simp only [clearClauses, mk.injEq, true_and]
  exact and_congr eq_comm eq_comm

lemma folded_clear_iff (hc : p.keptConditions = []) (ho : p.keptClauses = []) :
    p.folded.conditions = none ∧ p.folded.orClauses = none ↔
      p.conditions ≠ some [] ∧ p.orClauses ≠ some [] := by
  rw [← isNone_iff_eq_none, ← isNone_iff_eq_none, ← not_isSome,
    ← not_isSome, folded_conditions_isSome, folded_orClauses_isSome, hc]
  refine and_congr ?_ ?_
  · cases hp : p.conditions with
    | none => simp
    | some conds => cases conds <;> simp
  · cases hp : p.orClauses with
    | none => simp
    | some clauses =>
      cases clauses with
      | nil => simp [skipsSorting, hp]
      | cons c cs =>
        have hskip : p.skipsSorting = true := by
          rw [keptClauses, hp, map_eq_nil_iff, getD_some, filter_eq_nil_iff] at ho
          rw [skipsSorting, hp, getD_some, all_eq_true.mpr fun d hd => by
            simpa using ho d hd]
          rfl
        simp [hskip]

lemma normalize_presence (h : p.isConstant = false) :
    p.normalize.conditions.isSome = p.folded.conditions.isSome ∧
      p.normalize.orClauses.isSome = p.folded.orClauses.isSome ∧
      p.normalize.state = p.folded.settleState.state := by
  rw [normalize_of_not_constant h]
  cases p.skipsSorting with
  | true => exact ⟨rfl, rfl, rfl⟩
  | false =>
    simp only [Bool.false_eq_true, if_false, settleState_conditions, settleState_orClauses,
      sortClauses_conditions_isSome, sortClauses_orClauses_isSome, settleState_sortClauses_state, and_self]

lemma sortClauses_folded_iff (h : p.skipsSorting = true) :
    p.folded.sortClauses.settleState = p.folded.settleState ↔
      p.keptConditions.Pairwise fun a b => conditionLessThan b a = false := by
  rw [← sortConditions_eq_self_iff, ← folded_conditions_getD]
  have ho : p.folded.orClauses = none := by rw [folded, h]; rfl
  constructor
  · intro heq
    have hc := congrArg (fun q => q.conditions.getD []) heq
    dsimp only [settleState_conditions] at hc
    rwa [sortClauses_conditions] at hc
  · intro hsort
    have hsame : p.folded.sortClauses = p.folded := by
      have hc : p.folded.conditions.map sortConditions = p.folded.conditions := by
        cases hc : p.folded.conditions with
        | none => rfl
        | some conds => rw [hc, getD_some] at hsort; rw [map_some, hsort]
      rw [sortClauses, hc, ho, map_none, ← ho]
    rw [hsame]

lemma normalize_idem_iff (p : FilterPredicate) : p.normalize.normalize = p.normalize ↔ p.Settles := by
  cases hconst : p.isConstant with
  | true =>
    refine iff_of_true ?_ (.inl hconst)
    rw [normalize_of_constant hconst, normalize_of_settled (by dsimp only; split_ifs <;> simp)]
    rfl
  | false =>
    rw [Settles, hconst]
    simp only [Bool.false_eq_true, false_or]
    obtain ⟨hcs, hos, hst⟩ := normalize_presence hconst
    have hclauses : p.folded.hasClauses = (!p.keptConditions.isEmpty || !p.keptClauses.isEmpty) := by
      rw [hasClauses_eq, folded_conditions_getD, folded_orClauses_getD]
    by_cases hleft : p.keptConditions = [] ∧ p.keptClauses = []
    · obtain ⟨hc, ho⟩ := hleft
      have hsettled : p.normalize.state ≠ .conditional := by
        rw [hst, ne_eq, settleState_state_iff, hclauses, hc, ho]
        simp
      rw [normalize_of_settled hsettled, clearClauses_eq_self_iff, ← isNone_iff_eq_none, ← isNone_iff_eq_none,
        ← not_isSome, ← not_isSome, hcs, hos, not_isSome, not_isSome, isNone_iff_eq_none, isNone_iff_eq_none,
        folded_clear_iff hc ho]
      simp [hc, ho]
    · have hcond : p.normalize.state = .conditional := by
        rw [hst, settleState_state_iff, hclauses]
        cases hc : p.keptConditions <;> cases ho : p.keptClauses <;> simp_all
      have hfirst : (p.keptConditions = [] → p.keptClauses = [] →
          p.conditions ≠ some [] ∧ p.orClauses ≠ some []) ↔ True :=
        iff_of_true (fun hc ho => absurd ⟨hc, ho⟩ hleft) trivial
      rw [p.normalize_normal.normalize_eq hcond, normalize_of_not_constant hconst, hfirst, true_and]
      cases hs : p.skipsSorting with
      | true =>
        rw [if_pos rfl, sortClauses_settleState, sortClauses_folded_iff hs]
        exact ⟨fun h _ => h, fun h => h rfl⟩
      | false =>
        rw [if_neg Bool.false_ne_true, sortClauses_settleState, sortClauses_idem]
        exact iff_of_true rfl fun h => absurd h Bool.false_ne_true

end Again
end FilterPredicate
end ZyncBase
