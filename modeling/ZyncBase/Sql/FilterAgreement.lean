import ZyncBase.Sql.AtomMeaning

/-! Agreement of the two readings of a filter predicate: evaluation in memory, and the rendered
WHERE expression on the stored row. -/
namespace ZyncBase

open List Condition FilterPredicate

lemma Field.nameQuoted_injective {f g : Field} (h : f.nameQuoted = g.nameQuoted) : f.name = g.name := by
  simpa [Field.nameQuoted] using h

lemma storedRow_eq {t : Table} {r : Record} {i : ℕ} {f : Field} {v : Value}
    (hf : t.fields[i]? = some f) (hv : r.values[i]? = some v) :
    storedRow t r f.nameQuoted = storedValue v := by
  obtain ⟨hi, hf⟩ := List.getElem?_eq_some_iff.mp hf
  obtain ⟨hj, hv⟩ := List.getElem?_eq_some_iff.mp hv
  have hfind : (t.fields.zip r.values).find? (fun p => p.1.nameQuoted == f.nameQuoted) = some (f, v) := by
    rw [find?_eq_some_iff_getElem]
    refine ⟨by simp, i, by rw [length_zip]; omega, by simp [hf, hv], ?_⟩
    intro j hji
    simp only [getElem_zip, Bool.not_eq_true', beq_eq_false_iff_ne, ne_eq]
    intro hq
    have hname : (t.fields.map Field.name)[i]? = (t.fields.map Field.name)[j]? := by
      rw [getElem?_map, getElem?_map, getElem?_eq_getElem hi,
        getElem?_eq_getElem (by omega), Option.map_some, Option.map_some, hf]
      exact congrArg some (Field.nameQuoted_injective hq).symm
    have hnodup : (t.fields.map Field.name).Nodup := t.names_nodup
    have hij := (getElem?_inj (by rw [length_map]; exact hi) hnodup).mp hname
    omega
  simp [storedRow, hfind]

section Conditions

variable {t : Table} {r : Record} {c : Condition}

lemma Condition.WellTyped.reads (hw : c.WellTyped t) (hr : t.Conforms r) :
    ∃ f v, t.fields[c.fieldIndex]? = some f ∧ r.values[c.fieldIndex]? = some v ∧ f.Accepts v ∧
      c.fieldType = f.storageType ∧
      ((c.op.isNullary ∧ c.value = none) ∨
        ∃ shape rhs, operatorExpectsValueShape c.op f.storageType = some shape ∧
          c.op.isNullary = false ∧ c.value = some rhs ∧ shape.Admits f rhs) := by
  obtain ⟨f, hf, hft, -, shape, hshape, hnull, hop⟩ := hw.field
  obtain ⟨hi, -⟩ := List.getElem?_eq_some_iff.mp hf
  have hv := getElem?_eq_getElem (l := r.values) (i := c.fieldIndex) (by rw [hr.length]; exact hi)
  refine ⟨f, _, hf, hv, hr.accepts hf hv, hft, ?_⟩
  by_cases hs : shape = .nullary
  · exact .inl ⟨operatorExpectsValueShape_nullary.mp (hs ▸ hshape), hnull hs⟩
  · obtain ⟨rhs, hc, hadm⟩ := hop hs
    refine .inr ⟨shape, rhs, hshape, ?_, hc, hadm⟩
    cases hn : c.op.isNullary with
    | false => rfl
    | true =>
      rw [operatorExpectsValueShape_nullary.mpr hn, Option.some.injEq] at hshape
      exact absurd hshape.symm hs

lemma Condition.meets_of_binary {v rhs : Value} (hn : c.op.isNullary = false)
    (hv : r.values[c.fieldIndex]? = some v) (hc : c.value = some rhs) :
    c.Meets r ↔ v ≠ .nil ∧ c.op.Meets v rhs := by
  have hb : c.Meets r ↔ ∃ lhs rhs, r.values[c.fieldIndex]? = some lhs ∧ lhs ≠ .nil ∧
      c.value = some rhs ∧ c.op.Meets lhs rhs := by
    unfold Meets
    cases h : c.op <;> simp [h, Operator.isNullary] at hn <;> rfl
  rw [hb, hv, hc]
  simp

lemma Condition.equalArrays_iff {v rhs : Value} (hv : r.values[c.fieldIndex]? = some v)
    (hc : c.value = some rhs) : c.EqualArrays r ↔ EqualArrayValues v rhs := by
  simp [EqualArrays, hv, hc]

lemma Condition.holds_iff (hw : c.WellTyped t) (hr : t.Conforms r) :
    c.holds r ↔ c.Meets r ∨ c.AcceptsMissing r := by
  obtain ⟨f, v, -, hv, hacc, -, hcase⟩ := hw.reads hr
  rcases hcase with ⟨hn, -⟩ | ⟨shape, rhs, hshape, hn, hc, hadm⟩
  · cases h : c.op <;> simp only [h, Operator.isNullary, Bool.false_eq_true] at hn <;>
      simp [holds, Meets, AcceptsMissing, hv, h, Operator.isNullary, compareNullary]
  · rw [meets_of_binary hn hv hc, AcceptsMissing, hv, Option.some.injEq]
    have hh : c.holds r = compareValues c.op v rhs := by simp [holds, hv, hn, hc]
    rw [hh, compareValues_iff hshape hacc hadm]
    rfl

variable (enc : Encodings)

lemma fieldAtom_eval_iff (hw : c.WellTyped t) (hr : t.Conforms r)
    (hplain : c.isTriviallyTrue = false ∧ c.isTriviallyFalse = false) :
    ∃ a, fieldAtom t c = .ok a ∧ (a.eval enc (storedRow t r) = some true ↔ c.Firm r ∨ c.SqlOnly r) := by
  obtain ⟨f, v, hf, hv, hacc, hft, hcase⟩ := hw.reads hr
  have hrow := storedRow_eq hf hv
  have hfield : fieldAtom t c = conditionAtom f.nameQuoted c := by simp [fieldAtom, hf]
  rw [hfield]
  rcases hcase with ⟨hn, hc⟩ | ⟨shape, rhs, hshape, hn, hc, hadm⟩
  · have hnull : storedValue v = .null ↔ v = .nil := by
      cases v with
      | scalar s => simp [storedValue]
      | _ => simp [storedValue]
    cases h : c.op <;> simp only [h, Operator.isNullary, Bool.false_eq_true] at hn
    · refine ⟨.isNull f.nameQuoted false, by simp [conditionAtom, h], ?_⟩
      simp [SqlAtom.eval, hrow, hnull, Firm, SqlOnly, Meets, h, hv]
    · refine ⟨.isNull f.nameQuoted true, by simp [conditionAtom, h], ?_⟩
      simp [SqlAtom.eval, hrow, hnull, Firm, SqlOnly, Meets, h, hv]
  · obtain ⟨a, ha, hev⟩ := conditionAtom_eval_iff enc (storedRow t r) f.nameQuoted hshape hft hacc
      hc hadm hrow (Table.items_primitive (mem_of_getElem? hf)) hplain
    refine ⟨a, ha, hev.trans ?_⟩
    rw [SqlMeets, Firm, SqlOnly, meets_of_binary hn hv hc,
      equalArrays_iff hv hc, and_assoc]

end Conditions
lemma forall_mem_iff_of_forall₂ {α β : Type*} {q : α → Prop} {p : β → Prop} {as : List α}
    {bs : List β} (h : List.Forall₂ (fun a b => p b ↔ q a) as bs) : (∀ b ∈ bs, p b) ↔ ∀ a ∈ as, q a := by
  induction h with
  | nil => simp
  | cons hab _ ih => rw [forall_mem_cons, forall_mem_cons, hab, ih]

lemma exists_mem_iff_of_forall₂ {α β : Type*} {q : α → Prop} {p : β → Prop} {as : List α}
    {bs : List β} (h : List.Forall₂ (fun a b => p b ↔ q a) as bs) : (∃ b ∈ bs, p b) ↔ ∃ a ∈ as, q a := by
  induction h with
  | nil => simp
  | cons hab _ ih => rw [exists_mem_cons_iff, exists_mem_cons_iff, hab, ih]

/-- Two readings of a conjunction agree when some conjunct fails under both, or when each reading
has a conjunct that only it rejects, or when neither has one. -/
lemma forall_agree_iff {α : Type*} (as : List α) (m x : α → Prop) : ((∀ a ∈ as, m a) ↔ ∀ a ∈ as, x a) ↔
    (∃ a ∈ as, ¬ m a ∧ ¬ x a) ∨ ((∃ a ∈ as, m a ∧ ¬ x a) ↔ ∃ a ∈ as, x a ∧ ¬ m a) := by
  by_cases hu : ∃ a ∈ as, ¬ m a ∧ ¬ x a
  · obtain ⟨a, ha, hm, hx⟩ := hu
    exact iff_of_true (iff_of_false (fun h => hm (h a ha)) fun h => hx (h a ha)) (.inl ⟨a, ha, hm, hx⟩)
  · have hor (a) (ha : a ∈ as) : m a ∨ x a := by
      by_contra hn
      exact hu ⟨a, ha, not_or.mp hn⟩
    have hm : (∀ a ∈ as, m a) ↔ ¬ ∃ a ∈ as, x a ∧ ¬ m a := by
      constructor
      · rintro h ⟨a, ha, -, hn⟩
        exact hn (h a ha)
      · intro h a ha
        by_contra hn
        exact h ⟨a, ha, (hor a ha).resolve_left hn, hn⟩
    have hx : (∀ a ∈ as, x a) ↔ ¬ ∃ a ∈ as, m a ∧ ¬ x a := by
      constructor
      · rintro h ⟨a, ha, -, hn⟩
        exact hn (h a ha)
      · intro h a ha
        by_contra hn
        exact h ⟨a, ha, (hor a ha).resolve_right hn, hn⟩
    rw [hm, hx, not_iff_not, or_iff_right hu]
    exact iff_comm

variable {p : FilterPredicate}

namespace FilterPredicate

def conjuncts (p : FilterPredicate) : List (List Condition) :=
  (p.conditions.getD []).map ([·]) ++ p.orClauses.getD []

lemma mem_allConditions_of_conjunct {k : List Condition} {c : Condition}
    (hk : k ∈ p.conjuncts) (hc : c ∈ k) : c ∈ p.allConditions := by
  rcases mem_append.mp hk with hk | hk
  · obtain ⟨d, hd, rfl⟩ := mem_map.mp hk
    rw [mem_singleton] at hc
    exact mem_allConditions_of_conditions (hc ▸ hd)
  · exact mem_allConditions_of_clause hk hc

lemma conjuncts_eq_nil (h : p.hasClauses = false) : p.conjuncts = [] := by
  simp only [hasClauses, Bool.or_eq_false_iff, decide_eq_false_iff_not, Nat.not_lt, Nat.le_zero,
    length_eq_zero_iff] at h
  simp [conjuncts, h.1, h.2]

lemma holds_iff_conjuncts (hp : p.Normal) (hs : p.state = .conditional)
    (r : Record) : p.holds r ↔ ∀ k ∈ p.conjuncts, ∃ c ∈ k, c.holds r := by
  have hclause (k) (hk : k ∈ p.orClauses.getD []) : clauseHolds r k = true ↔ ∃ c ∈ k, c.holds r := by
    have hne : k.isEmpty = false := by
      cases k with
      | nil => exact absurd hk hp.clauses
      | cons c cs => rfl
    rw [clauseHolds, hne, Bool.false_or, any_eq_true]
  simp only [holds, hs, conjuncts, Bool.and_eq_true, all_eq_true, mem_append, or_imp, forall_and, mem_map,
    forall_exists_index, and_imp, forall_apply_eq_imp_iff₂, mem_singleton, exists_eq_left]
  exact and_congr_right fun _ => forall₂_congr hclause

/-- A conjunct that only memory meets. -/
def MetByMemoryOnly (r : Record) (k : List Condition) : Prop :=
  (∃ c ∈ k, c.MemoryOnly r) ∧ ∀ c ∈ k, ¬ c.Firm r ∧ ¬ c.SqlOnly r

def MetBySqlOnly (r : Record) (k : List Condition) : Prop :=
  (∃ c ∈ k, c.SqlOnly r) ∧ ∀ c ∈ k, ¬ c.Firm r ∧ ¬ c.MemoryOnly r

/-- A conjunct that neither reading meets. -/
def Unmet (r : Record) (k : List Condition) : Prop :=
  ∀ c ∈ k, ¬ c.Firm r ∧ ¬ c.MemoryOnly r ∧ ¬ c.SqlOnly r

/-- No conjunct is decided by a missing value or by an array comparison alone, or the record
fails elsewhere in any case, or it fails on both sides. -/
def DefectsSettled (p : FilterPredicate) (r : Record) : Prop :=
  (∃ k ∈ p.conjuncts, Unmet r k) ∨
    ((∃ k ∈ p.conjuncts, MetByMemoryOnly r k) ↔ ∃ k ∈ p.conjuncts, MetBySqlOnly r k)

lemma defectsSettled_iff (p : FilterPredicate) (r : Record) : p.DefectsSettled r ↔
    ((∀ k ∈ p.conjuncts, ∃ c ∈ k, c.Firm r ∨ c.MemoryOnly r) ↔
      ∀ k ∈ p.conjuncts, ∃ c ∈ k, c.Firm r ∨ c.SqlOnly r) := by
  rw [forall_agree_iff]
  refine or_congr (exists_congr fun k => and_congr_right fun _ => ?_) (iff_congr
    (exists_congr fun k => and_congr_right fun _ => ?_)
    (exists_congr fun k => and_congr_right fun _ => ?_))
  · simp only [Unmet, not_exists, not_and, not_or, ← forall_and]
    grind
  · simp only [MetByMemoryOnly, not_exists, not_and, not_or]
    grind
  · simp only [MetBySqlOnly, not_exists, not_and, not_or]
    grind

end FilterPredicate

section Predicates

variable {t : Table} {r : Record}

lemma Condition.holds_iff_firm {c : Condition} (hw : c.WellTyped t) (hr : t.Conforms r) :
    c.holds r ↔ c.Firm r ∨ c.MemoryOnly r := by
  rw [holds_iff hw hr, Firm, MemoryOnly]
  have heq (hop : c.op = .eq) (ha : c.EqualArrays r) : c.Meets r := by
    obtain ⟨v, rhs, hv, hc, items, operand, rfl, rfl, he⟩ := ha
    rw [meets_of_binary (by simp [hop, Operator.isNullary]) hv hc, hop]
    exact ⟨by simp, he⟩
  by_cases h : c.op = .eq ∧ c.EqualArrays r
  · simp [h, heq h.1 h.2]
  · simp [h]

variable (enc : Encodings)

lemma fieldAtoms_eval {cs : List Condition} (hr : t.Conforms r) (hw : ∀ c ∈ cs, c.WellTyped t)
    (hp : ∀ c ∈ cs, c.isTriviallyTrue = false ∧ c.isTriviallyFalse = false) :
    ∃ atoms, fieldAtoms t cs = .ok atoms ∧
      List.Forall₂ (fun c (a : SqlAtom) => a.eval enc (storedRow t r) = some true ↔
        c.Firm r ∨ c.SqlOnly r) cs atoms := by
  induction cs with
  | nil => exact ⟨[], rfl, List.Forall₂.nil⟩
  | cons c cs ih =>
    obtain ⟨a, ha, hev⟩ := fieldAtom_eval_iff enc (hw c mem_cons_self) hr (hp c mem_cons_self)
    obtain ⟨atoms, has, hevs⟩ := ih (fun d hd => hw d (mem_cons_of_mem _ hd))
      fun d hd => hp d (mem_cons_of_mem _ hd)
    refine ⟨a :: atoms, ?_, List.Forall₂.cons hev hevs⟩
    simp [fieldAtoms, ha, has, bind, Except.bind, pure, Except.pure]

lemma clauseAtoms_eval {clauses : List OrClause} (hr : t.Conforms r)
    (hw : ∀ k ∈ clauses, ∀ c ∈ k, c.WellTyped t)
    (hp : ∀ k ∈ clauses, ∀ c ∈ k, c.isTriviallyTrue = false ∧ c.isTriviallyFalse = false)
    (hne : [] ∉ clauses) :
    ∃ groups, clauseAtoms t clauses = .ok groups ∧
      List.Forall₂ (fun k (g : List SqlAtom) =>
        (SqlConjunct.anyOf g).eval enc (storedRow t r) = some true ↔
          ∃ c ∈ k, c.Firm r ∨ c.SqlOnly r) clauses groups := by
  induction clauses with
  | nil => exact ⟨[], rfl, List.Forall₂.nil⟩
  | cons k ks ih =>
    obtain ⟨atoms, ha, hev⟩ := fieldAtoms_eval enc hr (hw k mem_cons_self) (hp k mem_cons_self)
    obtain ⟨groups, hg, hevs⟩ := ih (fun l hl => hw l (mem_cons_of_mem _ hl))
      (fun l hl => hp l (mem_cons_of_mem _ hl)) fun h => hne (mem_cons_of_mem _ h)
    have hk : k.isEmpty = false := by
      cases k with
      | nil => exact absurd mem_cons_self hne
      | cons c cs => rfl
    refine ⟨atoms :: groups, ?_, List.Forall₂.cons ?_ hevs⟩
    · simp [clauseAtoms, hk, ha, hg, bind, Except.bind, pure, Except.pure]
    · rw [SqlConjunct.eval, Kleene.any3_eq_true, ← exists_mem_iff_of_forall₂ hev]
      simp only [mem_map, exists_exists_and_eq_and]

/-- The WHERE expression selects the records whose conjuncts all have a match that SQL accepts. -/
lemma filterWhere_selects (hs : p.state = .conditional)
    (hw : p.WellTyped t) (hp : p.Normal) (hr : t.Conforms r) :
    ∃ e, filterWhere t p = .ok e ∧ (e.selects enc (storedRow t r) ↔
      ∀ k ∈ p.conjuncts, ∃ c ∈ k, c.Firm r ∨ c.SqlOnly r) := by
  have hfalse : p.isAlwaysFalse = false := by simp [isAlwaysFalse, hs]
  cases hc : p.hasClauses with
  | false =>
    have htrue : p.isAlwaysTrue = true := by simp [isAlwaysTrue, hs, hc]
    refine ⟨.one, by simp [filterWhere, htrue], ?_⟩
    simp [SqlWhere.selects, SqlWhere.eval, conjuncts_eq_nil hc]
  | true =>
    have htrue : p.isAlwaysTrue = false := by simp [isAlwaysTrue, hs, hc]
    obtain ⟨atoms, ha, hae⟩ := fieldAtoms_eval enc hr
      (fun c hm => hw c (mem_allConditions_of_conditions hm))
      fun c hm => hp.conditions c (mem_allConditions_of_conditions hm)
    obtain ⟨groups, hg, hge⟩ := clauseAtoms_eval enc hr
      (fun k hk c hm => hw c (mem_allConditions_of_clause hk hm))
      (fun k hk c hm => hp.conditions c (mem_allConditions_of_clause hk hm))
      hp.clauses
    refine ⟨.allOf (atoms.map .atom ++ groups.map .anyOf), ?_, ?_⟩
    · simp [filterWhere, htrue, hfalse, ha, hg, bind, Except.bind, pure, Except.pure]
    · rw [SqlWhere.selects, decide_eq_true_eq, SqlWhere.eval, Kleene.all3_eq_true]
      simp only [conjuncts, map_append, map_map, mem_append,
        or_imp, forall_and, mem_map, forall_exists_index, and_imp,
        forall_apply_eq_imp_iff₂, Function.comp_apply, mem_singleton, exists_eq_left]
      exact and_congr (forall_mem_iff_of_forall₂ hae) (forall_mem_iff_of_forall₂ hge)

lemma FilterPredicate.agreement_iff (hw : p.WellTyped t) (hp : p.Normal) (hr : t.Conforms r) :
    ∃ e, filterWhere t p = .ok e ∧ appendFilterPredicateSql t {} p = .ok e.print ∧
      ((evaluatePredicate p r = .ok true ↔ e.selects enc (storedRow t r)) ↔ p.DefectsSettled r) := by
  have heval : evaluatePredicate p r = .ok true ↔ p.holds r := by
    rw [evaluatePredicate_eq p r hw.hasOperands, Except.ok.injEq]
  have hprint {e} (he : filterWhere t p = .ok e) : appendFilterPredicateSql t {} p = .ok e.print := by
    rw [appendFilterPredicateSql_eq, he]
    simp [Except.map]
  by_cases hs : p.state = .conditional
  · obtain ⟨e, he, hsel⟩ := filterWhere_selects enc hs hw hp hr
    refine ⟨e, he, hprint he, ?_⟩
    rw [heval, hsel, holds_iff_conjuncts hp hs, defectsSettled_iff]
    have hmem : (∀ k ∈ p.conjuncts, ∃ c ∈ k, c.holds r) ↔
        ∀ k ∈ p.conjuncts, ∃ c ∈ k, c.Firm r ∨ c.MemoryOnly r :=
      forall₂_congr fun k hk => exists_congr fun c => and_congr_right fun hc =>
        holds_iff_firm (hw c (mem_allConditions_of_conjunct hk hc)) hr
    rw [hmem]
  · have hset : p.DefectsSettled r :=
      .inr (by simp [conjuncts_eq_nil (hp.settled hs)])
    cases hst : p.state with
    | conditional => exact absurd hst hs
    | matchAll =>
      have he : filterWhere t p = .ok .one := by simp [filterWhere, isAlwaysTrue, hst]
      refine ⟨_, he, hprint he, ?_⟩
      simp [heval, hset, holds, hst, SqlWhere.selects, SqlWhere.eval]
    | matchNone =>
      have he : filterWhere t p = .ok .zero := by
        simp [filterWhere, isAlwaysTrue, isAlwaysFalse, hst]
      refine ⟨_, he, hprint he, ?_⟩
      simp [heval, hset, holds, hst, SqlWhere.selects, SqlWhere.eval]

end Predicates
/-- Over every parsed filter and conforming record, evaluation in memory and the rendered WHERE
fragment agree exactly when the defects of the predicate are settled. -/
theorem parsed_filter_agreement {decodeToken : Bytes → Option Payload} {s : Schema}
    {tableIndex : ℕ} {p : Payload} {q : QueryFilter} {t : Table} {r : Record}
    (hq : parseQueryFilter decodeToken s tableIndex p = .ok q)
    (ht : s.tableByIndex tableIndex = some t) (hr : t.Conforms r) (enc : Encodings) :
    ∃ e, filterWhere t q.predicate = .ok e ∧ appendFilterPredicateSql t {} q.predicate = .ok e.print ∧
      ((evaluatePredicate q.predicate r = .ok true ↔ e.selects enc (storedRow t r)) ↔
        q.predicate.DefectsSettled r) := by
  obtain ⟨u, hu, hw, hp⟩ := parseQueryFilter_predicate hq
  obtain rfl : t = u := Option.some.inj (ht.symm.trans hu)
  exact agreement_iff enc hw hp hr

namespace AgreementExample

def noteTable : Table where
  name := "notes"
  userFields := [.plain "title" .text]
  fields_wellFormed := forall_mem_singleton.mpr (Field.plain_wellFormed (by decide))
  names_nodup := by decide

def noteSchema : Schema := soloSchema noteTable rfl fun f hf => by rw [mem_singleton.mp hf]

/-- The filter `title != "a"`, as a client sends it. -/
def notTitled : Payload :=
  .map [(.str (asciiBytes "conditions"), .arr [.arr [.uint 3, .uint 1, .str [97]]])]

def untitled : Record where
  values := [.scalar (.docId 7), .scalar (.integer 1), .scalar (.docId 7), .nil,
    .scalar (.integer 5), .scalar (.integer 5)]

def enc : Encodings := ⟨fun _ => [], fun _ => [], id⟩

lemma untitled_conforms : noteTable.Conforms untitled := by
  refine .cons ?_ (.cons ?_ (.cons ?_ (.cons ?_ (.cons ?_ (.cons ?_ .nil))))) <;> rfl

/-- The parsed filter: one condition, ordered by creation. -/
def titleFilter : QueryFilter where
  predicate :=
    { conditions := some [{ fieldIndex := 3, op := .ne, value := some (.scalar (.text [97])),
                            fieldType := .text, itemsType := none }] }
  orderBy := [{ fieldIndex := 4, desc := false }]

def titleWhere : SqlWhere := .allOf [.atom (.compare "\"title\"" .ne (.scalar (.text [97])))]

lemma parse_notTitled : parseQueryFilter (fun _ => none) noteSchema 0 notTitled = .ok titleFilter := rfl

/-- A note without a title passes `title != "a"` in memory, but not in SQL. -/
theorem untitled_disagrees : parseQueryFilter (fun _ => none) noteSchema 0 notTitled = .ok titleFilter ∧
    noteSchema.tableByIndex 0 = some noteTable ∧ noteTable.Conforms untitled ∧
    appendFilterPredicateSql noteTable {} titleFilter.predicate = .ok titleWhere.print ∧
    filterWhere noteTable titleFilter.predicate = .ok titleWhere ∧
    ¬ (evaluatePredicate titleFilter.predicate untitled = .ok true ↔
      titleWhere.selects enc (storedRow noteTable untitled)) := by
  refine ⟨parse_notTitled, rfl, untitled_conforms, rfl, rfl, fun h => ?_⟩
  have hsql : titleWhere.selects enc (storedRow noteTable untitled) = false := by decide
  rw [hsql] at h
  exact absurd (h.mp rfl) (by simp)

theorem parsed_filter_agreement_untitled : ∃ e, filterWhere noteTable titleFilter.predicate = .ok e ∧
    appendFilterPredicateSql noteTable {} titleFilter.predicate = .ok e.print ∧
    ((evaluatePredicate titleFilter.predicate untitled = .ok true ↔
      e.selects enc (storedRow noteTable untitled)) ↔ titleFilter.predicate.DefectsSettled untitled) :=
  parsed_filter_agreement parse_notTitled rfl untitled_conforms enc

end AgreementExample
end ZyncBase
