import ZyncBase.Lib.AssocMap
import ZyncBase.Query.Eval

/-! The tests that decide which values, conditions and filters share a hash key. Conditions under
one key are true on the same records. -/
namespace ZyncBase

open AssocMap Value

instance : KeyTest eql where
  refl := eql_self
  symm := eql_symm
  trans := eql_trans

lemma eqlCondition_iff (a b : Condition) :
    eqlCondition a b ↔ a.fieldIndex = b.fieldIndex ∧ a.op = b.op ∧ a.fieldType = b.fieldType ∧
      a.itemsType = b.itemsType ∧ sameOption eql a.value b.value := by
  simp only [eqlCondition, Bool.and_eq_true, decide_eq_true_eq, and_assoc]
  cases a.value <;> cases b.value <;> simp [sameOption]

instance : KeyTest eqlCondition where
  refl a := by simp [eqlCondition_iff, KeyTest.self (sameOption eql)]
  symm a b h := by
    rw [eqlCondition_iff] at h ⊢
    obtain ⟨hf, ho, ht, hi, hv⟩ := h
    exact ⟨hf.symm, ho.symm, ht.symm, hi.symm, KeyTest.symm _ _ hv⟩
  trans a b c h g := by
    rw [eqlCondition_iff] at h g ⊢
    obtain ⟨hf, ho, ht, hi, hv⟩ := h
    obtain ⟨gf, go, gt, gi, gv⟩ := g
    exact ⟨hf.trans gf, ho.trans go, ht.trans gt, hi.trans gi, KeyTest.trans _ _ _ hv gv⟩

section Congruence

lemma order_congr_right (a b c : ScalarValue) (h : b.order c = .eq) : a.order b = a.order c :=
  Std.TransCmp.congr_right h

lemma order_congr_left (a b c : ScalarValue) (h : a.order b = .eq) : a.order c = b.order c :=
  Std.TransCmp.congr_left h

lemma map_order_of_itemsEql (s : ScalarValue) {as bs : List ScalarValue}
    (h : itemsEql as bs) : as.map s.order = bs.map s.order := by
  induction as generalizing bs with
  | nil =>
    cases bs with
    | nil => rfl
    | cons b bs => simp [itemsEql] at h
  | cons a as ih =>
    cases bs with
    | nil => simp [itemsEql] at h
    | cons b bs =>
      simp only [itemsEql, Bool.and_eq_true, decide_eq_true_eq] at h
      rw [List.map_cons, List.map_cons, order_congr_right s a b h.1, ih h.2]

lemma searchScalar_congr_items (s : ScalarValue) {as bs : List ScalarValue}
    (h : itemsEql as bs) : searchScalar s as = searchScalar s bs := by
  rw [searchScalar, searchScalar, SortedSearch.binarySearch_congr (map_order_of_itemsEql s h)]

lemma searchScalar_congr_target {s t : ScalarValue} (h : s.order t = .eq)
    (items : List ScalarValue) : searchScalar s items = searchScalar t items := by
  rw [searchScalar, searchScalar, SortedSearch.binarySearch_congr
    (List.map_congr_left fun x _ => order_congr_left s t x h)]

lemma eq_or_real_of_order_eq {s t : ScalarValue} (h : s.order t = .eq) :
    s = t ∨ ∃ x y, s = .real x ∧ t = .real y := by
  have ht := ScalarValue.tag_eq_of_order_eq _ _ h
  cases s <;> cases t <;> simp [ScalarValue.tag] at ht
  case real.real x y => exact .inr ⟨x, y, rfl, rfl⟩
  case boolean.boolean x y =>
    rw [ScalarValue.order] at h
    cases x <;> cases y <;> first | exact .inl rfl | exact absurd h (by decide)
  all_goals
    rw [ScalarValue.order] at h
    rw [Std.LawfulEqCmp.eq_of_compare h]
    exact .inl rfl

lemma compareValues_congr_right (op : Operator) (l : Value) {v w : Value} (h : v.eql w) :
    compareValues op l v = compareValues op l w := by
  have heql := eql_congr_right l v w h
  have hord := Value.order_congr_right l v w h
  cases v <;> cases w <;> simp only [eql, Bool.false_eq_true, decide_eq_true_eq] at h
  case nil.nil => rfl
  case array.array as bs =>
    cases op <;> simp only [compareValues, compareGte, compareLte, heql, hord]
    case isIn => cases l <;> simp only [compareIn, searchScalar_congr_items _ h]
    case notIn => cases l <;> simp only [compareNotIn, searchScalar_congr_items _ h]
    all_goals
      cases l with
      | scalar a => cases a <;> rfl
      | array items => rfl
      | nil => rfl
  case scalar.scalar s t =>
    obtain rfl | ⟨x, y, rfl, rfl⟩ := eq_or_real_of_order_eq h
    · rfl
    cases op <;> simp only [compareValues, compareGte, compareLte, heql, hord]
    case contains =>
      cases l with
      | array items => exact searchScalar_congr_target h items
      | nil => rfl
      | scalar a => cases a <;> rfl
    all_goals
      cases l with
      | scalar a => cases a <;> rfl
      | array items => rfl
      | nil => rfl

lemma Condition.holds_congr {a b : Condition} (h : eqlCondition a b) (r : Record) : a.holds r = b.holds r := by
  rw [eqlCondition_iff] at h
  obtain ⟨hf, ho, -, -, hv⟩ := h
  simp only [Condition.holds, hf, ho]
  cases r.values[b.fieldIndex]? with
  | none => rfl
  | some v =>
    cases b.op.isNullary with
    | true => rfl
    | false =>
      obtain ⟨hx, hy⟩ | ⟨x, y, hx, hy, hxy⟩ := sameOption_cases hv
      · rw [hx, hy]
      · rw [hx, hy]
        exact compareValues_congr_right b.op v hxy

lemma Condition.hasOperand_congr {a b : Condition} (h : eqlCondition a b)
    (ha : a.HasOperand) : b.HasOperand := by
  rw [eqlCondition_iff] at h
  obtain ⟨-, ho, -, -, hv⟩ := h
  intro hn
  obtain ⟨hx, hy⟩ | ⟨x, y, hx, hy, -⟩ := sameOption_cases hv
  · have hsome := ha (ho ▸ hn)
    rw [hx] at hsome
    cases hsome
  · rw [hy]
    rfl

end Congruence
end ZyncBase
