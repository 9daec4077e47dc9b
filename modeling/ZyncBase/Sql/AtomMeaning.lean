import ZyncBase.Sql.FilterSql

/-! The meaning of a filter condition, in which a missing value satisfies no comparison, and how
the two readings of a condition relate to it: comparison in memory and the rendered SQL atom. -/
namespace ZyncBase
open SortedSearch TextMatch SqlAtom

/-- The meaning of a binary operator on two values. -/
def Operator.Meets (op : Operator) (lhs rhs : Value) : Prop :=
  match op with
  | .eq => lhs.eql rhs
  | .ne => ¬ lhs.eql rhs
  | .gt => lhs.order rhs = .gt
  | .lt => lhs.order rhs = .lt
  | .gte => lhs.order rhs = .gt ∨ lhs.order rhs = .eq
  | .lte => lhs.order rhs = .lt ∨ lhs.order rhs = .eq
  | .contains => (∃ items a, lhs = .array items ∧ rhs = .scalar a ∧ Has ScalarValue.order a items) ∨
      ∃ a b, lhs = .scalar (.text a) ∧ rhs = .scalar (.text b) ∧ b.map asciiLower <:+: a.map asciiLower
  | .startsWith => ∃ a b, lhs = .scalar (.text a) ∧ rhs = .scalar (.text b) ∧
      b.map asciiLower <+: a.map asciiLower
  | .endsWith => ∃ a b, lhs = .scalar (.text a) ∧ rhs = .scalar (.text b) ∧
      b.map asciiLower <:+ a.map asciiLower
  | .isIn => ∃ a items, lhs = .scalar a ∧ rhs = .array items ∧ Has ScalarValue.order a items
  | .notIn => ∃ a items, lhs = .scalar a ∧ rhs = .array items ∧ ¬ Has ScalarValue.order a items
  | .isNull | .isNotNull => False

def EqualArrayValues (v rhs : Value) : Prop :=
  ∃ items operand, v = .array items ∧ rhs = .array operand ∧ Value.itemsEql items operand

namespace Condition

/-- The meaning of a condition on a record: a missing value satisfies only `isNull`. -/
def Meets (c : Condition) (r : Record) : Prop :=
  match c.op with
  | .isNull => r.values[c.fieldIndex]?.getD .nil = .nil
  | .isNotNull => r.values[c.fieldIndex]?.getD .nil ≠ .nil
  | op => ∃ lhs rhs, r.values[c.fieldIndex]? = some lhs ∧ lhs ≠ .nil ∧ c.value = some rhs ∧ op.Meets lhs rhs

def AcceptsMissing (c : Condition) (r : Record) : Prop :=
  r.values[c.fieldIndex]? = some .nil ∧ (c.op = .ne ∨ c.op = .lt ∨ c.op = .lte)

def EqualArrays (c : Condition) (r : Record) : Prop :=
  ∃ v rhs, r.values[c.fieldIndex]? = some v ∧ c.value = some rhs ∧ EqualArrayValues v rhs

/-- Both readings accept the record through this condition. -/
def Firm (c : Condition) (r : Record) : Prop := c.Meets r ∧ ¬ (c.op = .eq ∧ c.EqualArrays r)

/-- Only memory accepts: a missing value under `ne`, `lt`, `lte`, or an equal array under `eq`. -/
def MemoryOnly (c : Condition) (r : Record) : Prop :=
  c.AcceptsMissing r ∨ (c.op = .eq ∧ c.EqualArrays r)

/-- Only SQL accepts: an equal array under `ne`. -/
def SqlOnly (c : Condition) (r : Record) : Prop := c.op = .ne ∧ c.EqualArrays r

end Condition

variable {op : Operator}

variable {shape : ValueShape}

lemma operatorExpectsValueShape_cases {t : FieldType} (h : operatorExpectsValueShape op t = some shape) :
    (op.isNullary ∧ shape = .nullary) ∨
    ((op = .eq ∨ op = .ne) ∧ t = .array ∧ shape = .arrayField) ∨
    ((cmpOp op).isSome ∧ t ≠ .array ∧ shape = .scalar) ∨
    (op = .contains ∧ t = .array ∧ shape = .containsElement) ∨
    ((op = .contains ∨ op = .startsWith ∨ op = .endsWith) ∧ t = .text ∧
      (shape = .containsText ∨ shape = .scalarText)) ∨
    ((op = .isIn ∨ op = .notIn) ∧ t ≠ .array ∧ shape = .arrayMembership) := by
  cases op <;> cases t <;> simp [operatorExpectsValueShape] at h <;> subst h <;>
    simp [Operator.isNullary, cmpOp]

variable {v : Value}

lemma Field.Accepts.of_scalar {f : Field} (h : f.Accepts v)
    (ht : f.storageType ≠ .array) : v = .nil ∨ ∃ s, v = .scalar s ∧ f.storageType.accepts s := by
  cases v with
  | nil => exact .inl rfl
  | scalar s => exact .inr ⟨s, rfl, h⟩
  | array items => exact absurd h.1 ht

lemma Field.Accepts.of_array {f : Field} (h : f.Accepts v)
    (ht : f.storageType = .array) : v = .nil ∨ ∃ items, v = .array items ∧
      (∃ i, f.itemsType = some i ∧ ∀ s ∈ items, i.accepts s) ∧ Strict ScalarValue.order items := by
  cases v with
  | nil => exact .inl rfl
  | scalar s => simp [Field.Accepts, ht, FieldType.accepts] at h
  | array items => exact .inr ⟨items, rfl, h.2⟩

lemma DecodesAs.of_scalar {t : FieldType} {items : Option FieldType}
    (h : DecodesAs t items v) (ht : t ≠ .array) : ∃ s, v = .scalar s ∧ t.accepts s := by
  cases v with
  | nil => exact absurd h (by simp [DecodesAs])
  | scalar s => exact ⟨s, rfl, h.2⟩
  | array ss => exact absurd h.1 ht

lemma DecodesAs.of_array {items : Option FieldType} (h : DecodesAs .array items v) : ∃ ss, v = .array ss := by
  cases v with
  | nil => exact absurd h (by simp [DecodesAs])
  | scalar s => exact absurd rfl h.1
  | array ss => exact ⟨ss, rfl⟩

lemma accepts_text {s : ScalarValue} (h : FieldType.text.accepts s) : ∃ b, s = .text b := by
  cases s <;> simp only [FieldType.accepts, Bool.false_eq_true] at h
  exact ⟨_, rfl⟩

variable {items : List ScalarValue}

lemma searchScalar_eq (a : ScalarValue) (h : Strict ScalarValue.order items) :
    searchScalar a items = decide (Has ScalarValue.order a items) := by
  rw [Bool.eq_iff_iff, decide_eq_true_eq]
  exact binarySearch_isSome_iff ScalarValue.order a items h

def MissingAccepted (op : Operator) (v : Value) : Prop :=
  v = .nil ∧ (op = .ne ∨ op = .lt ∨ op = .lte)

lemma compareValues_iff {f : Field} {rhs : Value}
    (hshape : operatorExpectsValueShape op f.storageType = some shape) (hv : f.Accepts v)
    (hrhs : shape.Admits f rhs) :
    compareValues op v rhs ↔ (v ≠ .nil ∧ op.Meets v rhs) ∨ MissingAccepted op v := by
  rcases operatorExpectsValueShape_cases hshape with ⟨-, rfl⟩ | ⟨hop, ht, rfl⟩ |
    ⟨hop, ht, rfl⟩ | ⟨rfl, ht, rfl⟩ | ⟨hop, ht, hs⟩ | ⟨hop, ht, rfl⟩
  · exact absurd hrhs (by simp [ValueShape.Admits])
  · obtain ⟨operand, rfl⟩ := DecodesAs.of_array hrhs
    rcases hv.of_array ht with rfl | ⟨items, rfl, -, -⟩ <;> rcases hop with rfl | rfl <;>
      simp [compareValues, Operator.Meets, MissingAccepted, Value.eql]
  · obtain ⟨a, rfl, -⟩ := hrhs.1.of_scalar ht
    rcases hv.of_scalar ht with rfl | ⟨s, rfl, -⟩ <;> cases op <;>
      simp only [cmpOp, Option.isSome_none, Bool.false_eq_true] at hop <;>
      simp only [compareValues, compareGte, compareLte, Bool.or_eq_true, decide_eq_true_eq] <;>
      simp [Operator.Meets, MissingAccepted, Value.eql, Value.order]
  · obtain ⟨i, a, -, rfl, -⟩ := hrhs
    rcases hv.of_array ht with rfl | ⟨items, rfl, -, hst⟩
    · simp [compareValues, compareContains, MissingAccepted]
    · simp [compareValues, compareContains, MissingAccepted, Operator.Meets, searchScalar_eq a hst]
  · obtain ⟨b, rfl⟩ : ∃ b, rhs = .scalar (.text b) := by rcases hs with rfl | rfl <;> exact hrhs
    rcases hv.of_scalar (by simp [ht]) with rfl | ⟨s, rfl, hs'⟩
    · rcases hop with rfl | rfl | rfl <;>
        simp [compareValues, compareContains, compareStartsWith, compareEndsWith, MissingAccepted]
    · rw [ht] at hs'
      obtain ⟨a, rfl⟩ := accepts_text hs'
      rcases hop with rfl | rfl | rfl <;>
        simp [compareValues, compareContains, compareStartsWith, compareEndsWith, MissingAccepted,
          Operator.Meets, indexOfFold_isSome_iff, startsWithFold_iff,
          endsWithFold_iff]
  · obtain ⟨items, rfl, -, hst⟩ := hrhs
    rcases hv.of_scalar ht with rfl | ⟨s, rfl, -⟩ <;> rcases hop with rfl | rfl
    · simp [compareValues, compareIn, MissingAccepted]
    · simp [compareValues, compareNotIn, MissingAccepted]
    · simp [compareValues, compareIn, MissingAccepted, Operator.Meets, searchScalar_eq s hst]
    · simp [compareValues, compareNotIn, MissingAccepted, Operator.Meets, searchScalar_eq s hst]

/-- What a rendered comparison selects: arrays, stored as blobs and bound as texts, are never
equal and always differ. -/
def SqlMeets (op : Operator) (v rhs : Value) : Prop :=
  (v ≠ .nil ∧ op.Meets v rhs ∧ ¬ (op = .eq ∧ EqualArrayValues v rhs)) ∨ (op = .ne ∧ EqualArrayValues v rhs)

lemma sqlMeets_iff {rhs : Value} (he : op ≠ .eq) (hn : op ≠ .ne) :
    SqlMeets op v rhs ↔ v ≠ .nil ∧ op.Meets v rhs := by simp [SqlMeets, he, hn]

lemma meets_contains_array (items : List ScalarValue) (a : ScalarValue) :
    Operator.contains.Meets (.array items) (.scalar a) ↔ Has ScalarValue.order a items := by
  simp [Operator.Meets]

section Atoms

variable (enc : Encodings) (row : String → SqlValue) (column : String)

lemma sqlLike_eq (pattern : LikePattern) (a b : Bytes) : sqlLike pattern (storedValue (.scalar (.text a)))
    (bindValue enc (.scalar (.text (escapeLikePattern b)))) =
    some (match pattern with
      | .anywhere => (indexOfFold asciiLower a b).isSome
      | .atStart => startsWithFold asciiLower a b
      | .atEnd => endsWithFold asciiLower a b) := by
  have hae : likeSyntax.any ≠ likeSyntax.esc := by decide
  cases pattern with
  | anywhere => exact congrArg some ( like_infix asciiLower likeSyntax hae a b)
  | atStart => exact congrArg some ( like_prefix asciiLower likeSyntax hae a b)
  | atEnd => exact congrArg some (like_suffix asciiLower likeSyntax hae a b)

variable {a : ScalarValue}

lemma sqlIn_eq_true {t : FieldType} (ha : t.accepts a) (hi : ∀ s ∈ items, t.accepts s) :
    sqlIn enc (bindScalar a) (items.map .scalar) = some true ↔ Has ScalarValue.order a items := by
  rw [sqlIn, Kleene.any3_eq_true]
  simp only [List.map_map, List.mem_map, Function.comp_apply, exists_exists_and_eq_and, Has]
  refine exists_congr fun s => and_congr_right fun hs => ?_
  rw [bindValue, sqlCompare_bindScalar enc ha (hi s hs)]
  simp [CmpOp.test]

lemma sqlIn_eq_false {t : FieldType} (ha : t.accepts a) (hi : ∀ s ∈ items, t.accepts s) :
    sqlIn enc (bindScalar a) (items.map .scalar) = some false ↔ ¬ Has ScalarValue.order a items := by
  rw [sqlIn, Kleene.any3_eq_false]
  simp only [List.map_map, List.mem_map, Function.comp_apply, Has, not_exists, not_and,
    forall_exists_index, and_imp, forall_apply_eq_imp_iff₂]
  refine forall₂_congr fun s hs => ?_
  rw [bindValue, sqlCompare_bindScalar enc ha (hi s hs)]
  simp [CmpOp.test]

lemma sqlIn_null (h : items ≠ []) : sqlIn enc .null (items.map .scalar) = none := by
  have hone (s : ScalarValue) : sqlCompare enc CmpOp.eq.test .null (bindValue enc (.scalar s)) =
      none := sqlCompare_null_left enc _ _
  induction items with
  | nil => exact absurd rfl h
  | cons s ss ih =>
    have hc : sqlIn enc .null ((s :: ss).map .scalar) = Kleene.or3 none (sqlIn enc .null (ss.map .scalar)) := by
      simp [sqlIn, Kleene.any3, hone]
    rw [hc]
    cases ss with
    | nil => rfl
    | cons u us => rw [ih (by simp)]; rfl

lemma compare_eval_iff {cmp : CmpOp} {t : FieldType} (hcmp : cmpOp op = some cmp)
    (hv : v = .nil ∨ ∃ s, v = .scalar s ∧ t.accepts s) (ha : t.accepts a)
    (hrow : row column = storedValue v) :
    (compare column cmp (.scalar a)).eval enc row = some true ↔ SqlMeets op v (.scalar a) := by
  rw [eval, hrow]
  rcases hv with rfl | ⟨s, rfl, hs⟩
  · simp [storedValue, sqlCompare_null_left, SqlMeets, EqualArrayValues]
  · rw [storedValue, bindValue, sqlCompare_bindScalar enc hs ha]
    cases op <;> simp only [cmpOp, Option.some.injEq, reduceCtorEq] at hcmp <;> subst hcmp <;>
      simp only [SqlMeets, EqualArrayValues, CmpOp.test, Operator.Meets, Value.eql, Value.order] <;>
      cases s.order a <;> simp

lemma arrayContains_eval_iff {i : FieldType} (hi : i.isPrimitive)
    (hv : v = .nil ∨ ∃ items, v = .array items ∧ ∀ s ∈ items, i.accepts s) (ha : i.accepts a)
    (hrow : row column = storedValue v) :
    (arrayContains column (.scalar a)).eval enc row = some true ↔ SqlMeets .contains v (.scalar a) := by
  rw [eval, hrow]
  rcases hv with rfl | ⟨items, rfl, hitems⟩
  · simp [storedValue, SqlMeets]
  · have hitem (s) (hs : s ∈ items) :
        (sqlCompare enc CmpOp.eq.test (jsonEachValue enc.hex s) (bindScalar a) = some true) ↔
          a.order s = .eq := by
      rw [jsonEachValue_primitive enc hi (hitems s hs),
        sqlCompare_bindScalar enc (hitems s hs) ha, @Std.OrientedCmp.eq_comm _ ScalarValue.order]
      simp [CmpOp.test]
    have hnn : (SqlValue.jsonb items) ≠ .null := by simp
    rw [sqlMeets_iff (by simp) (by simp), meets_contains_array, storedValue, bindValue, Kleene.and3_eq_true]
    simp only [sqlJsonEach, hnn, ne_eq, not_false_eq_true, decide_true, Option.some.injEq, true_and,
      List.any_map, List.any_eq_true, Function.comp_apply, decide_eq_true_eq, reduceCtorEq]
    exact exists_congr fun s => and_congr_right fun hs => hitem s hs

lemma compareArray_eval_iff {cmp : CmpOp}
    {operand : List ScalarValue} (hop : op = .eq ∨ op = .ne) (hcmp : cmpOp op = some cmp)
    (hv : v = .nil ∨ ∃ items, v = .array items) (hrow : row column = storedValue v) :
    (compare column cmp (.array operand)).eval enc row = some true ↔
      SqlMeets op v (.array operand) := by
  rw [eval, hrow]
  rcases hv with rfl | ⟨items, rfl⟩
  · simp [storedValue, sqlCompare_null_left, SqlMeets, EqualArrayValues]
  · have hc (test : Ordering → Bool) : sqlCompare enc test (storedValue (.array items))
        (bindValue enc (.array operand)) = some (test .gt) := by
      rw [sqlCompare, sqlOrder_array]
      simp [storedValue, bindValue]
    rw [hc]
    rcases hop with rfl | rfl <;> cases hcmp <;>
      simp [SqlMeets, EqualArrayValues, CmpOp.test, Operator.Meets, Value.eql]

lemma like_eval_iff {pattern : LikePattern} {b : Bytes}
    (hop : (op = .contains ∧ pattern = .anywhere) ∨ (op = .startsWith ∧ pattern = .atStart) ∨
      (op = .endsWith ∧ pattern = .atEnd))
    (hv : v = .nil ∨ ∃ a, v = .scalar (.text a)) (hrow : row column = storedValue v) :
    (like column pattern (.scalar (.text (escapeLikePattern b)))).eval enc row =
      some true ↔ SqlMeets op v (.scalar (.text b)) := by
  rw [eval, hrow]
  rcases hv with rfl | ⟨a, rfl⟩
  · rcases hop with ⟨rfl, rfl⟩ | ⟨rfl, rfl⟩ | ⟨rfl, rfl⟩ <;>
      simp [storedValue, sqlLike, SqlMeets]
  · rw [sqlLike_eq]
    rcases hop with ⟨rfl, rfl⟩ | ⟨rfl, rfl⟩ | ⟨rfl, rfl⟩ <;>
      simp [SqlMeets, Operator.Meets, indexOfFold_isSome_iff,
        startsWithFold_iff, endsWithFold_iff]

lemma inList_eval_iff {t : FieldType} (hop : op = .isIn ∨ op = .notIn)
    (hv : v = .nil ∨ ∃ s, v = .scalar s ∧ t.accepts s) (hi : ∀ s ∈ items, t.accepts s)
    (hne : items ≠ []) (hrow : row column = storedValue v) :
    (inList column (op = .notIn) (items.map .scalar)).eval enc row = some true ↔
      SqlMeets op v (.array items) := by
  rw [eval, hrow]
  rcases hv with rfl | ⟨s, rfl, hs⟩
  · rcases hop with rfl | rfl <;> simp [storedValue, sqlIn_null enc hne, Kleene.not3, SqlMeets]
  · rcases hop with rfl | rfl <;>
      simp [storedValue, sqlIn_eq_true enc hs hi, sqlIn_eq_false enc hs hi, SqlMeets, Operator.Meets]

lemma conditionAtom_eval_iff {c : Condition} {f : Field} {rhs : Value}
    (hshape : operatorExpectsValueShape c.op f.storageType = some shape)
    (hft : c.fieldType = f.storageType) (hv : f.Accepts v) (hc : c.value = some rhs)
    (hrhs : shape.Admits f rhs) (hrow : row column = storedValue v)
    (hprim : f.storageType = .array → ∃ i, f.itemsType = some i ∧ i.isPrimitive)
    (hplain : c.isTriviallyTrue = false ∧ c.isTriviallyFalse = false) :
    ∃ a, conditionAtom column c = .ok a ∧ (a.eval enc row = some true ↔ SqlMeets c.op v rhs) := by
  have hreq : requireValue c = .ok rhs := by simp [requireValue, hc]
  rcases operatorExpectsValueShape_cases hshape with ⟨-, rfl⟩ | ⟨hop, ht, rfl⟩ |
    ⟨hop, ht, rfl⟩ | ⟨hop, ht, rfl⟩ | ⟨hop, ht, hs⟩ | ⟨hop, ht, rfl⟩
  · exact absurd hrhs (by simp [ValueShape.Admits])
  · obtain ⟨operand, rfl⟩ := DecodesAs.of_array hrhs
    have hva : v = .nil ∨ ∃ items, v = .array items :=
      (hv.of_array ht).imp_right fun h => ⟨h.choose, h.choose_spec.1⟩
    obtain ⟨cmp, hcmp⟩ : ∃ cmp, cmpOp c.op = some cmp := by
      rcases hop with h | h <;> simp [h, cmpOp]
    refine ⟨.compare column cmp (.array operand), ?_, compareArray_eval_iff enc row column hop hcmp hva hrow⟩
    rcases hop with h | h <;> rw [h] at hcmp <;> cases hcmp <;>
      simp [conditionAtom, h, hreq, cmpOp, bind, Except.bind, pure, Except.pure]
  · obtain ⟨a, rfl, ha⟩ := hrhs.1.of_scalar ht
    obtain ⟨cmp, hcmp⟩ := Option.isSome_iff_exists.mp hop
    refine ⟨.compare column cmp (.scalar a), ?_, compare_eval_iff enc row column hcmp (hv.of_scalar ht) ha hrow⟩
    cases h : c.op <;> rw [h] at hcmp <;> cases hcmp <;>
      simp [conditionAtom, h, hreq, cmpOp, bind, Except.bind, pure, Except.pure]
  · obtain ⟨i, a, hi, rfl, ha⟩ := hrhs
    obtain ⟨j, hj, hjp⟩ := hprim ht
    obtain rfl : i = j := Option.some.inj (hi ▸ hj)
    have hva : v = .nil ∨ ∃ items, v = .array items ∧ ∀ s ∈ items, i.accepts s := by
      refine (hv.of_array ht).imp_right ?_
      rintro ⟨items, h, ⟨k, hk, hit⟩, -⟩
      obtain rfl : i = k := Option.some.inj (hi ▸ hk)
      exact ⟨items, h, hit⟩
    refine ⟨.arrayContains column (.scalar a), ?_, hop ▸ arrayContains_eval_iff enc row column hjp hva ha hrow⟩
    simp [conditionAtom, hop, hreq, hft, ht, bind, Except.bind, pure, Except.pure]
  · obtain ⟨b, rfl⟩ : ∃ b, rhs = .scalar (.text b) := by rcases hs with rfl | rfl <;> exact hrhs
    have hva : v = .nil ∨ ∃ a, v = .scalar (.text a) := by
      refine (hv.of_scalar (by simp [ht])).imp_right ?_
      rintro ⟨s, h, hs⟩
      obtain ⟨a, rfl⟩ := accepts_text (ht ▸ hs)
      exact ⟨a, h⟩
    rcases hop with h | h | h
    · refine ⟨_, ?_, like_eval_iff enc row column (.inl ⟨h, rfl⟩) hva hrow⟩
      simp [conditionAtom, h, hreq, hft, ht, bind, Except.bind, conditionAtom.likeAtom]
    · refine ⟨_, ?_, like_eval_iff enc row column (.inr (.inl ⟨h, rfl⟩)) hva hrow⟩
      simp [conditionAtom, h, hreq, bind, Except.bind, conditionAtom.likeAtom]
    · refine ⟨_, ?_, like_eval_iff enc row column (.inr (.inr ⟨h, rfl⟩)) hva hrow⟩
      simp [conditionAtom, h, hreq, bind, Except.bind, conditionAtom.likeAtom]
  · obtain ⟨items, rfl, hi, -⟩ := hrhs
    have hne : items ≠ [] := by
      rintro rfl
      rcases hop with h | h <;>
        simp [Condition.isTriviallyTrue, Condition.isTriviallyFalse, h, hc] at hplain
    refine ⟨_, ?_, inList_eval_iff enc row column hop (hv.of_scalar ht) hi hne hrow⟩
    rcases hop with h | h <;> simp [conditionAtom, h, hc, conditionAtom.inOperands]

end Atoms

end ZyncBase
