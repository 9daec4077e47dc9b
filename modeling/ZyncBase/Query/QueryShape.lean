import ZyncBase.Lib.Utf
import ZyncBase.Query.Hasher
import ZyncBase.Query.Parser

/-! The shape of a query, which is all that its statement depends on, and how it is read off from
what the structural hash is fed. -/
namespace ZyncBase

open FilterPredicate PrefixCode

/-- The operators that are rendered with LIKE. -/
def Condition.isLike (c : Condition) : Bool :=
  c.op = .startsWith || c.op = .endsWith || c.op = .contains && c.fieldType ≠ .array

def Condition.isMembership (c : Condition) : Bool := c.op = .isIn || c.op = .notIn

/-- The number of elements of an array operand. -/
def Condition.operandLength (c : Condition) : ℕ :=
  match c.value with
  | some (.array items) => items.length
  | _ => 0

/-- A condition on a field of the table, with an operand that its operator can be rendered with. -/
structure Condition.Shaped (t : Table) (c : Condition) : Prop where
  field : ∃ f, t.fields[c.fieldIndex]? = some f ∧ c.fieldType = f.storageType ∧ c.itemsType = f.itemsType
  operand : c.HasOperand
  membership : c.isMembership = true → ∃ items, c.value = some (.array items)
  like : c.isLike = true → ∃ text, c.value = some (.scalar (.text text))

/-- Conditions that are rendered to the same text. -/
structure Condition.SameShape (a b : Condition) : Prop where
  fieldIndex : a.fieldIndex = b.fieldIndex
  op : a.op = b.op
  fieldType : a.fieldType = b.fieldType
  itemsType : a.itemsType = b.itemsType
  membership : a.isMembership = true → a.operandLength = b.operandLength

namespace QueryFilter

/-- A query whose conditions can be rendered, with an order and a value of the cursor for each sort
key. -/
structure Shaped (t : Table) (f : QueryFilter) : Prop where
  conditions : ∀ c ∈ f.predicate.allConditions, c.Shaped t
  ordered : f.orderBy ≠ []
  sortFields : ∀ d ∈ f.orderBy, d.fieldIndex < t.fields.length
  cursor : ∀ cursor, f.after = some cursor → cursor.values.length = f.orderBy.length

/-- All lengths and indexes are machine words, as those of slices are. -/
structure Sized (f : QueryFilter) : Prop where
  conditions : (f.predicate.conditions.getD []).length < 256 ^ 8
  clauses : (f.predicate.orClauses.getD []).length < 256 ^ 8
  clause : ∀ clause ∈ f.predicate.orClauses.getD [], clause.length < 256 ^ 8
  condition : ∀ c ∈ f.predicate.allConditions, c.fieldIndex < 256 ^ 8 ∧ c.operandLength < 256 ^ 8
  orderBy : f.orderBy.length < 256 ^ 8
  descriptor : ∀ d ∈ f.orderBy, d.fieldIndex < 256 ^ 8

/-- Queries of one shape differ in the values they compare with, in the limit and in the cursor. -/
structure SameShape (f g : QueryFilter) : Prop where
  state : f.predicate.state = g.predicate.state
  conditions : List.Forall₂ Condition.SameShape (f.predicate.conditions.getD [])
    (g.predicate.conditions.getD [])
  clauses : List.Forall₂ (List.Forall₂ Condition.SameShape) (f.predicate.orClauses.getD [])
    (g.predicate.orClauses.getD [])
  orderBy : f.orderBy = g.orderBy
  limit : f.limit.isSome = g.limit.isSome
  after : f.after.isSome = g.after.isSome

end QueryFilter

section Reading

@[simp] lemma fedBytes_nil : fedBytes [] = [] := rfl

@[simp] lemma fedBytes_cons (x : Fed) (xs : List Fed) : fedBytes (x :: xs) = x.toBytes ++ fedBytes xs := rfl

@[simp] lemma fedBytes_append (xs ys : List Fed) :
    fedBytes (xs ++ ys) = fedBytes xs ++ fedBytes ys := List.flatMap_append

@[simp] lemma fedBytes_flatMap {α : Type*} (feed : α → List Fed) (as : List α) :
    fedBytes (as.flatMap feed) = as.flatMap fun a => fedBytes (feed a) := List.flatMap_assoc

lemma splits_int {w a b : ℕ} (ha : a < 256 ^ w) (hb : b < 256 ^ w) :
    Splits (Fed.int w a).toBytes (Fed.int w b).toBytes (a = b) := by
  refine .of_length (by simp [Fed.toBytes]) fun h => ?_
  have hbytes : BigEndian.bytes w a = BigEndian.bytes w b := List.reverse_injective h
  rw [← compare_eq_iff_eq, ← BigEndian.compare_bytes w a b ha hb, hbytes]
  exact Std.ReflCmp.compare_self

lemma splits_bool (a b : Bool) : Splits (Fed.bool a).toBytes (Fed.bool b).toBytes (a = b) :=
  (splits_int (by cases a <;> decide) (by cases b <;> decide)).imp fun h => by
    cases a <;> cases b <;> simp_all

lemma splits_operator (a b : Operator) :
    Splits (Fed.int 1 a.toNat).toBytes (Fed.int 1 b.toNat).toBytes (a = b) :=
  (splits_int (by cases a <;> decide) (by cases b <;> decide)).imp fun h => by
    rw [← Option.some_inj, ← Operator.ofNat?_toNat, h, Operator.ofNat?_toNat]

lemma splits_state (a b : PredicateState) :
    Splits (Fed.int 1 a.toNat).toBytes (Fed.int 1 b.toNat).toBytes (a = b) :=
  (splits_int (by cases a <;> decide) (by cases b <;> decide)).imp fun h => by
    cases a <;> cases b <;> simp_all [PredicateState.toNat]

lemma Condition.Shaped.types_eq {t : Table} {a b : Condition} (ha : a.Shaped t)
    (hb : b.Shaped t) (h : a.fieldIndex = b.fieldIndex) :
    a.fieldType = b.fieldType ∧ a.itemsType = b.itemsType := by
  obtain ⟨f, hf, hft, hfi⟩ := ha.field
  obtain ⟨g, hg, hgt, hgi⟩ := hb.field
  rw [h, hg] at hf
  cases hf
  exact ⟨hft.trans hgt.symm, hfi.trans hgi.symm⟩

lemma Condition.Shaped.operandLength_fed {t : Table} {c : Condition} (h : c.Shaped t) :
    hashOperandLength c = if c.isMembership then [.usize c.operandLength] else [] := by
  have hm : c.isMembership = true ↔ c.op = .isIn ∨ c.op = .notIn := by simp [isMembership]
  rw [hashOperandLength]
  by_cases hc : c.isMembership = true
  · obtain ⟨items, hv⟩ := h.membership hc
    rw [if_pos (hm.mp hc), if_pos hc, hv, operandLength, hv]
  · rw [if_neg (mt hm.mpr hc), if_neg hc]

lemma splits_condition {t : Table} {a b : Condition} (ha : a.Shaped t) (hb : b.Shaped t)
    (hsa : a.fieldIndex < 256 ^ 8 ∧ a.operandLength < 256 ^ 8)
    (hsb : b.fieldIndex < 256 ^ 8 ∧ b.operandLength < 256 ^ 8) :
    Splits (fedBytes (hashConditionStructure a)) (fedBytes (hashConditionStructure b)) (a.SameShape b) := by
  simp only [hashConditionStructure, hashConditionHead, fedBytes_append, fedBytes_cons,
    fedBytes_nil, List.append_nil, List.append_assoc]
  have htail (hfield : a.fieldIndex = b.fieldIndex) (hop : a.op = b.op) :
      Splits ((Fed.int 1 a.fieldType.toNat).toBytes ++
          (fedBytes (hashOption (fun t => [.int 1 t.toNat]) a.itemsType) ++
            fedBytes (hashOperandLength a)))
        ((Fed.int 1 b.fieldType.toNat).toBytes ++
          (fedBytes (hashOption (fun t => [.int 1 t.toNat]) b.itemsType) ++
            fedBytes (hashOperandLength b))) (a.SameShape b) := by
    obtain ⟨hft, hit⟩ := ha.types_eq hb hfield
    rw [hft, hit, ha.operandLength_fed, hb.operandLength_fed]
    have hmem : a.isMembership = b.isMembership := by rw [Condition.isMembership, hop]; rfl
    have hlen : Splits (fedBytes (if a.isMembership then [.usize a.operandLength] else []))
        (fedBytes (if b.isMembership then [.usize b.operandLength] else []))
        (a.isMembership = true → a.operandLength = b.operandLength) := by
      rw [← hmem]
      cases a.isMembership with
      | false => exact Splits.nil.imp fun _ h => by cases h
      | true =>
        simp only [if_true, fedBytes_cons, fedBytes_nil, List.append_nil]
        exact (splits_int hsa.2 hsb.2).imp fun h _ => h
    have hsame (xs : Bytes) : Splits xs xs True := .of_length rfl fun _ => trivial
    exact ((hsame _).append fun _ => (hsame _).append fun _ => hlen).imp fun h =>
      ⟨hfield, hop, hft, hit, h.2.2⟩
  exact ((splits_int hsa.1 hsb.1).append fun hfield =>
    (splits_operator a.op b.op).append (htail hfield)).imp fun h => h.2.2

lemma splits_list {α : Type*} {feed : α → List Fed} {R : α → α → Prop} {as bs : List α}
    (ha : as.length < 256 ^ 8) (hb : bs.length < 256 ^ 8)
    (h : ∀ a ∈ as, ∀ b ∈ bs, Splits (fedBytes (feed a)) (fedBytes (feed b)) (R a b)) :
    Splits (fedBytes (.usize as.length :: as.flatMap feed))
      (fedBytes (.usize bs.length :: bs.flatMap feed)) (List.Forall₂ R as bs) := by
  simp only [fedBytes_cons, fedBytes_flatMap]
  exact ((splits_int ha hb).append fun hlen => Splits.flatMap hlen h).imp fun hR => hR.2

lemma splits_descriptor {a b : SortDescriptor} (ha : a.fieldIndex < 256 ^ 8) (hb : b.fieldIndex < 256 ^ 8) :
    Splits (fedBytes (hashSortDescriptor a)) (fedBytes (hashSortDescriptor b)) (a = b) := by
  simp only [hashSortDescriptor, fedBytes_cons, fedBytes_nil, List.append_nil]
  refine ((splits_int ha hb).append fun _ => splits_bool a.desc b.desc).imp fun h => ?_
  obtain ⟨i, d⟩ := a
  obtain ⟨j, e⟩ := b
  exact congrArg₂ SortDescriptor.mk h.1 h.2

lemma fedBytes_structuralFeed (tableIndex : ℕ) (f : QueryFilter) : fedBytes (structuralFeed tableIndex f) =
    (Fed.usize tableIndex).toBytes ++ ((Fed.int 1 f.predicate.state.toNat).toBytes ++
      (fedBytes (.usize (f.predicate.conditions.getD []).length ::
          (f.predicate.conditions.getD []).flatMap hashConditionStructure) ++
        (fedBytes (.usize (f.predicate.orClauses.getD []).length ::
            (f.predicate.orClauses.getD []).flatMap hashClauseStructure) ++
          (fedBytes (.usize f.orderBy.length :: f.orderBy.flatMap hashSortDescriptor) ++
            ((Fed.bool f.limit.isSome).toBytes ++ (Fed.bool f.after.isSome).toBytes))))) := by
  have hpair (a b : Fed) : fedBytes [a, b] = a.toBytes ++ b.toBytes := by simp
  simp only [structuralFeed, hashSortDescriptors, fedBytes_append, hpair, List.append_assoc]

lemma sameShape_of_structuralFeed {t : Table} {f g : QueryFilter} {tableIndex : ℕ}
    (hf : f.Shaped t) (hg : g.Shaped t) (hsf : f.Sized) (hsg : g.Sized)
    (h : fedBytes (structuralFeed tableIndex f) = fedBytes (structuralFeed tableIndex g)) :
    f.SameShape g := by
  have hcond (a) (ha : a ∈ f.predicate.allConditions) (b) (hb : b ∈ g.predicate.allConditions) :
      Splits (fedBytes (hashConditionStructure a)) (fedBytes (hashConditionStructure b)) (a.SameShape b) :=
    splits_condition (hf.conditions a ha) (hg.conditions b hb) (hsf.condition a ha) (hsg.condition b hb)
  have hconds := @splits_list _ hashConditionStructure _ _ _ hsf.conditions hsg.conditions
    fun a ha b hb => hcond a (mem_allConditions_of_conditions ha) b
      (mem_allConditions_of_conditions hb)
  have hclauses := @splits_list _ hashClauseStructure _ _ _ hsf.clauses hsg.clauses
    fun c hc d hd => splits_list (hsf.clause c hc) (hsg.clause d hd) fun a ha b hb =>
      hcond a (mem_allConditions_of_clause hc ha) b
        (mem_allConditions_of_clause hd hb)
  have horder := @splits_list _ hashSortDescriptor _ _ _ hsf.orderBy hsg.orderBy fun a ha b hb =>
    splits_descriptor (hsf.descriptor a ha) (hsg.descriptor b hb)
  have htable : Splits (Fed.usize tableIndex).toBytes (Fed.usize tableIndex).toBytes True :=
    .of_length rfl fun _ => trivial
  have hlast := (splits_bool f.limit.isSome g.limit.isSome).append fun _ =>
    splits_bool f.after.isSome g.after.isSome
  rw [fedBytes_structuralFeed, fedBytes_structuralFeed] at h
  obtain ⟨-, hs, hc, ho, hd, hl, ha⟩ := (htable.append fun _ => (splits_state _ _).append fun _ =>
    hconds.append fun _ => hclauses.append fun _ => horder.append fun _ => hlast).of_eq h
  rw [List.forall₂_eq_eq_eq] at hd
  exact ⟨hs, hc, ho, hd, hl, ha⟩

end Reading
end ZyncBase
