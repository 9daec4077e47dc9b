import ZyncBase.Lib.BigEndian
import ZyncBase.Query.HashContext

/-! What the hashers are fed: the contents of values and conditions for the key of a subscription
group, and the structure of a query for the key of its statement. -/
namespace ZyncBase

open AssocMap List

/-- One update of a hasher: an integer of some bytes, or a byte string. -/
inductive Fed where
  | int (bytes : ℕ) (value : ℕ)
  | raw (bytes : Bytes)
  deriving DecidableEq, Repr

namespace Fed

def usize (n : ℕ) : Fed := .int 8 n
def bool (b : Bool) : Fed := .int 1 b.toNat

/-- A signed integer is fed as its bits. -/
def i64 (n : ℤ) : Fed := .int 8 (n % 2 ^ 64).toNat

/-- Integers are fed as they lie in memory, the least significant byte first. -/
def toBytes : Fed → Bytes
  | int bytes value => (BigEndian.bytes bytes value).reverse
  | raw bytes => bytes

end Fed

/-- The hash depends on the bytes of all updates only. -/
def fedBytes (feed : List Fed) : Bytes := feed.flatMap Fed.toBytes

def PredicateState.toNat : PredicateState → ℕ
  | .conditional => 0
  | .matchAll => 1
  | .matchNone => 2

/-- The encoding of a double, where both zeros are the positive one. -/
def Real64.hashBits (r : Real64) : ℕ :=
  if r.key = 0 then 0 else (if r.negative then 2 ^ 63 else 0) + r.magnitude

section HashContext

def hashScalarValue (s : ScalarValue) : List Fed :=
  .int 1 s.tag ::
    match s with
    | .text t => [.raw t]
    | .docId id => [.int 16 id.val]
    | .integer i => [.i64 i]
    | .real r => [.int 8 r.hashBits]
    | .boolean b => [.bool b]
    | .binary b => [.raw b]

def hashValue (v : Value) : List Fed :=
  .int 1 v.tag ::
    match v with
    | .scalar s => hashScalarValue s
    | .array items => items.flatMap hashScalarValue
    | .nil => []

def hashOption {α : Type*} (feed : α → List Fed) (o : Option α) : List Fed := o.elim [] feed

def hashConditionHead (c : Condition) : List Fed :=
  [.usize c.fieldIndex, .int 1 c.op.toNat, .int 1 c.fieldType.toNat] ++
    hashOption (fun t => [.int 1 t.toNat]) c.itemsType

def hashCondition (c : Condition) : List Fed :=
  hashConditionHead c ++ hashOption hashValue c.value

end HashContext

section Structure

/-- The length of a membership operand decides how many placeholders it gets. -/
def hashOperandLength (c : Condition) : List Fed :=
  if c.op = .isIn ∨ c.op = .notIn then
    match c.value with
    | some (.array items) => [.usize items.length]
    | _ => []
  else []

def hashConditionStructure (c : Condition) : List Fed :=
  hashConditionHead c ++ hashOperandLength c

def hashClauseStructure (clause : OrClause) : List Fed :=
  .usize clause.length :: clause.flatMap hashConditionStructure

def hashSortDescriptor (d : SortDescriptor) : List Fed := [.usize d.fieldIndex, .bool d.desc]

def hashSortDescriptors (ds : List SortDescriptor) : List Fed :=
  .usize ds.length :: ds.flatMap hashSortDescriptor

def structuralFeed (tableIndex : ℕ) (filter : QueryFilter) : List Fed :=
  [.usize tableIndex, .int 1 filter.predicate.state.toNat] ++
    (.usize (filter.predicate.conditions.getD []).length ::
      (filter.predicate.conditions.getD []).flatMap hashConditionStructure) ++
    (.usize (filter.predicate.orClauses.getD []).length ::
      (filter.predicate.orClauses.getD []).flatMap hashClauseStructure) ++
    hashSortDescriptors filter.orderBy ++
    [.bool filter.limit.isSome, .bool filter.after.isSome]

def computeStructuralHash (wyhash : Bytes → UInt64) (tableIndex : ℕ) (filter : QueryFilter) :
    UInt64 := wyhash (fedBytes (structuralFeed tableIndex filter))

end Structure

section Congruence

lemma Real64.hashBits_eq {x y : Real64} (h : x.key = y.key) : x.hashBits = y.hashBits := by
  simp only [hashBits, h]
  split_ifs with h0 hx hy hy <;> simp only [key] at h h0 <;> split_ifs at h h0 <;> omega

lemma hashScalarValue_eq {s t : ScalarValue} (h : s.order t = .eq) : hashScalarValue s = hashScalarValue t := by
  obtain rfl | ⟨x, y, rfl, rfl⟩ := eq_or_real_of_order_eq h
  · rfl
  · rw [ScalarValue.order, Real64.order, compare_eq_iff_eq] at h
    simp only [hashScalarValue, ScalarValue.tag, Real64.hashBits_eq h]

lemma hashItems_eq {as bs : List ScalarValue} (h : Value.itemsEql as bs = true) :
    as.flatMap hashScalarValue = bs.flatMap hashScalarValue := by
  induction as generalizing bs with
  | nil =>
    cases bs with
    | nil => rfl
    | cons b bs => simp [Value.itemsEql] at h
  | cons a as ih =>
    cases bs with
    | nil => simp [Value.itemsEql] at h
    | cons b bs =>
      simp only [Value.itemsEql, Bool.and_eq_true, decide_eq_true_eq] at h
      rw [flatMap_cons, flatMap_cons, hashScalarValue_eq h.1, ih h.2]

lemma length_eq_of_itemsEql {as bs : List ScalarValue} (h : Value.itemsEql as bs = true) :
    as.length = bs.length := by
  have hmap := congrArg List.length (map_order_of_itemsEql (.integer 0) h)
  rwa [length_map, length_map] at hmap

lemma hashValue_eq {v w : Value} (h : v.eql w = true) : hashValue v = hashValue w := by
  cases v <;> cases w <;> simp only [Value.eql, Bool.false_eq_true, decide_eq_true_eq] at h
  case nil.nil => rfl
  case scalar.scalar s t => simp only [hashValue, Value.tag, hashScalarValue_eq h]
  case array.array as bs => simp only [hashValue, Value.tag, hashItems_eq h]

lemma hashConditionHead_eq {a b : Condition} (h : eqlCondition a b = true) :
    hashConditionHead a = hashConditionHead b := by
  obtain ⟨hf, ho, ht, hi, -⟩ := (eqlCondition_iff a b).mp h
  rw [hashConditionHead, hashConditionHead, hf, ho, ht, hi]

lemma hashCondition_eq {a b : Condition} (h : eqlCondition a b = true) : hashCondition a = hashCondition b := by
  obtain ⟨-, -, -, -, hv⟩ := (eqlCondition_iff a b).mp h
  rw [hashCondition, hashCondition, hashConditionHead_eq h]
  obtain ⟨hx, hy⟩ | ⟨x, y, hx, hy, hxy⟩ := sameOption_cases hv
  · rw [hx, hy]
  · rw [hx, hy, hashOption, hashOption, Option.elim_some, Option.elim_some, hashValue_eq hxy]

lemma hashConditionStructure_eq {a b : Condition} (h : eqlCondition a b = true) :
    hashConditionStructure a = hashConditionStructure b := by
  obtain ⟨-, ho, -, -, hv⟩ := (eqlCondition_iff a b).mp h
  rw [hashConditionStructure, hashConditionStructure, hashConditionHead_eq h,
    hashOperandLength, hashOperandLength, ho]
  obtain ⟨hx, hy⟩ | ⟨x, y, hx, hy, hxy⟩ := sameOption_cases hv
  · rw [hx, hy]
  · rw [hx, hy]
    cases x <;> cases y <;> simp only [Value.eql, Bool.false_eq_true] at hxy
    case array.array as bs => simp only [length_eq_of_itemsEql hxy]
    all_goals rfl

lemma flatMap_eq_of_sameList {κ : Type*} {same : κ → κ → Bool} {feed : κ → List Fed}
    (hfeed : ∀ a b, same a b = true → feed a = feed b) {as bs : List κ}
    (h : sameList same as bs = true) : as.flatMap feed = bs.flatMap feed := by
  rw [flatMap_def, flatMap_def, sameList_map_eq hfeed h]

lemma length_eq_of_sameList {κ : Type*} {same : κ → κ → Bool} {as bs : List κ}
    (h : sameList same as bs = true) : as.length = bs.length := by
  have hmap := congrArg List.length (sameList_map_eq (f := fun _ => ()) (fun _ _ _ => rfl) h)
  rwa [length_map, length_map] at hmap

lemma hashConditions_eq {as bs : List Condition} (h : sameList eqlCondition as bs = true) :
    as.flatMap hashCondition = bs.flatMap hashCondition :=
  flatMap_eq_of_sameList (fun _ _ hab => hashCondition_eq hab) h

lemma hashConditionStructures_eq {as bs : List Condition} (h : sameList eqlCondition as bs = true) :
    as.flatMap hashConditionStructure = bs.flatMap hashConditionStructure :=
  flatMap_eq_of_sameList (fun _ _ hab => hashConditionStructure_eq hab) h

lemma hashClauseStructure_eq {a b : OrClause} (h : sameList eqlCondition a b = true) :
    hashClauseStructure a = hashClauseStructure b := by
  rw [hashClauseStructure, hashClauseStructure, length_eq_of_sameList h, hashConditionStructures_eq h]

lemma hashClauseStructures_eq {cs ds : List OrClause} (h : sameList (sameList eqlCondition) cs ds = true) :
    cs.flatMap hashClauseStructure = ds.flatMap hashClauseStructure :=
  flatMap_eq_of_sameList (fun _ _ hab => hashClauseStructure_eq hab) h

end Congruence
end ZyncBase
