import ZyncBase.Subscription.FilterHash
import ZyncBase.Typed.Codec

/-! The laws that the hash maps of subscriptions and the sorts of their filters rest on: equal keys
have equal hashes, and what a comparator does not order is equal. -/
namespace ZyncBase

open AssocMap Condition

/-- The context of a hash map: its equality is an equivalence, and the hash respects it. -/
structure MapContext {κ : Type*} (hash : κ → UInt64) (eql : κ → κ → Bool) : Prop where
  test : KeyTest eql
  hash_eq : ∀ a b, eql a b = true → hash a = hash b

/-- A strict weak order that leaves unordered what is equal. -/
structure SortsBy {κ : Type*} (lessThan eql : κ → κ → Bool) : Prop where
  irrefl : ∀ a, lessThan a a = false
  trans : ∀ a b c, lessThan a b = true → lessThan b c = true → lessThan a c = true
  unordered : ∀ a b, lessThan a b = false ∧ lessThan b a = false ↔ eql a b = true
  test : KeyTest eql

section Comparators

variable {κ : Type*} {cmp : κ → κ → Ordering} [Std.TransCmp cmp] {lessThan eql : κ → κ → Bool}

lemma keyTest_of_cmp (heql : ∀ a b, eql a b = true ↔ cmp a b = .eq) : KeyTest eql where
  refl a := (heql a a).mpr Std.ReflCmp.compare_self
  symm a b h := (heql b a).mpr (Std.OrientedCmp.eq_symm ((heql a b).mp h))
  trans a b c h g := (heql a c).mpr (Std.TransCmp.eq_trans ((heql a b).mp h) ((heql b c).mp g))

lemma sortsBy_of_cmp (hlt : ∀ a b, lessThan a b = true ↔ cmp a b = .lt)
    (heql : ∀ a b, eql a b = true ↔ cmp a b = .eq) : SortsBy lessThan eql where
  irrefl a := by
    have hself : cmp a a = .eq := Std.ReflCmp.compare_self
    rw [← Bool.not_eq_true, hlt, hself]
    exact Ordering.noConfusion
  trans a b c h g := (hlt a c).mpr (Std.TransCmp.lt_trans ((hlt a b).mp h) ((hlt b c).mp g))
  unordered a b := by
    have hswap : cmp b a = (cmp a b).swap := Std.OrientedCmp.eq_swap
    rw [← Bool.not_eq_true, ← Bool.not_eq_true, hlt, hlt, heql, hswap]
    cases cmp a b <;> simp
  test := keyTest_of_cmp heql

end Comparators

def ScalarValue.eql (a b : ScalarValue) : Bool := a.order b = .eq

/-- The tier of the operator comes first in the order of a path. -/
def Condition.pathOrder : Condition → Condition → Ordering :=
  compareLex (compareOn fun c => conditionTier c.op) Condition.order

lemma pathConditionLessThan_iff (a b : Condition) : pathConditionLessThan a b = true ↔ a.pathOrder b = .lt := by
  have hrest : pathConditionLessThan a b =
      if conditionTier a.op ≠ conditionTier b.op then
        decide (conditionTier a.op < conditionTier b.op)
      else conditionLessThan a b := by
    unfold pathConditionLessThan conditionLessThan
    split_ifs <;> rfl
  rw [hrest, pathOrder, compareLex, Ordering.then_eq_lt, compareOn, compare_lt_iff_lt,
    compare_eq_iff_eq, ← conditionLessThan_iff]
  split_ifs with htier
  · simp [htier]
  · simp_all

lemma pathOrder_eq_iff (a b : Condition) : eqlCondition a b = true ↔ a.pathOrder b = .eq := by
  rw [pathOrder, compareLex_eq_eq, order_eq_iff, compareOn, compare_eq_iff_eq]
  exact (and_iff_right_of_imp fun h => congrArg conditionTier ((eqlCondition_iff a b).mp h).2.1).symm

instance : Std.TransCmp pathOrder := by
  unfold pathOrder
  infer_instance

lemma sameConditions_iff_order (as bs : OrClause) :
    sameList eqlCondition as bs = true ↔ List.compareLex Condition.order as bs = .eq := by
  induction as generalizing bs with
  | nil => cases bs <;> simp [sameList, List.compareLex_nil_cons, List.compareLex_nil_nil]
  | cons a as ih =>
    cases bs with
    | nil => simp [sameList, List.compareLex_cons_nil]
    | cons b bs =>
      rw [sameList, Bool.and_eq_true, ih, List.compareLex_cons_cons, Ordering.then_eq_eq,
        order_eq_iff]

section Contexts

variable (wyhash : Bytes → UInt64)

def hashFed {κ : Type*} (feed : κ → List Fed) (key : κ) : UInt64 := wyhash (fedBytes (feed key))

def filterKeyFeed (key : CollectionFilterKey) : List Fed :=
  [.i64 key.collection.namespaceId, .usize key.collection.tableIndex,
    .int 8 (filterHash wyhash key.filter).toNat]

lemma mapContext_of_feed {κ : Type*} {feed : κ → List Fed} {eql : κ → κ → Bool} [KeyTest eql]
    (hfeed : ∀ a b, eql a b = true → feed a = feed b) : MapContext (hashFed wyhash feed) eql where
  test := inferInstance
  hash_eq a b h := congrArg (fun fed => wyhash (fedBytes fed)) (hfeed a b h)

lemma scalar_eql_iff (a b : ScalarValue) : a.eql b = true ↔ a.order b = .eq := decide_eq_true_iff

instance : KeyTest ScalarValue.eql := keyTest_of_cmp scalar_eql_iff

lemma filterKeyFeed_eq {a b : CollectionFilterKey} (h : eqlFilterKey a b = true) :
    filterKeyFeed wyhash a = filterKeyFeed wyhash b := by
  obtain ⟨hcollection, hfilter⟩ := (eqlFilterKey_iff a b).mp h
  rw [filterKeyFeed, filterKeyFeed, hcollection, filterHash, filterHash, filterFeed_eq hfilter]

end Contexts

section Doubles

/-- A double of any kind: the sign bit and the other 63 bits. -/
abbrev Double := Bool × Fin (2 ^ 63)

namespace Double

def isNaN (x : Double) : Bool := 0x7FF0000000000000 < x.2.val

def key (x : Double) : ℤ := if x.1 then -(x.2.val : ℤ) else x.2.val

/-- `std.math.order`: with NaN no comparison holds, and it comes to `unreachable`. -/
def order (x y : Double) : Option Ordering :=
  if x.isNaN || y.isNaN then none else some (compare x.key y.key)

end Double

def Real64.double (r : Real64) : Double := (r.negative, ⟨r.magnitude, r.finite.trans (by decide)⟩)

lemma order_double (a b : Real64) : a.double.order b.double = some (a.order b) := by
  have hfinite (r : Real64) : r.double.isNaN = false := decide_eq_false (not_lt.mpr r.finite.le)
  rw [Double.order, hfinite, hfinite]
  rfl

lemma toFloat_double {x : Double} {r : Real64} (h : (Payload.float x.1 x.2).toFloat = .ok r) :
    r.double = x ∧ x.isNaN = false := by
  rw [Payload.toFloat, Payload.finiteReal] at h
  split_ifs at h with hfinite
  cases h
  exact ⟨rfl, decide_eq_false (by omega)⟩

end Doubles

/-- Keys that are equal have equal hashes, equality is an equivalence, and the comparators order all
that is not equal, over operands with the finite reals, which are the ones that are decoded. -/
theorem subscription_keys_lawful (wyhash : Bytes → UInt64) :
    (MapContext (hashFed wyhash hashScalarValue) ScalarValue.eql ∧
      MapContext (hashFed wyhash hashValue) Value.eql ∧
      MapContext (hashFed wyhash hashCondition) eqlCondition ∧
      MapContext (filterHash wyhash) eqlFilter ∧
      MapContext (hashFed wyhash (filterKeyFeed wyhash)) eqlFilterKey) ∧
    (SortsBy ScalarValue.lessThan ScalarValue.eql ∧ SortsBy conditionLessThan eqlCondition ∧
      SortsBy pathConditionLessThan eqlCondition ∧
      SortsBy orClauseLessThan (sameList eqlCondition)) ∧
    (∀ a b : Real64, a.double.order b.double = some (a.order b)) ∧
    ∀ (x : Double) (r : Real64), (Payload.float x.1 x.2).toFloat = .ok r → r.double = x ∧ x.isNaN = false := by
  refine ⟨⟨?_, ?_, ?_, ?_, ?_⟩, ⟨?_, ?_, ?_, ?_⟩, order_double, fun _ _ => toFloat_double⟩
  · exact mapContext_of_feed wyhash fun _ _ h => hashScalarValue_eq (of_decide_eq_true h)
  · exact mapContext_of_feed wyhash fun _ _ => hashValue_eq
  · exact mapContext_of_feed wyhash fun _ _ => hashCondition_eq
  · exact mapContext_of_feed wyhash fun _ _ => filterFeed_eq
  · exact mapContext_of_feed wyhash fun _ _ => filterKeyFeed_eq wyhash
  · exact sortsBy_of_cmp (fun _ _ => decide_eq_true_iff) scalar_eql_iff
  · exact sortsBy_of_cmp conditionLessThan_iff fun a b => (order_eq_iff a b).symm
  · exact sortsBy_of_cmp pathConditionLessThan_iff pathOrder_eq_iff
  · exact sortsBy_of_cmp orClauseLessThan_iff sameConditions_iff_order

/-- NaN does not equal itself: comparing the two does not return. -/
theorem nan_not_equal : ¬ ∀ x : Double, x.order x = some .eq := by
  intro h
  exact absurd (h (false, 0x7FF8000000000000)) (by decide)

end ZyncBase
