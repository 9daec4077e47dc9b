import Mathlib.Algebra.Group.Int.Defs
import Mathlib.Algebra.Group.Nat.Defs
import ZyncBase.Lib.SortedSearch

/-! Typed values of records and cursors: scalars, arrays and nil, with the total order of scalars
and the equality and partial order of values. -/
namespace ZyncBase

abbrev Bytes := List UInt8

/-- Document ids are 128-bit unsigned integers. -/
abbrev DocId := Fin (2 ^ 128)

instance docId_bound_neZero : @NeZero ℕ Zero.ofOfNat0 (2 ^ 128) := ⟨by decide⟩

/-- A finite double, as the sign bit and the remaining 63 bits of its encoding. -/
structure Real64 where
  negative : Bool
  magnitude : ℕ
  finite : magnitude < 0x7FF0000000000000
  deriving DecidableEq, Repr

namespace Real64

/-- Doubles are sign-magnitude: the signed bit pattern orders them, with both zeros equal. -/
def key (r : Real64) : ℤ := if r.negative then -(r.magnitude : ℤ) else r.magnitude

def order (a b : Real64) : Ordering := compare a.key b.key

end Real64

/-- A scalar without nesting and without nil. -/
inductive ScalarValue where
  | docId (id : DocId)
  | integer (value : ℤ)
  | real (value : Real64)
  | text (value : Bytes)
  | boolean (value : Bool)
  | binary (value : Bytes)
  deriving DecidableEq, Repr

namespace ScalarValue

/-- Position of the constructor in the tagged union. -/
def tag : ScalarValue → ℕ
  | docId _ => 0
  | integer _ => 1
  | real _ => 2
  | text _ => 3
  | boolean _ => 4
  | binary _ => 5

def order : ScalarValue → ScalarValue → Ordering
  | docId a, docId b => compare a b
  | integer a, integer b => compare a b
  | real a, real b => a.order b
  | text a, text b => compare a b
  | boolean a, boolean b => compare a.toNat b.toNat
  | binary a, binary b => compare a b
  | a, b => compare a.tag b.tag

def lessThan (a b : ScalarValue) : Bool := a.order b = .lt

/-- The numeric part of a scalar, ordered within its tag. -/
def numericKey : ScalarValue → ℤ
  | docId id => id.val
  | integer v => v
  | real r => r.key
  | boolean b => b.toNat
  | text _ | binary _ => 0

/-- The byte-string part of a scalar, ordered within its tag. -/
def bytesKey : ScalarValue → Bytes
  | text v | binary v => v
  | _ => []

def keyOrder : ScalarValue → ScalarValue → Ordering :=
  compareLex (compareOn tag) (compareLex (compareOn numericKey) (compareOn bytesKey))

lemma compare_natCast (a b : ℕ) : compare (a : ℤ) (b : ℤ) = compare a b := by
  rcases Nat.lt_trichotomy a b with h | h | h
  · rw [compare_lt_iff_lt.mpr h, compare_lt_iff_lt.mpr (by exact_mod_cast h)]
  · simp [h]
  · rw [compare_gt_iff_gt.mpr h, compare_gt_iff_gt.mpr (by exact_mod_cast h)]

lemma order_eq_keyOrder : order = keyOrder := by
  funext a b
  cases a <;> cases b <;>
    simp [order, keyOrder, compareLex, compareOn, tag, numericKey, bytesKey, Real64.order,
      compare_natCast] <;> rfl

instance : Std.TransCmp order := by
  rw [order_eq_keyOrder]
  unfold keyOrder
  infer_instance

lemma tag_eq_of_order_eq (a b : ScalarValue) (h : order a b = .eq) : a.tag = b.tag := by
  rw [order_eq_keyOrder, keyOrder, compareLex_eq_eq] at h
  simpa [compareOn] using h.1

end ScalarValue

/-- A value of a record or a cursor. Arrays hold scalars only. -/
inductive Value where
  | scalar (value : ScalarValue)
  | array (items : List ScalarValue)
  | nil
  deriving DecidableEq, Repr

namespace Value

/-- Position of the constructor in the tagged union. -/
def tag : Value → ℕ
  | scalar _ => 0
  | array _ => 1
  | nil => 2

/-- Arrays become sorted sets; other values stay as they are. -/
def sortedSet : Value → Value
  | array items => array (SortedSearch.sortedSet ScalarValue.order items)
  | v => v

/-- Elementwise agreement of two arrays of one length. -/
def itemsEql : List ScalarValue → List ScalarValue → Bool
  | [], [] => true
  | a :: as, b :: bs => a.order b = .eq && itemsEql as bs
  | _, _ => false

def eql : Value → Value → Bool
  | nil, nil => true
  | scalar a, scalar b => a.order b = .eq
  | array as, array bs => itemsEql as bs
  | _, _ => false

/-- Values of different shape compare as `lt`, and two arrays or two nils as `eq`. -/
def order : Value → Value → Ordering
  | scalar a, scalar b => a.order b
  | array _, array _ => .eq
  | nil, nil => .eq
  | _, _ => .lt

lemma itemsEql_iff (as bs : List ScalarValue) :
    itemsEql as bs ↔ List.compareLex ScalarValue.order as bs = .eq := by
  induction as generalizing bs with
  | nil => cases bs <;> simp [itemsEql, List.compareLex_nil_cons, List.compareLex_nil_nil]
  | cons a as ih =>
    cases bs with
    | nil => simp [itemsEql, List.compareLex_cons_nil]
    | cons b bs =>
      rw [itemsEql, List.compareLex_cons_cons, Bool.and_eq_true, ih]
      cases h : a.order b <;> simp

/-- Values ordered by shape, then by content: the order behind `eql`. -/
def totalOrder : Value → Value → Ordering
  | scalar a, scalar b => a.order b
  | array as, array bs => List.compareLex ScalarValue.order as bs
  | a, b => compare a.tag b.tag

lemma eql_iff (a b : Value) : a.eql b ↔ a.totalOrder b = .eq := by
  cases a <;> cases b <;> simp [eql, totalOrder, tag, itemsEql_iff]

instance : Std.TransCmp totalOrder where
  eq_swap := by
    intro a b
    cases a <;> cases b <;> simp only [totalOrder, tag]
    case scalar.scalar => exact Std.OrientedCmp.eq_swap
    case array.array => exact Std.OrientedCmp.eq_swap
    all_goals decide
  isLE_trans := by
    intro a b c hab hbc
    cases a <;> cases b <;> cases c <;> simp only [totalOrder, tag] at hab hbc ⊢
    case scalar.scalar.scalar => exact Std.TransCmp.isLE_trans hab hbc
    case array.array.array => exact Std.TransCmp.isLE_trans hab hbc
    all_goals first | decide | exact absurd hab (by decide) | exact absurd hbc (by decide)

@[simp] lemma eql_self (a : Value) : a.eql a := by
  rw [eql_iff]; exact Std.ReflCmp.compare_self

lemma eql_symm (a b : Value) (h : a.eql b) : b.eql a := by
  rw [eql_iff] at h ⊢; exact Std.OrientedCmp.eq_symm h

lemma eql_trans (a b c : Value) (hab : a.eql b) (hbc : b.eql c) : a.eql c := by
  rw [eql_iff] at *; exact Std.TransCmp.eq_trans hab hbc

lemma eql_congr_right (a b c : Value) (h : b.eql c) : a.eql b = a.eql c := by
  rw [Bool.eq_iff_iff]
  exact ⟨fun hab => eql_trans a b c hab h, fun hac => eql_trans a c b hac (eql_symm b c h)⟩

lemma order_congr_right (a b c : Value) (h : b.eql c) : a.order b = a.order c := by
  cases b <;> cases c <;> simp only [eql, Bool.false_eq_true, decide_eq_true_eq] at h <;>
    cases a <;> simp only [order]
  exact Std.TransCmp.congr_right h

end Value

/-- The values of a row, in the order of the table's fields. -/
structure Record where
  values : List Value
  deriving DecidableEq, Repr

/-- Cursor values in canonical sort order. -/
structure Cursor where
  values : List Value
  deriving DecidableEq, Repr

end ZyncBase
