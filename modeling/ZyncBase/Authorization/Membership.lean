import ZyncBase.Authorization.Evaluate
import ZyncBase.Lib.Bisection
import ZyncBase.Query.Parser

/-! Membership in an array operand, by where the array comes from. All producers sort their arrays
but the reader of claims, which keeps the order of the token. -/
namespace ZyncBase

open Outcome SortedSearch ScalarValue

def parseScalarArrayItem : JsonValue → Option ScalarValue
  | .string s => some (.text s)
  | .integer i => some (.integer i)
  | .float f => some (.real f)
  | .bool b => some (.boolean b)
  | _ => none

/-- Position of the constructor in the tagged union. -/
def JsonValue.tag : JsonValue → ℕ
  | .null => 0
  | .bool _ => 1
  | .integer _ => 2
  | .float _ => 3
  | .numberString _ => 4
  | .string _ => 5
  | .array _ => 6
  | .object _ => 7

def parseArrayLiteral (values : List JsonValue) : Option Value :=
  if values.any fun item => some item.tag ≠ values.head?.map JsonValue.tag then none
  else (values.mapM parseScalarArrayItem).map fun items => (Value.array items).sortedSet

/-- Where the array operand of a comparison comes from. -/
inductive ArraySource where
  | queryOperand (op : Operator) (fieldType : FieldType) (itemsType : Option FieldType) (raw : Payload)
  | schemaLiteral (values : List JsonValue)
  | payloadField (fieldType : FieldType) (itemsType : Option FieldType) (raw : Payload)
  | storedColumn (fieldType : FieldType) (itemsType : Option FieldType) (json : JsonValue)
  | jwtClaim (obj : List (String × JsonValue)) (mapping : List (String × String)) (name : String)
  | ticketClaim (entries : List (String × JsonValue)) (name : String)

namespace ArraySource

/-- The source is accepted, and gives this array. -/
def Yields : ArraySource → List ScalarValue → Prop
  | queryOperand op fieldType itemsType raw, items =>
    parseConditionValueForOperator op fieldType itemsType (some raw) = .ok (some (.array items))
  | schemaLiteral values, items => parseArrayLiteral values = some (.array items)
  | payloadField fieldType itemsType raw, items =>
    fromPayload fieldType itemsType raw = .ok (.array items)
  | storedColumn fieldType itemsType json, items =>
    fromJson fieldType itemsType json = .ok (.array items)
  | jwtClaim obj mapping name, items =>
    ∃ claims, extractClaimsFromPayload (.object obj) [] mapping = .ok claims ∧
      claims.lookup name = some (.array items)
  | ticketClaim entries name, items =>
    ∃ claims, extractClaims [] entries = .ok claims ∧ claims.lookup name = some (.array items)

def isClaim : ArraySource → Bool
  | jwtClaim _ _ _ | ticketClaim _ _ => true
  | _ => false

end ArraySource

/-- Every membership comparison with the array tells whether the scalar is one of its elements. -/
def MembershipExact (items : List ScalarValue) : Prop :=
  ∀ a : ScalarValue,
    (compareValues .isIn (.scalar a) (.array items) = true ↔
      Has order a items) ∧
    (compareValues .notIn (.scalar a) (.array items) = true ↔
      ¬ Has order a items) ∧
    (compareValues .contains (.array items) (.scalar a) = true ↔
      Has order a items)

lemma membershipExact_iff_bisectable (items : List ScalarValue) :
    MembershipExact items ↔ Bisectable order items := by
  rw [← binarySearch_exact_iff]
  refine forall_congr' fun a => ?_
  change (searchScalar a items = true ↔ _) ∧ ((!searchScalar a items) = true ↔ _) ∧
    (searchScalar a items = true ↔ _) ↔ (searchScalar a items = true ↔ _)
  rw [Bool.not_eq_true', ← Bool.not_eq_true, not_iff_not, and_self, and_self]

lemma strict_of_parseConditionValueForOperator {op : Operator} {t : FieldType}
    {itemsType : Option FieldType} {raw : Payload} {items : List ScalarValue}
    (h : parseConditionValueForOperator op t itemsType (some raw) = .ok (some (.array items))) :
    Strict order items := by
  obtain ⟨shape, -, h⟩ := bind_eq_ok.mp h
  split_ifs at h with hnullary hsome
  · cases h
  · exact absurd rfl hsome
  obtain ⟨raw', hraw, h⟩ := bind_eq_ok.mp h
  obtain ⟨v, hv, h⟩ := bind_eq_ok.mp h
  cases h
  cases shape with
  | nullary => exact absurd rfl hnullary
  | scalar => exact (parseFieldValue_decodes hv).2.2
  | arrayField => exact (parseFieldValue_decodes hv).2.2
  | arrayMembership =>
    obtain ⟨ss, hss, -, hstrict⟩ := parseInOperand_admits hv
    cases hss
    exact hstrict
  | containsElement =>
    obtain ⟨i, -, hv⟩ := bind_eq_ok.mp hv
    obtain ⟨s, hs, -⟩ := parseScalarValue_decodes hv
    cases hs
  | scalarText | containsText =>
    cases raw' with
    | str b =>
      obtain ⟨s, hs, -⟩ := parseScalarValue_decodes hv
      cases hs
    | _ => cases hv

lemma ArraySource.strict_of_yields {src : ArraySource} {items : List ScalarValue}
    (hsrc : src.isClaim = false) (h : src.Yields items) : Strict order items := by
  cases src with
  | queryOperand op t itemsType raw => exact strict_of_parseConditionValueForOperator h
  | schemaLiteral values =>
    change parseArrayLiteral values = _ at h
    rw [parseArrayLiteral] at h
    split_ifs at h
    obtain ⟨ss, -, h⟩ := Option.map_eq_some_iff.mp h
    cases h
    exact strict_sortedSet _ ss
  | payloadField t itemsType raw =>
    change fromPayload t itemsType raw = _ at h
    cases hnil : raw.isNil with
    | true =>
      rw [fromPayload, if_pos hnil] at h
      cases h
    | false => exact (fromPayload_decodes hnil h).2.2
  | storedColumn t itemsType json => exact strict_of_fromJson h
  | jwtClaim obj mapping name => cases hsrc
  | ticketClaim entries name => cases hsrc

/-- Membership is exact in every array but those of claims, whose order is the token's. There it is
exact when every element has a copy in place for binary search; when no two elements are equal, that
is when the token lists them in increasing order. -/
theorem membership_exact_iff (src : ArraySource) (items : List ScalarValue) (h : src.Yields items) :
    (MembershipExact items ↔
      (src.isClaim = true → Bisectable order items)) ∧
    ((items.Pairwise fun a b => a.order b ≠ .eq) → (MembershipExact items ↔
      (src.isClaim = true → Strict order items))) := by
  rw [membershipExact_iff_bisectable]
  cases hsrc : src.isClaim with
  | false =>
    have hbis := bisectable_of_strict (src.strict_of_yields hsrc h)
    simp [hbis]
  | true =>
    simp only [true_implies, true_and]
    exact bisectable_iff_strict

namespace MembershipExample

/-- A token of a user with two roles, which the configuration maps to a session variable. -/
def token (roles : List Bytes) : ArraySource :=
  .jwtClaim [("sub", .string [117]), ("roles", .array (roles.map .string))] [("roles", "roles")] "roles"

/-- Users with this role are allowed. -/
def withRole (role : Bytes) : Comparison :=
  ⟨⟨.session, "roles"⟩, .contains, some (.literal (.scalar (.text role)))⟩

/-- Listed in increasing order, both roles are found. -/
theorem membership_exact_sorted_roles : MembershipExact [text [97], .text [98]] :=
  ((membership_exact_iff (token [[97], [98]]) [.text [97], .text [98]]
    ⟨_, rfl, rfl⟩).2 (by decide)).mpr fun _ => by decide

/-- The token lists role `b` before role `a`, and a search for `b` misses it. -/
theorem roles_missed : (token [[98], [97]]).Yields [.text [98], .text [97]] ∧
    ¬ MembershipExact [text [98], .text [97]] ∧
    evaluateComparison (withRole [98])
      { sessionClaims := some [("roles", .array [.text [98], .text [97]])] } = .deny := by
  refine ⟨⟨_, rfl, rfl⟩, fun h => ?_, by decide⟩
  have hfound := (h (.text [98])).1.mpr ⟨_, List.mem_cons_self, rfl⟩
  revert hfound
  decide

end MembershipExample
end ZyncBase
