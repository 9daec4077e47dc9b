import ZyncBase.Lib.BigEndian
import ZyncBase.Lib.Kleene
import ZyncBase.Schema.Types

/-! SQLite values: how typed values are bound and stored, and how SQLite compares them. -/
namespace ZyncBase

/-- A stored or bound SQLite value. An array column holds a JSONB blob, kept as its elements. -/
inductive SqlValue where
  | null
  | integer (value : ℤ)
  | real (value : Real64)
  | text (value : Bytes)
  | blob (value : Bytes)
  | jsonb (items : List ScalarValue)
  deriving DecidableEq, Repr

/-- The sixteen bytes of a document id, most significant first. -/
def DocId.toBytes (id : DocId) : Bytes := BigEndian.bytes 16 id.val

def hexDigit (n : ℕ) : UInt8 := UInt8.ofNat (if n < 10 then 48 + n else 87 + n)

/-- The id as 32 lower-case hexadecimal digits. -/
def hexSlice (id : DocId) : Bytes :=
  (DocId.toBytes id).flatMap fun b => [hexDigit (b.toNat / 16), hexDigit (b.toNat % 16)]

/-- The value of a double in units of the smallest subnormal. -/
def Real64.scaled (r : Real64) : ℤ :=
  let exponent := r.magnitude / 2 ^ 52
  let fraction := r.magnitude % 2 ^ 52
  let size : ℕ := if exponent = 0 then fraction else (2 ^ 52 + fraction) * 2 ^ (exponent - 1)
  if r.negative then -(size : ℤ) else size

/-- How a scalar is bound to a statement. -/
def bindScalar : ScalarValue → SqlValue
  | .docId id => .blob (DocId.toBytes id)
  | .integer v => .integer v
  | .real v => .real v
  | .text v => .text v
  | .boolean b => .integer b.toNat
  | .binary b => .blob b

/-- The value a column stores, arrays through `jsonb(?)`. -/
def storedValue : Value → SqlValue
  | .nil => .null
  | .scalar s => bindScalar s
  | .array items => .jsonb items

/-- The value column of `json_each` on an element. Ids and bytes are hexadecimal strings. -/
def jsonEachValue (hex : Bytes → Bytes) : ScalarValue → SqlValue
  | .docId id => .text (hex (DocId.toBytes id))
  | .binary b => .text (hex b)
  | s => bindScalar s

/-- The text encodings that the comparison of rows depends on: the JSON text of an array, the
JSONB encoding of its elements, and hexadecimal strings. -/
structure Encodings where
  jsonText : List ScalarValue → Bytes
  jsonbBytes : List ScalarValue → Bytes
  hex : Bytes → Bytes

section

variable (enc : Encodings)

/-- How a value is bound, arrays as their JSON text. -/
def bindValue : Value → SqlValue
  | .nil => .null
  | .scalar s => bindScalar s
  | .array items => .text (enc.jsonText items)

/-- SQLite orders numbers below texts below blobs. -/
def storageClass : SqlValue → ℕ
  | .null => 0
  | .integer _ | .real _ => 1
  | .text _ => 2
  | .blob _ | .jsonb _ => 3

def blobBytes : SqlValue → Bytes
  | .blob b => b
  | .jsonb items => enc.jsonbBytes items
  | _ => []

/-- The order of two values that are not null. -/
def sqlOrder : SqlValue → SqlValue → Ordering
  | .integer a, .integer b => compare a b
  | .real a, .real b => a.order b
  | .integer a, .real b => compare (a * 2 ^ 1074) b.scaled
  | .real a, .integer b => compare a.scaled (b * 2 ^ 1074)
  | .text a, .text b => compare a b
  | a, b =>
    if storageClass a = 3 ∧ storageClass b = 3 then compare (blobBytes enc a) (blobBytes enc b)
    else compare (storageClass a) (storageClass b)

/-- A comparison is unknown when either side is null. -/
def sqlCompare (test : Ordering → Bool) (a b : SqlValue) : Kleene.Truth :=
  if a = .null ∨ b = .null then none else some (test (sqlOrder enc a b))

lemma sqlCompare_null_left (test : Ordering → Bool) (b : SqlValue) :
    sqlCompare enc test .null b = none := by simp [sqlCompare]

@[simp] lemma bindScalar_ne_null (s : ScalarValue) : bindScalar s ≠ .null := by
  cases s <;> simp [bindScalar]

lemma DocId.compare_toBytes (a b : DocId) : compare (DocId.toBytes a) (DocId.toBytes b) = compare a b := by
  have h (x : DocId) : x.val < 256 ^ 16 := Nat.lt_of_lt_of_eq x.isLt (by decide)
  rw [DocId.toBytes, DocId.toBytes, BigEndian.compare_bytes 16 _ _ (h a) (h b)]
  rfl

lemma sqlOrder_bindScalar {t : FieldType} {a b : ScalarValue} (ha : t.accepts a)
    (hb : t.accepts b) : sqlOrder enc (bindScalar a) (bindScalar b) = a.order b := by
  cases t <;> cases a <;> simp only [FieldType.accepts, Bool.false_eq_true] at ha <;>
    cases b <;> simp only [FieldType.accepts, Bool.false_eq_true] at hb
  case docId.docId.docId x y =>
    simpa [sqlOrder, bindScalar, storageClass, blobBytes, ScalarValue.order] using DocId.compare_toBytes x y
  case boolean.boolean.boolean x y => cases x <;> cases y <;> rfl
  all_goals simp [sqlOrder, bindScalar, storageClass, blobBytes, ScalarValue.order]

lemma sqlCompare_bindScalar {t : FieldType} {a b : ScalarValue} (ha : t.accepts a)
    (hb : t.accepts b) (test : Ordering → Bool) :
    sqlCompare enc test (bindScalar a) (bindScalar b) = some (test (a.order b)) := by
  simp [sqlCompare, sqlOrder_bindScalar enc ha hb]

lemma sqlOrder_array (items operand : List ScalarValue) :
    sqlOrder enc (storedValue (.array items)) (bindValue enc (.array operand)) = .gt := by
  rfl

lemma jsonEachValue_primitive {t : FieldType} {s : ScalarValue} (ht : t.isPrimitive)
    (hs : t.accepts s) : jsonEachValue enc.hex s = bindScalar s := by
  cases s <;> cases t <;> simp [FieldType.accepts, FieldType.isPrimitive] at ht hs <;> rfl

end
end ZyncBase
