import Mathlib.Data.Nat.Digits.Defs
import ZyncBase.Lib.DoubleText
import ZyncBase.Lib.Utf
import ZyncBase.Sql.Value

/-! The writer of JSON texts, and typed values as JSON. -/
namespace ZyncBase

inductive WriteFailure where
  | writeFailed
  deriving DecidableEq, Repr

def textOf (name : String) : Bytes := Utf.utf8 name.toList

namespace JsonWrite

def digit (n : ℕ) : UInt8 := UInt8.ofNat (48 + n)

def digits (n : ℕ) : Bytes := if n = 0 then [48] else ((Nat.digits 10 n).map digit).reverse

/-- So many digits, with zeros in front. -/
def fixedDigits : ℕ → ℕ → Bytes
  | 0, _ => []
  | places + 1, n => fixedDigits places (n / 10) ++ [digit (n % 10)]

def sign (negative : Bool) : Bytes := if negative then [45] else []

def integerText (v : ℤ) : Bytes := sign (v < 0) ++ digits v.natAbs

def decimalText (d : DoubleText.Decimal) : Bytes :=
  digits d.whole ++ if d.places = 0 then [] else 46 :: fixedDigits d.places d.fraction

/-- `{d}` of a double, without an exponent. -/
def realText (r : Real64) : Bytes :=
  sign r.negative ++ decimalText (DoubleText.shortest r.magnitude)

def escapeTable (char : UInt8) : Option Bytes :=
  if char = 34 then some [92, 34]
  else if char = 92 then some [92, 92]
  else if char = 10 then some [92, 110]
  else if char = 13 then some [92, 114]
  else if char = 9 then some [92, 116]
  else if char = 8 then some [92, 98]
  else if char = 12 then some [92, 102]
  else none

def escape (char : UInt8) : Bytes :=
  match escapeTable char with
  | some esc => esc
  | none =>
    if char < 0x20 then [92, 117, 48, 48, hexDigit (char.toNat / 16), hexDigit (char.toNat % 16)]
    else [char]

def quoted (value : Bytes) : Bytes := 34 :: (value.flatMap escape ++ [34])

structure Writer where
  buf : Bytes := []
  isFirst : Bool := true

namespace Writer

def append (bytes : Bytes) (w : Writer) : Writer := { w with buf := w.buf ++ bytes }

def separator (w : Writer) : Writer :=
  { (if w.isFirst then w else w.append [44]) with isFirst := false }

def writeEscapedString (value : Bytes) (w : Writer) : Writer := w.append (quoted value)

def stringValue (value : Bytes) (w : Writer) : Writer := w.separator.writeEscapedString value

def boolValue (value : Bool) (w : Writer) : Writer :=
  w.separator.append (textOf (if value then "true" else "false"))

def intValue (value : ℤ) (w : Writer) : Writer := w.separator.append (integerText value)

/-- The text is printed into a buffer of 64 bytes. -/
def appendFloat (value : Real64) (w : Writer) : Except WriteFailure Writer :=
  let s := realText value
  if 64 < s.length then .error .writeFailed
  else if s.any (fun c => c = 46 || c = 101 || c = 69) then .ok (w.append s)
  else .ok ((w.append s).append [46, 48])

def floatValue (value : Real64) (w : Writer) : Except WriteFailure Writer :=
  w.separator.appendFloat value

def field (key value : Bytes) (w : Writer) : Writer :=
  ((w.separator.writeEscapedString key).append [58]).writeEscapedString value

def boolField (key : Bytes) (value : Bool) (w : Writer) : Writer :=
  (w.separator.writeEscapedString key).append (textOf (if value then ":true" else ":false"))

def intField (key : Bytes) (value : ℤ) (w : Writer) : Writer :=
  ((w.separator.writeEscapedString key).append [58]).append (integerText value)

def rawField (key jsonBytes : Bytes) (w : Writer) : Writer :=
  ((w.separator.writeEscapedString key).append [58]).append jsonBytes

def beginObjectField (key : Bytes) (w : Writer) : Writer :=
  { (w.separator.writeEscapedString key).append [58, 123] with isFirst := true }

def beginObject (w : Writer) : Writer := { w.append [123] with isFirst := true }

def endObject (w : Writer) : Writer := { w.append [125] with isFirst := false }

def beginArray (w : Writer) : Writer := { w.append [91] with isFirst := true }

def endArray (w : Writer) : Writer := { w.append [93] with isFirst := false }

end Writer

def hexOf (bytes : Bytes) : Bytes :=
  bytes.flatMap fun b => [hexDigit (b.toNat / 16), hexDigit (b.toNat % 16)]

def writeScalarJson (value : ScalarValue) (w : Writer) : Except WriteFailure Writer :=
  match value with
  | .docId id => .ok (w.stringValue (hexSlice id))
  | .integer v => .ok (w.intValue v)
  | .real v => w.floatValue v
  | .text s => .ok (w.stringValue s)
  | .boolean b => .ok (w.boolValue b)
  | .binary b => .ok (w.stringValue (hexOf b))

def writeJson (value : Value) : Except WriteFailure Bytes :=
  match value with
  | .nil => .ok (textOf "null")
  | .scalar s => (writeScalarJson s {}).map Writer.buf
  | .array items =>
    (items.foldlM (fun w item => writeScalarJson item w) ({ : Writer }).beginArray).map fun w => w.endArray.buf

def separated : List Bytes → Bytes
  | [] => []
  | [text] => text
  | text :: texts => text ++ 44 :: separated texts

def memberText (key value : Bytes) : Bytes := quoted key ++ 58 :: value

namespace Writer

variable (w : Writer)

/-- Writing one more item of an object or an array. -/
def item (text : Bytes) (w : Writer) : Writer := w.separator.append text

@[simp] lemma append_append (a b : Bytes) : (w.append a).append b = w.append (a ++ b) := by
  simp [append]

lemma field_eq (key value : Bytes) : w.field key value = w.item (memberText key (quoted value)) := by
  simp [field, writeEscapedString, item, memberText]

lemma boolField_eq (key : Bytes) (value : Bool) : w.boolField key value =
    w.item (memberText key (textOf (if value then "true" else "false"))) := by
  have hcolon : textOf (if value then ":true" else ":false") =
      58 :: textOf (if value then "true" else "false") := by cases value <;> rfl
  simp [boolField, writeEscapedString, item, memberText, hcolon]

lemma intField_eq (key : Bytes) (value : ℤ) :
    w.intField key value = w.item (memberText key (integerText value)) := by
  simp [intField, writeEscapedString, item, memberText]

lemma rawField_eq (key jsonBytes : Bytes) : w.rawField key jsonBytes = w.item (memberText key jsonBytes) := by
  simp [rawField, writeEscapedString, item, memberText]

lemma buf_items (texts : List Bytes) : (texts.foldl (fun w text => w.item text) w).buf =
    w.buf ++ if texts = [] then []
      else if w.isFirst then separated texts else 44 :: separated texts := by
  induction texts generalizing w with
  | nil => simp
  | cons text texts ih =>
    rw [List.foldl_cons, ih]
    cases hfirst : w.isFirst <;> cases texts <;>
      simp [item, separator, append, hfirst, separated]

lemma objectField_eq (key : Bytes) (texts : List Bytes) :
    (texts.foldl (fun w text => w.item text) (w.beginObjectField key)).endObject =
      w.item (memberText key (123 :: (separated texts ++ [125]))) := by
  have hbuf := buf_items (w.beginObjectField key) texts
  have hobject (v : Writer) : v.endObject = ⟨v.buf ++ [125], false⟩ := rfl
  rw [hobject, hbuf]
  have hseparated : (if texts = [] then [] else separated texts) = separated texts := by
    cases texts <;> simp [separated]
  simp [beginObjectField, writeEscapedString, item, memberText, append, separator, hseparated]

end Writer

end JsonWrite
end ZyncBase
