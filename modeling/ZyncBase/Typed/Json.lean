import ZyncBase.Typed.Codec

/-! Typed values of parsed JSON: of stored columns, whose field names the type, and of claims, whose
type is that of the JSON value. -/
namespace ZyncBase

/-- A parsed JSON value. A number that is no 64-bit integer and no finite double keeps its text. -/
inductive JsonValue where
  | null
  | bool (value : Bool)
  | integer (value : ℤ)
  | float (value : Real64)
  | numberString (text : Bytes)
  | string (text : Bytes)
  | array (items : List JsonValue)
  | object (entries : List (String × JsonValue))

def hexDigitValue (c : UInt8) : Option ℕ :=
  if 48 ≤ c ∧ c ≤ 57 then some (c.toNat - 48)
  else if 65 ≤ c ∧ c ≤ 70 then some (c.toNat - 55)
  else if 97 ≤ c ∧ c ≤ 102 then some (c.toNat - 87)
  else none

/-- Underscores between the digits are skipped. -/
def parseHexDigits (acc : ℕ) : Bytes → Option ℕ
  | [] => some acc
  | c :: cs =>
    if c = 95 then parseHexDigits acc cs
    else do parseHexDigits (acc * 16 + (← hexDigitValue c)) cs

/-- An unsigned number in base 16, which may have a sign. -/
def parseHex (text : Bytes) : Option ℕ :=
  let (negative, digits) := match text with
    | 43 :: rest => (false, rest)
    | 45 :: rest => (true, rest)
    | rest => (false, rest)
  if digits = [] ∨ digits.head? = some 95 ∨ digits.getLast? = some 95 then none
  else do
    let n ← parseHexDigits 0 digits
    if negative ∧ n ≠ 0 then none else some n

def docIdFromHex (hex : Bytes) : Except CodecError DocId :=
  if hex.length = 32 then
    match parseHex hex with
    | some n => .ok (Fin.ofNat _ n)
    | none => .error .typeMismatch
  else .error .typeMismatch

def hexToBytes : Bytes → Except CodecError Bytes
  | [] => .ok []
  | [_] => .error .typeMismatch
  | hi :: lo :: rest =>
    match hexDigitValue hi, hexDigitValue lo with
    | some h, some l => do return UInt8.ofNat (h * 16 + l) :: (← hexToBytes rest)
    | _, _ => .error .typeMismatch

def parseDigits (acc : ℕ) : Bytes → Option ℕ
  | [] => some acc
  | c :: cs => if 48 ≤ c ∧ c ≤ 57 then parseDigits (acc * 10 + (c.toNat - 48)) cs else none

/-- The double nearest to an integer that is too long for 64 bits. Of the other numbers that keep
their text, the value is infinite; no value with one is ever stored. -/
def parseFloat (text : Bytes) : Except CodecError Real64 :=
  let (negative, digits) := match text with
    | 45 :: rest => (true, rest)
    | rest => (false, rest)
  match parseDigits 0 digits with
  | some n => Payload.finiteReal negative (Payload.magnitudeOfNat n)
  | none => .error .typeMismatch

/-- The numbers that keep their text are none that `parseInt` takes. -/
def jsonAsInt : JsonValue → Except CodecError ℤ
  | .integer v => .ok v
  | _ => .error .typeMismatch

def jsonAsFloat : JsonValue → Except CodecError Real64
  | .float v => .ok v
  | .integer v => Payload.finiteReal (v < 0) (Payload.magnitudeOfNat v.natAbs)
  | .numberString text => parseFloat text
  | _ => .error .typeMismatch

def jsonAsBool : JsonValue → Except CodecError Bool
  | .bool v => .ok v
  | _ => .error .typeMismatch

def scalarFromJson (fieldType : FieldType) (json : JsonValue) : Except CodecError ScalarValue :=
  match fieldType, json with
  | .docId, .string s => (docIdFromHex s).map .docId
  | .docId, _ => .error .typeMismatch
  | .text, .string s => .ok (.text s)
  | .text, _ => .error .typeMismatch
  | .bytes, .string s => (hexToBytes s).map .binary
  | .bytes, _ => .error .typeMismatch
  | .integer, json => (jsonAsInt json).map .integer
  | .real, json => (jsonAsFloat json).map .real
  | .boolean, json => (jsonAsBool json).map .boolean
  | .array, _ => .error .invalidArrayElement

def arrayItemFromJson (itemsType : FieldType) : JsonValue → Except CodecError ScalarValue
  | .null => .error .nullNotAllowed
  | json => scalarFromJson itemsType json

/-- The value of a stored column that holds JSON. -/
def fromJson (fieldType : FieldType) (itemsType : Option FieldType) (json : JsonValue) :
    Except CodecError Value :=
  match json, fieldType, itemsType with
  | .null, _, _ => .ok .nil
  | .array items, .array, some t => do
    return (Value.array (← items.mapM (arrayItemFromJson t))).sortedSet
  | _, .array, _ => .error .typeMismatch
  | json, fieldType, _ => do return .scalar (← scalarFromJson fieldType json)

inductive ClaimError where
  | invalidClaimArrayElement | claimArrayTooLarge | unsupportedClaimType
  deriving DecidableEq, Repr

def scalarFromDynamicJsonItem : JsonValue → Except ClaimError ScalarValue
  | .string s => .ok (.text s)
  | .integer n => .ok (.integer n)
  | .float f => .ok (.real f)
  | .bool b => .ok (.boolean b)
  | _ => .error .invalidClaimArrayElement

/-- The value of a claim. The items of an array stay in the order of the token. -/
def fromDynamicJson : JsonValue → Except ClaimError Value
  | .string s => .ok (.scalar (.text s))
  | .integer i => .ok (.scalar (.integer i))
  | .float f => .ok (.scalar (.real f))
  | .bool b => .ok (.scalar (.boolean b))
  | .array items =>
    if 1000 < items.length then .error .claimArrayTooLarge
    else (items.mapM scalarFromDynamicJsonItem).map .array
  | _ => .error .unsupportedClaimType

lemma strict_of_fromJson {t : FieldType} {items : Option FieldType} {json : JsonValue}
    {ss : List ScalarValue} (h : fromJson t items json = .ok (.array ss)) :
    SortedSearch.Strict ScalarValue.order ss := by
  unfold fromJson at h
  split at h
  · cases h
  · obtain ⟨xs, -, h⟩ := Outcome.bind_eq_ok.mp h
    cases h
    exact SortedSearch.strict_sortedSet _ xs
  · cases h
  · obtain ⟨s, -, h⟩ := Outcome.bind_eq_ok.mp h
    cases h

end ZyncBase
