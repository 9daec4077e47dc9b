import ZyncBase.Lib.DoubleText
import ZyncBase.Lib.Utf
import ZyncBase.Typed.Json

/-! The JSON reader of the standard library: texts, numbers, arrays and objects. -/
namespace ZyncBase
namespace JsonRead

def isSpace (c : UInt8) : Bool := c = 32 || c = 9 || c = 10 || c = 13

def skipSpace (input : Bytes) : Bytes := input.dropWhile isSpace

def isDigit (c : UInt8) : Bool := 48 ≤ c && c ≤ 57

def unescape (e : UInt8) : Option UInt8 :=
  if e = 34 ∨ e = 92 ∨ e = 47 then some e
  else if e = 98 then some 8
  else if e = 102 then some 12
  else if e = 110 then some 10
  else if e = 114 then some 13
  else if e = 116 then some 9
  else none

/-- The code unit of four hexadecimal digits. -/
def hexUnit (a b c d : UInt8) : Option UInt16 := do
  let a ← hexDigitValue a
  let b ← hexDigitValue b
  let c ← hexDigitValue c
  let d ← hexDigitValue d
  some (UInt16.ofNat (((a * 16 + b) * 16 + c) * 16 + d))

/-- The character of a pair of code units. -/
def pairChar (high low : UInt16) : Char :=
  Char.ofNat (0x10000 + (high.toNat - 0xD800) * 0x400 + (low.toNat - 0xDC00))

/-- The character after `\u`. Half of a pair does not stand alone. -/
def readUnicode : Bytes → Option (Bytes × Bytes)
  | h₁ :: h₂ :: h₃ :: h₄ :: rest => do
    let unit ← hexUnit h₁ h₂ h₃ h₄
    if Utf.isLow unit then none
    else if Utf.isHigh unit then
      match rest with
      | b :: u :: l₁ :: l₂ :: l₃ :: l₄ :: rest => do
        let low ← hexUnit l₁ l₂ l₃ l₄
        if b = 92 ∧ u = 117 ∧ Utf.isLow low then
          some (String.utf8EncodeChar (pairChar unit low), rest)
        else none
      | _ => none
    else some (String.utf8EncodeChar (Char.ofNat unit.toNat), rest)
  | _ => none

def readEscape : Bytes → Option (Bytes × Bytes)
  | [] => none
  | e :: rest => if e = 117 then readUnicode rest else (unescape e).map fun c => ([c], rest)

def readChar (c : UInt8) (rest : Bytes) : Option (Bytes × Bytes) :=
  if c = 92 then readEscape rest
  else if c < 0x20 then none
  else some ([c], rest)

/-- The characters of a text up to the quote that ends it. Every character takes at least one byte. -/
def readChars : ℕ → Bytes → Option (Bytes × Bytes)
  | 0, _ => none
  | _ + 1, [] => none
  | n + 1, c :: rest =>
    if c = 34 then some ([], rest)
    else do
      let (char, rest) ← readChar c rest
      let (text, rest) ← readChars n rest
      some (char ++ text, rest)

/-- A text that is no UTF-8 is refused. -/
def readText (input : Bytes) : Option (Bytes × Bytes) := do
  let (text, rest) ← readChars input.length input
  if (Utf.readUtf8 text).isSome then some (text, rest) else none

def nameOf (bytes : Bytes) : Option String := (Utf.readUtf8 bytes).map String.ofList

def readDigits (input : Bytes) : Bytes × Bytes := (input.takeWhile isDigit, input.dropWhile isDigit)

def digitsValue (ds : Bytes) : ℕ := ds.foldl (fun acc c => acc * 10 + (c.toNat - 48)) 0

def readWhole : Bytes → Option (Bytes × Bytes)
  | [] => none
  | c :: rest =>
    if c = 48 then some ([48], rest)
    else if isDigit c then some (readDigits (c :: rest))
    else none

def readFraction : Bytes → Option (Bytes × Bytes)
  | [] => some ([], [])
  | c :: rest =>
    if c = 46 then
      if (readDigits rest).1 = [] then none else some (readDigits rest)
    else some ([], c :: rest)

def readExponent : Bytes → Option (Option ℤ × Bytes)
  | [] => some (none, [])
  | c :: rest =>
    if c = 101 ∨ c = 69 then
      let negative := rest.head? = some 45
      let unsigned := if rest.head? = some 45 ∨ rest.head? = some 43 then rest.tail else rest
      let (ds, rest) := readDigits unsigned
      if ds = [] then none
      else some (some (if negative then -(digitsValue ds : ℤ) else digitsValue ds), rest)
    else some (none, c :: rest)

/-- A number that is written like an integer is one, as far as it fits; the others are doubles, unless
they are too large. -/
def numberValue (text : Bytes) (negative : Bool) (whole fraction : Bytes) (exponent : Option ℤ) :
    JsonValue :=
  if fraction = [] ∧ exponent = none ∧ ¬ (negative ∧ whole = [48]) then
    let v : ℤ := if negative then -(digitsValue whole : ℤ) else digitsValue whole
    if -2 ^ 63 ≤ v ∧ v < 2 ^ 63 then .integer v else .numberString text
  else
    let n := digitsValue (whole ++ fraction)
    let e := exponent.getD 0 - fraction.length
    let magnitude := DoubleText.nearest (n * 10 ^ e.toNat) (10 ^ (-e).toNat)
    if h : magnitude < 0x7FF0000000000000 then .float ⟨negative, magnitude, h⟩ else .numberString text

def readNumber (input : Bytes) : Option (JsonValue × Bytes) := do
  let negative : Bool := input.head? = some 45
  let (whole, rest) ← readWhole (if negative then input.tail else input)
  let (fraction, rest) ← readFraction rest
  let (exponent, rest) ← readExponent rest
  some (numberValue (input.take (input.length - rest.length)) negative whole fraction exponent, rest)

def readLiteral (word : Bytes) (value : JsonValue) (input : Bytes) : Option (JsonValue × Bytes) :=
  if word.isPrefixOf input then some (value, input.drop word.length) else none

section Nested

variable {α : Type} (readOne : Bytes → Option (α × Bytes)) (close : UInt8)

/-- What is separated by commas up to the closing bracket, when there is something. Every item takes at
least one byte. -/
def readSeparated : ℕ → Bytes → Option (List α × Bytes)
  | 0, _ => none
  | n + 1, input => do
    let (value, rest) ← readOne input
    match skipSpace rest with
    | [] => none
    | c :: rest =>
      if c = close then some ([value], rest)
      else if c = 44 then (readSeparated n rest).map fun (values, rest) => (value :: values, rest)
      else none

def readList (input : Bytes) : Option (List α × Bytes) :=
  match skipSpace input with
  | [] => none
  | c :: rest =>
    if c = close then some ([], rest) else readSeparated readOne close input.length input

end Nested

def readMember (read : Bytes → Option (JsonValue × Bytes)) (input : Bytes) :
    Option ((String × JsonValue) × Bytes) :=
  match skipSpace input with
  | [] => none
  | c :: rest =>
    if c = 34 then do
      let (key, rest) ← readText rest
      let name ← nameOf key
      match skipSpace rest with
      | [] => none
      | c :: rest =>
        if c = 58 then (read rest).map fun (value, rest) => ((name, value), rest) else none
    else none

/-- A value that is nested at most so deep. -/
def readValue : ℕ → Bytes → Option (JsonValue × Bytes)
  | 0, _ => none
  | depth + 1, input =>
    match skipSpace input with
    | [] => none
    | c :: rest =>
      if c = 34 then (readText rest).map fun (text, rest) => (.string text, rest)
      else if c = 91 then
        (readList (readValue depth) 93 rest).map fun (values, rest) => (.array values, rest)
      else if c = 123 then
        (readList (readMember (readValue depth)) 125 rest).map fun (members, rest) =>
          (.object members, rest)
      else if c = 116 then readLiteral [114, 117, 101] (.bool true) rest
      else if c = 102 then readLiteral [97, 108, 115, 101] (.bool false) rest
      else if c = 110 then readLiteral [117, 108, 108] .null rest
      else readNumber (c :: rest)

/-- A text is one value, which is nested less deep than the text is long. -/
def parse (input : Bytes) : Option JsonValue := do
  let (value, rest) ← readValue (input.length + 1) input
  if skipSpace rest = [] then some value else none

end JsonRead
end ZyncBase
