import ZyncBase.Typed.Codec

/-! Checks of a payload against the type and the constraints of its field. Reading a member of a
payload that is not the active one stops the program. -/
namespace ZyncBase

open Guarded

/-- Errors of the checks of a payload and of the request that carries it. -/
inductive RequestError where
  | typeMismatch | overflow | invalidLength | nullNotAllowed | invalidArrayElement
  | enumViolation | lengthViolation | patternViolation | formatViolation | rangeViolation
  | invalidPayload | unknownField | immutableField | missingRequiredField
  | schemaValidationFailed | invalidFieldIndex | unknownAction | sessionNotReady
  | namespaceUnauthorized | permissionDenied | accessDenied
  | invalidFieldName | invalidValue | invalidContextVariable
  | unsupportedAuthorizationPredicate | unsupportedOperatorForFieldType
  | invalidMessageFormat | invalidPath | unknownTable | batchTooLarge | missingRequiredFields
  deriving DecidableEq, Repr

abbrev Checked := Except (Failure RequestError)

def refuse {α : Type} (e : RequestError) : Checked α := .error (.error e)

/-- What decoding makes of a payload, where only its checked access stops the program. -/
def liftCodecError : CodecError → Failure RequestError
  | .typeMismatch => .error .typeMismatch
  | .overflow => .error .overflow
  | .invalidLength => .error .invalidLength
  | .nullNotAllowed => .error .nullNotAllowed
  | .invalidArrayElement => .error .invalidArrayElement
  | .aborted => .stop

def decodePayload (fieldType : FieldType) (itemsType : Option FieldType) (p : Payload) :
    Checked Value := (fromPayload fieldType itemsType p).mapError liftCodecError

namespace Payload

/-- The items of an array payload, which it must be. -/
def arrItems : Payload → Checked (List Payload)
  | arr items => .ok items
  | _ => .error .stop

/-- The bytes of a text, which it must be. -/
def strBytes : Payload → Checked Bytes
  | str bytes => .ok bytes
  | _ => .error .stop

def binBytes : Payload → Checked Bytes
  | bin bytes => .ok bytes
  | _ => .error .stop

end Payload

def matchesType (fieldType : FieldType) (value : Payload) : Bool :=
  match fieldType, value with
  | .docId, .bin _ | .text, .str _ | .integer, .int _ | .integer, .uint _ | .real, .float _ _
  | .real, .uint _ | .real, .int _ | .boolean, .bool _ | .array, .arr _ | .bytes, .bin _ => true
  | _, _ => false

lemma scalarFromPayload_ne_aborted (fieldType : FieldType) (p : Payload) :
    scalarFromPayload fieldType p ≠ .error .aborted := by
  have hmap {α : Type} {x : Except CodecError α} (f : α → ScalarValue)
      (hx : x ≠ .error .aborted) : x.map f ≠ .error .aborted := by
    cases x with
    | ok a => exact nofun
    | error e =>
      intro h
      cases h
      exact hx rfl
  have hreal (negative : Bool) (magnitude : ℕ) : Payload.finiteReal negative magnitude ≠ .error .aborted := by
    unfold Payload.finiteReal
    split_ifs <;> exact nofun
  cases fieldType with
  | docId =>
    cases p with
    | bin b =>
      refine hmap _ ?_
      unfold docIdFromBytes
      split_ifs <;> exact nofun
    | _ => exact nofun
  | text => cases p <;> exact nofun
  | bytes => cases p <;> exact nofun
  | array => cases p <;> exact nofun
  | integer =>
    refine hmap _ ?_
    cases p with
    | uint v =>
      rw [Payload.toInt]
      split_ifs <;> exact nofun
    | _ => exact nofun
  | real =>
    refine hmap _ ?_
    cases p with
    | float negative magnitude => exact hreal _ _
    | int v => exact hreal _ _
    | uint v => exact hreal _ _
    | _ => exact nofun
  | boolean =>
    refine hmap _ ?_
    cases p <;> exact nofun

lemma scalarsFromPayload_ne_aborted (itemsType : FieldType) (ps : List Payload) :
    scalarsFromPayload itemsType ps ≠ .error .aborted := by
  induction ps with
  | nil => exact nofun
  | cons p ps ih =>
    intro h
    rw [scalarsFromPayload] at h
    split_ifs at h
    · cases h
    cases hs : scalarFromPayload itemsType p with
    | error e =>
      rw [hs] at h
      cases h
      exact scalarFromPayload_ne_aborted itemsType p hs
    | ok s =>
      rw [hs] at h
      cases hps : scalarsFromPayload itemsType ps with
      | error e =>
        rw [hps] at h
        cases h
        exact ih hps
      | ok ss =>
        rw [hps] at h
        cases h

variable {p : Payload}

lemma fromPayload_eq_aborted {fieldType : FieldType} {itemsType : Option FieldType}
    : fromPayload fieldType itemsType p = .error .aborted ↔
      fieldType = .array ∧ itemsType.isSome = true ∧ p.isNil = false ∧ matchesType .array p = false := by
  unfold fromPayload
  cases hnil : p.isNil with
  | true => simp
  | false =>
    rw [if_neg Bool.false_ne_true]
    by_cases harray : fieldType = .array
    · subst harray
      rw [if_pos rfl]
      cases itemsType with
      | none => simp [buildArrayValue]
      | some t =>
        cases p with
        | arr items =>
          have hne := scalarsFromPayload_ne_aborted t items
          cases hs : scalarsFromPayload t items with
          | ok ss => simp [buildArrayValue, hs, matchesType, pure, Except.pure]
          | error e =>
            rw [hs] at hne
            simpa [buildArrayValue, hs, matchesType, Bind.bind, Except.bind] using hne
        | _ => simp [buildArrayValue, matchesType]
    · rw [if_neg harray]
      have hne := scalarFromPayload_ne_aborted fieldType p
      cases hs : scalarFromPayload fieldType p with
      | ok s => simp [harray, pure, Except.pure]
      | error e =>
        rw [hs] at hne
        simpa [harray, Bind.bind, Except.bind] using hne

lemma decodePayload_eq_stop {fieldType : FieldType} {itemsType : Option FieldType} :
    decodePayload fieldType itemsType p = .error .stop ↔
      fieldType = .array ∧ itemsType.isSome = true ∧ p.isNil = false ∧ matchesType .array p = false := by
  rw [← fromPayload_eq_aborted, decodePayload]
  cases fromPayload fieldType itemsType p with
  | ok v => simp [Except.mapError]
  | error e => cases e <;> simp [Except.mapError, liftCodecError]

lemma decodePayload_eq_ok {fieldType : FieldType} {itemsType : Option FieldType}
    {v : Value} : decodePayload fieldType itemsType p = .ok v ↔ fromPayload fieldType itemsType p = .ok v := by
  rw [decodePayload]
  cases fromPayload fieldType itemsType p with
  | ok w => simp [Except.mapError]
  | error e => simp [Except.mapError]

def validateValue (fieldType : FieldType) (value : Payload) : Checked Unit :=
  if matchesType fieldType value then .ok () else refuse .typeMismatch

inductive Bound where
  | integer (value : ℤ)
  | real (value : Real64)
  deriving DecidableEq, Repr

inductive EnumValue where
  | text (value : Bytes)
  | integer (value : ℤ)
  | real (value : Real64)
  deriving DecidableEq, Repr

inductive Format where
  | email | uuid | uri
  deriving DecidableEq, Repr

/-- The constraints of a field. A compiled pattern is given by the texts it matches. -/
structure Constraints where
  enumValues : Option (List EnumValue) := none
  compiledRegex : Option (Bytes → Bool) := none
  format : Option Format := none
  minLength : Option ℕ := none
  maxLength : Option ℕ := none
  minimum : Option Bound := none
  maximum : Option Bound := none

namespace Constraints

def matchPattern (regex : Bytes → Bool) (str : Bytes) : Bool := !str.contains 0 && regex str

def isAlphabetic (ch : UInt8) : Bool := (65 ≤ ch && ch ≤ 90) || (97 ≤ ch && ch ≤ 122)

def isAlphanumeric (ch : UInt8) : Bool := isAlphabetic ch || (48 ≤ ch && ch ≤ 57)

def isHex (ch : UInt8) : Bool :=
  (48 ≤ ch && ch ≤ 57) || (65 ≤ ch && ch ≤ 70) || (97 ≤ ch && ch ≤ 102)

def isPrintable (ch : UInt8) : Bool := !(ch ≤ 32 || 127 ≤ ch)

def validateEmailLocal (part : Bytes) : Bool :=
  !(part.length = 0 || 64 < part.length) && part.all isPrintable

def hasDoubleDot : Bytes → Bool
  | 46 :: 46 :: _ => true
  | _ :: rest => hasDoubleDot rest
  | [] => false

def validateEmailDomain (domain : Bytes) : Checked Bool := do
  if domain.length = 0 ∨ 253 < domain.length then return false
  let first ← elementAt domain 0
  let last ← elementAt domain (domain.length - 1)
  if first = 46 ∨ last = 46 then return false
  if hasDoubleDot domain then return false
  return domain.all (fun ch => ch = 46 || isAlphanumeric ch || ch = 45) && domain.contains 46

def validateEmail (str : Bytes) : Checked Bool := do
  if str.length < 3 ∨ 254 < str.length then return false
  match str.findIdx? (· = 64) with
  | none => return false
  | some i =>
    let domain := str.drop (i + 1)
    if domain.contains 64 then return false
    if !validateEmailLocal (str.take i) then return false
    validateEmailDomain domain

def uuidDashes : List ℕ := [8, 13, 18, 23]

def validateUuid (str : Bytes) : Checked Bool := do
  if str.length ≠ 36 then return false
  let dashes ← uuidDashes.mapM (elementAt str)
  if dashes.any (· ≠ 45) then return false
  return (List.range str.length).all fun i => uuidDashes.contains i || (str[i]?).all isHex

def validateUri (str : Bytes) : Checked Bool := do
  if str.length < 3 then return false
  if !str.all isPrintable then return false
  let first ← elementAt str 0
  if !isAlphabetic first then return false
  match str.findIdx? (· = 58) with
  | none => return false
  | some i =>
    -- The slice `scheme[1..]` is out of bounds for an empty scheme.
    if i < 1 then .error .stop
    else
      let scheme := (str.take i).drop 1
      if !scheme.all fun ch => isAlphanumeric ch || ch = 43 || ch = 45 || ch = 46 then return false
      return 0 < (str.drop (i + 1)).length

/-- The double nearest to a 64-bit integer. -/
def floatFromInt (v : ℤ) : Option Real64 :=
  (Payload.finiteReal (v < 0) (Payload.magnitudeOfNat v.natAbs)).toOption

def intOrder (v : ℤ) : Bound → Option Ordering
  | .integer b => some (compare v b)
  | .real b => (floatFromInt v).map (·.order b)

def realOrder (v : Real64) : Bound → Option Ordering
  | .integer b => (floatFromInt b).map v.order
  | .real b => some (v.order b)

def checkBound (order : Bound → Option Ordering) (outside : Ordering) : Option Bound → Checked Unit
  | none => .ok ()
  | some b => if order b = some outside then refuse .rangeViolation else .ok ()

def validateIntegerRange (constraints : Constraints) (value : Payload) : Checked Unit :=
  if constraints.minimum.isNone ∧ constraints.maximum.isNone then .ok ()
  else
    match value.toInt with
    | .error _ => refuse .typeMismatch
    | .ok v => do
      checkBound (intOrder v) .lt constraints.minimum
      checkBound (intOrder v) .gt constraints.maximum

def validateRealRange (constraints : Constraints) (value : Payload) : Checked Unit :=
  if constraints.minimum.isNone ∧ constraints.maximum.isNone then .ok ()
  else
    match value.toFloat with
    | .error _ => refuse .typeMismatch
    | .ok v => do
      checkBound (realOrder v) .lt constraints.minimum
      checkBound (realOrder v) .gt constraints.maximum

def utf8CountCodepoints (str : Bytes) : Option ℕ :=
  (String.fromUTF8? ⟨str.toArray⟩).map String.length

def checkLength (constraints : Constraints) (count : ℕ) : Checked Unit :=
  if constraints.minLength.any (count < ·) ∨ constraints.maxLength.any (· < count) then
    refuse .lengthViolation
  else .ok ()

def validateTextLength (constraints : Constraints) (str : Bytes) : Checked Unit :=
  if constraints.minLength.isNone ∧ constraints.maxLength.isNone then .ok ()
  else
    match utf8CountCodepoints str with
    | none => refuse .lengthViolation
    | some count => checkLength constraints count

def formatMatches (str : Bytes) : Format → Checked Bool
  | .email => validateEmail str
  | .uuid => validateUuid str
  | .uri => validateUri str

def validateTextFormat (format : Format) (str : Bytes) : Checked Unit := do
  if !(← formatMatches str format) then refuse .formatViolation
  else return ()

def validateTextConstraints (constraints : Constraints) (value : Payload) : Checked Unit := do
  if !matchesType .text value then refuse .typeMismatch
  else
    let str ← value.strBytes
    validateTextLength constraints str
    if constraints.compiledRegex.any fun regex => !matchPattern regex str then
      refuse .patternViolation
    else
      match constraints.format with
      | none => return ()
      | some format => validateTextFormat format str

def validateBinaryConstraints (constraints : Constraints) (value : Payload) : Checked Unit := do
  if !matchesType .bytes value then refuse .typeMismatch
  else checkLength constraints (← value.binBytes).length

def matchTextEnum (enums : List EnumValue) (str : Bytes) : Bool :=
  enums.any fun e => match e with
    | .text t => t = str
    | _ => false

def matchIntEnum (enums : List EnumValue) (v : ℤ) : Bool :=
  enums.any fun e => match e with
    | .integer expected => expected = v
    | .real expected => (floatFromInt v).any fun r => r.order expected = .eq
    | .text _ => false

def matchRealEnum (enums : List EnumValue) (v : Real64) : Bool :=
  enums.any fun e => match e with
    | .real expected => expected.order v = .eq
    | .integer expected => (floatFromInt expected).any fun r => r.order v = .eq
    | .text _ => false

def validateEnum (enums : List EnumValue) (fieldType : FieldType) (value : Payload) : Checked Unit :=
  match fieldType with
  | .text => do
    if !matchesType .text value then refuse .typeMismatch
    else if matchTextEnum enums (← value.strBytes) then return ()
    else refuse .enumViolation
  | .integer =>
    match value.toInt with
    | .error _ => refuse .typeMismatch
    | .ok v => if matchIntEnum enums v then .ok () else refuse .enumViolation
  | .real =>
    match value.toFloat with
    | .error _ => refuse .typeMismatch
    | .ok v => if matchRealEnum enums v then .ok () else refuse .enumViolation
  | _ => refuse .enumViolation

/-- The first of the checks, which a field without listed values passes. -/
def checkEnum (constraints : Constraints) (fieldType : FieldType) (value : Payload) : Checked Unit :=
  match constraints.enumValues with
  | none => .ok ()
  | some enums => validateEnum enums fieldType value

def validate (constraints : Constraints) (fieldType : FieldType) (value : Payload) : Checked Unit := do
  if value.isNil then return ()
  checkEnum constraints fieldType value
  match fieldType with
  | .text => validateTextConstraints constraints value
  | .integer => validateIntegerRange constraints value
  | .real => validateRealRange constraints value
  | .bytes => validateBinaryConstraints constraints value
  | _ => return ()

end Constraints

lemma answers_refuse {α : Type} (e : RequestError) : Answers (refuse e : Checked α) :=
  answers_error e

lemma answers_validateValue (t : FieldType) (p : Payload) : Answers (validateValue t p) := by
  unfold validateValue
  split_ifs
  · exact answers_ok _
  · exact answers_refuse _

lemma matchesType_of_validateValue {t : FieldType}
    (h : validateValue t p = .ok ()) : matchesType t p = true := by
  unfold validateValue at h
  split_ifs at h with hm
  · exact hm
  · cases h

lemma answers_strBytes (h : matchesType .text p = true) : Answers p.strBytes := by
  cases p with
  | str bytes => exact answers_ok _
  | _ => cases h

lemma answers_binBytes (h : matchesType .bytes p = true) : Answers p.binBytes := by
  cases p with
  | bin bytes => exact answers_ok _
  | _ => cases h

lemma answers_arrItems (h : matchesType .array p = true) : Answers p.arrItems := by
  cases p with
  | arr items => exact answers_ok _
  | _ => cases h

namespace Constraints

lemma answers_validateEmailDomain (domain : Bytes) : Answers (validateEmailDomain domain) := by
  unfold validateEmailDomain
  by_cases hlen : domain.length = 0 ∨ 253 < domain.length
  · rw [if_pos hlen]
    exact answers_pure _
  rw [if_neg hlen]
  have h0 : 0 < domain.length := by omega
  rw [elementAt_eq h0, elementAt_eq (by omega : domain.length - 1 < domain.length)]
  change Answers (if _ then _ else _)
  split_ifs
  · exact answers_pure _
  · exact answers_pure _
  · exact answers_pure _

lemma answers_validateEmail (str : Bytes) : Answers (validateEmail str) := by
  unfold validateEmail
  split_ifs
  · exact answers_pure _
  cases str.findIdx? (· = 64) with
  | none => exact answers_pure _
  | some i =>
    dsimp only
    split_ifs
    · exact answers_pure _
    · exact answers_pure _
    · exact answers_validateEmailDomain _

lemma answers_validateUuid (str : Bytes) : Answers (validateUuid str) := by
  unfold validateUuid
  split_ifs with hlen
  · exact answers_pure _
  refine (answers_mapM fun i hi => answers_elementAt ?_).bind fun dashes _ => ?_
  · simp only [uuidDashes, List.mem_cons, List.not_mem_nil, or_false] at hi
    omega
  · split_ifs
    · exact answers_pure _
    · exact answers_pure _

lemma answers_validateUri (str : Bytes) : Answers (validateUri str) := by
  unfold validateUri
  split_ifs with hlen hprint
  · exact answers_pure _
  · exact answers_pure _
  have h0 : 0 < str.length := by omega
  rw [elementAt_eq h0]
  change Answers (if _ then _ else _)
  split_ifs with hfirst
  · exact answers_pure _
  cases hi : str.findIdx? (· = 58) with
  | none => exact answers_pure _
  | some i =>
    have hpos : ¬ i < 1 := by
      intro hi1
      obtain rfl : i = 0 := by omega
      obtain ⟨_, hcolon, -⟩ := List.findIdx?_eq_some_iff_getElem.mp hi
      rw [decide_eq_true_eq] at hcolon
      rw [hcolon] at hfirst
      exact hfirst (by decide)
    dsimp only
    rw [if_neg hpos]
    split_ifs
    · exact answers_pure _
    · exact answers_pure _

lemma answers_checkBound (order : Bound → Option Ordering) (outside : Ordering)
    (b : Option Bound) : Answers (checkBound order outside b) := by
  cases b with
  | none => exact answers_ok _
  | some b =>
    rw [checkBound]
    split_ifs
    · exact answers_refuse _
    · exact answers_ok _

lemma answers_checkLength (c : Constraints) (count : ℕ) : Answers (checkLength c count) := by
  unfold checkLength
  split_ifs
  · exact answers_refuse _
  · exact answers_ok _

lemma answers_validateIntegerRange (c : Constraints) (p : Payload) : Answers (validateIntegerRange c p) := by
  unfold validateIntegerRange
  split_ifs
  · exact answers_ok _
  cases p.toInt with
  | error e => exact answers_refuse _
  | ok v => exact (answers_checkBound _ _ _).bind fun _ _ => answers_checkBound _ _ _

lemma answers_validateRealRange (c : Constraints) (p : Payload) : Answers (validateRealRange c p) := by
  unfold validateRealRange
  split_ifs
  · exact answers_ok _
  cases p.toFloat with
  | error e => exact answers_refuse _
  | ok v => exact (answers_checkBound _ _ _).bind fun _ _ => answers_checkBound _ _ _

lemma answers_validateTextLength (c : Constraints) (str : Bytes) : Answers (validateTextLength c str) := by
  unfold validateTextLength
  split_ifs
  · exact answers_ok _
  cases utf8CountCodepoints str with
  | none => exact answers_refuse _
  | some count => exact answers_checkLength c count

lemma answers_validateTextFormat (format : Format) (str : Bytes) : Answers (validateTextFormat format str) := by
  have h : Answers (formatMatches str format) := by
    cases format with
    | email => exact answers_validateEmail str
    | uuid => exact answers_validateUuid str
    | uri => exact answers_validateUri str
  refine h.bind fun valid _ => ?_
  cases valid with
  | false => exact answers_refuse _
  | true => exact answers_pure _

lemma answers_validateTextConstraints (c : Constraints) (p : Payload) :
    Answers (validateTextConstraints c p) := by
  unfold validateTextConstraints
  cases hm : matchesType .text p with
  | false => exact answers_refuse _
  | true =>
    refine (answers_strBytes hm).bind fun str _ => ?_
    refine (answers_validateTextLength c str).bind fun _ _ => ?_
    split_ifs
    · exact answers_refuse _
    · cases c.format with
      | none => exact answers_pure _
      | some format => exact answers_validateTextFormat format str

lemma answers_validateBinaryConstraints (c : Constraints) (p : Payload) :
    Answers (validateBinaryConstraints c p) := by
  unfold validateBinaryConstraints
  cases hm : matchesType .bytes p with
  | false => exact answers_refuse _
  | true => exact (answers_binBytes hm).bind fun _ _ => answers_checkLength c _

lemma answers_validateEnum (enums : List EnumValue) (t : FieldType) (p : Payload) :
    Answers (validateEnum enums t p) := by
  cases t with
  | text =>
    rw [validateEnum]
    cases hm : matchesType .text p with
    | false => exact answers_refuse _
    | true =>
      refine (answers_strBytes hm).bind fun str _ => ?_
      split_ifs
      · exact answers_pure _
      · exact answers_refuse _
  | integer =>
    rw [validateEnum]
    cases p.toInt with
    | error e => exact answers_refuse _
    | ok v =>
      dsimp only
      split_ifs
      · exact answers_ok _
      · exact answers_refuse _
  | real =>
    rw [validateEnum]
    cases p.toFloat with
    | error e => exact answers_refuse _
    | ok v =>
      dsimp only
      split_ifs
      · exact answers_ok _
      · exact answers_refuse _
  | _ => exact answers_refuse _

lemma answers_checkEnum (c : Constraints) (t : FieldType) (p : Payload) : Answers (checkEnum c t p) := by
  unfold checkEnum
  cases c.enumValues with
  | none => exact answers_ok _
  | some enums => exact answers_validateEnum enums t p

lemma answers_validate (c : Constraints) (t : FieldType) (p : Payload) : Answers (c.validate t p) := by
  unfold validate
  split_ifs
  · exact answers_pure _
  refine (answers_checkEnum c t p).bind fun _ _ => ?_
  cases t with
  | text => exact answers_validateTextConstraints c p
  | integer => exact answers_validateIntegerRange c p
  | real => exact answers_validateRealRange c p
  | bytes => exact answers_validateBinaryConstraints c p
  | _ => exact answers_pure _

end Constraints
end ZyncBase
