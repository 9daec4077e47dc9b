import ZyncBase.Schema.Constraints
import ZyncBase.Schema.FieldPath
import ZyncBase.Typed.Json

/-! Parsing of the store part of a schema file. Nested objects become fields with joined names. The
presence and action parts are read apart from it. -/
namespace ZyncBase

inductive SchemaError where
  | invalidSchema | unknownSchemaKey | invalidVersion | missingVersion | invalidStore
  | missingStore | invalidMetadata | invalidTableName | invalidTableDefinition
  | invalidRequiredField | invalidUniqueConstraint | missingFields | invalidFieldName
  | invalidFieldDefinition | invalidFieldType | missingFieldType | unknownFieldType
  | reservedFieldName | invalidConstraint | tooManyFields | invalidArrayItems | missingArrayItems
  | unsupportedArrayItemsType | invalidReference | invalidOnDelete | duplicateFieldName
  | duplicateTableName | duplicateField
  deriving DecidableEq, Repr

abbrev JsonObject := List (String × JsonValue)

/-- The constraints of a field as they are declared. -/
structure DeclaredConstraints where
  enumValues : Option (List EnumValue) := none
  patternSource : Option Bytes := none
  format : Option Format := none
  minLength : Option ℕ := none
  maxLength : Option ℕ := none
  minimum : Option Bound := none
  maximum : Option Bound := none

structure DeclaredField where
  name : String
  declaredType : FieldType
  storageType : FieldType
  itemsType : Option FieldType
  required : Bool
  indexed : Bool
  references : Option String
  onDelete : Option OnDelete
  metadata : Option JsonValue
  constraints : Option DeclaredConstraints

/-- A table with its fields in order; unique constraints index the fields. -/
structure DeclaredTable where
  name : String
  fields : List DeclaredField
  namespaced : Bool
  metadata : Option JsonValue := none
  uniqueConstraints : List (List ℕ) := []

structure DeclaredSchema where
  version : Bytes
  metadata : Option JsonValue
  tables : List DeclaredTable

/-- Names hold no bytes beyond ASCII once they have been checked. -/
def nameOfBytes (bytes : Bytes) : String := String.ofList (bytes.map fun b => Char.ofNat b.toNat)

def bytesOfName (name : String) : Bytes := name.toList.map fun c => UInt8.ofNat c.toNat

namespace SchemaParse

section Read

variable (obj : JsonObject) (key : String) (e : SchemaError)

def getString : Except SchemaError (Option Bytes) :=
  match obj.lookup key with
  | none | some .null => .ok none
  | some (.string text) => .ok (some text)
  | some _ => .error e

def getBool : Except SchemaError (Option Bool) :=
  match obj.lookup key with
  | none | some .null => .ok none
  | some (.bool value) => .ok (some value)
  | some _ => .error e

def getObject : Except SchemaError (Option JsonObject) :=
  match obj.lookup key with
  | none | some .null => .ok none
  | some (.object entries) => .ok (some entries)
  | some _ => .error e

def getArray : Except SchemaError (Option (List JsonValue)) :=
  match obj.lookup key with
  | none | some .null => .ok none
  | some (.array items) => .ok (some items)
  | some _ => .error e

def rejectUnknownKeys (allowed : List String) (obj : JsonObject) : Except SchemaError Unit :=
  if obj.all fun entry => allowed.contains entry.1 then .ok () else .error .unknownSchemaKey

def hasAnyKey (obj : JsonObject) (keys : List String) : Bool :=
  keys.any fun key => (obj.lookup key).isSome

def getMetadata (obj : JsonObject) : Except SchemaError (Option JsonValue) :=
  match obj.lookup "metadata" with
  | none => .ok none
  | some (.object entries) => .ok (some (.object entries))
  | some _ => .error .invalidMetadata

end Read

def orMissing {α : Type} (e : SchemaError) : Option α → Except SchemaError α
  | none => .error e
  | some a => .ok a

section Identifiers

def isValidSchemaIdentifier (name : String) : Bool :=
  match name.toList with
  | [] => false
  | first :: rest => first.isAlpha && !DoubledSeparator.hasDouble '_' (first :: rest) &&
      rest.all fun ch => ch.isAlphanum || ch = '_'

def isInternalTableName (name : String) : Bool := "_zync_".toList.isPrefixOf name.toList

def isValidTableIdentifier (name : String) : Bool :=
  isValidSchemaIdentifier name && !isInternalTableName name

end Identifiers

section Constraints

def constraintKeys : List String :=
  ["enum", "pattern", "format", "minLength", "maxLength", "minimum", "maximum"]

def storeFieldKeys : List String :=
  ["type", "indexed", "references", "onDelete", "items", "fields", "metadata"] ++ constraintKeys

def hasConstraintKeys (field : JsonObject) : Bool := hasAnyKey field constraintKeys

def validateConstraintApplicability (t : FieldType) (field : JsonObject) : Except SchemaError Unit :=
  let excluded : Option (List String) := match t with
    | .text => some ["minimum", "maximum"]
    | .integer | .real => some ["pattern", "format", "minLength", "maxLength"]
    | .bytes => some ["pattern", "format", "enum", "minimum", "maximum"]
    | .docId | .boolean | .array => none
  match excluded with
  | some keys => if hasAnyKey field keys then .error .invalidConstraint else .ok ()
  | none => .error .invalidConstraint

def realOfInteger (value : ℤ) : Except SchemaError Real64 :=
  match Payload.finiteReal (value < 0) (Payload.magnitudeOfNat value.natAbs) with
  | .ok r => .ok r
  | .error _ => .error .invalidConstraint

def parseEnumValue (t : FieldType) (item : JsonValue) : Except SchemaError EnumValue :=
  match t, item with
  | .text, .string text => .ok (.text text)
  | .integer, .integer value => .ok (.integer value)
  | .real, .float value => .ok (.real value)
  | .real, .integer value => (realOfInteger value).map .real
  | _, _ => .error .invalidConstraint

def parseEnumConstraint (t : FieldType) (value : Option JsonValue) :
    Except SchemaError (Option (List EnumValue)) :=
  match value with
  | none => .ok none
  | some (.array (item :: items)) => ((item :: items).mapM (parseEnumValue t)).map some
  | some _ => .error .invalidConstraint

-- Whether a pattern compiles.
variable (compiles : Bytes → Bool)

def parsePatternConstraint (value : Option JsonValue) : Except SchemaError (Option Bytes) :=
  match value with
  | none => .ok none
  | some (.string pattern) =>
    if pattern.length = 0 ∨ 0 ∈ pattern ∨ compiles pattern = false then .error .invalidConstraint
    else .ok (some pattern)
  | some _ => .error .invalidConstraint

def formatName : Format → String
  | .email => "email"
  | .uuid => "uuid"
  | .uri => "uri"

def parseFormatConstraint (value : Option JsonValue) : Except SchemaError (Option Format) :=
  match value with
  | none => .ok none
  | some (.string text) =>
    if text = bytesOfName "email" then .ok (some .email)
    else if text = bytesOfName "uuid" then .ok (some .uuid)
    else if text = bytesOfName "uri" then .ok (some .uri)
    else .error .invalidConstraint
  | some _ => .error .invalidConstraint

def parseLengthConstraint (value : Option JsonValue) : Except SchemaError (Option ℕ) :=
  match value with
  | none => .ok none
  | some (.integer length) =>
    if length < 0 then .error .invalidConstraint else .ok (some length.toNat)
  | some _ => .error .invalidConstraint

/-- The integer that a double is, if it is one of 64 bits. -/
def integerOfReal (r : Real64) : Option ℤ :=
  let exponent := r.magnitude / 2 ^ 52
  let significand := if exponent = 0 then r.magnitude else 2 ^ 52 + r.magnitude % 2 ^ 52
  let shift := if exponent = 0 then 1074 else 1075 - exponent
  let value : ℤ := if 1075 ≤ exponent then significand * 2 ^ (exponent - 1075)
    else significand / 2 ^ shift
  let signed := if r.negative then -value else value
  if exponent < 1075 ∧ significand % 2 ^ shift ≠ 0 then none
  else if -2 ^ 63 ≤ signed ∧ signed < 2 ^ 63 then some signed
  else none

def parseIntegerBound (value : JsonValue) : Except SchemaError ℤ :=
  match value with
  | .integer v => .ok v
  | .float r => orMissing .invalidConstraint (integerOfReal r)
  | _ => .error .invalidConstraint

def parseRealBound (value : JsonValue) : Except SchemaError Real64 :=
  match value with
  | .float r => .ok r
  | .integer v => realOfInteger v
  | _ => .error .invalidConstraint

def parseBound (t : FieldType) (value : Option JsonValue) : Except SchemaError (Option Bound) :=
  match value with
  | none => .ok none
  | some bound =>
    match t with
    | .integer => (parseIntegerBound bound).map fun v => some (.integer v)
    | .real => (parseRealBound bound).map fun r => some (.real r)
    | _ => .error .invalidConstraint

/-- The least value comes before the greatest; both are of one type. -/
def boundsInOrder : Bound → Bound → Bool
  | .integer a, .integer b => a ≤ b
  | .real a, .real b => a.order b != .gt
  | _, _ => false

def validateConstraintOrder (c : DeclaredConstraints) : Except SchemaError Unit :=
  if (c.minLength.any fun least => c.maxLength.any fun most => most < least) ||
      c.minimum.any fun least => c.maximum.any fun most => !boundsInOrder least most
  then .error .invalidConstraint
  else .ok ()

def parseConstraints (t : FieldType) (field : JsonObject) : Except SchemaError (Option DeclaredConstraints) :=
  if hasConstraintKeys field = false then .ok none
  else do
    validateConstraintApplicability t field
    let enumValues ← parseEnumConstraint t (field.lookup "enum")
    let patternSource ← parsePatternConstraint compiles (field.lookup "pattern")
    let format ← parseFormatConstraint (field.lookup "format")
    let minLength ← parseLengthConstraint (field.lookup "minLength")
    let maxLength ← parseLengthConstraint (field.lookup "maxLength")
    let minimum ← parseBound t (field.lookup "minimum")
    let maximum ← parseBound t (field.lookup "maximum")
    let c : DeclaredConstraints :=
      { enumValues, patternSource, format, minLength, maxLength, minimum, maximum }
    validateConstraintOrder c
    return some c

end Constraints

section Fields

variable (compiles : Bytes → Bool)

/-- What a field is checked against. -/
structure StoreFieldContext where
  required : List String
  reserveExternalId : Bool

def maxDeclaredFields : ℕ := 1024

def primitiveTypes : List (String × FieldType) :=
  [("string", .text), ("integer", .integer), ("number", .real), ("boolean", .boolean)]

def fieldTypes : List (String × FieldType) :=
  primitiveTypes ++ [("array", .array), ("bytes", .bytes)]

def extractArrayItemsType (t : FieldType) (field : JsonObject) : Except SchemaError (Option FieldType) :=
  if t ≠ .array then .ok none
  else do
    let items ← orMissing .missingArrayItems (← getString field "items" .invalidArrayItems)
    return some (← orMissing .unsupportedArrayItemsType (primitiveTypes.lookup (nameOfBytes items)))

def extractReferences (field : JsonObject) : Except SchemaError (Option String) := do
  match ← getString field "references" .invalidReference with
  | none => return none
  | some target =>
    if isValidTableIdentifier (nameOfBytes target) then return some (nameOfBytes target)
    else throw .invalidTableName

def onDeleteNames : List (String × OnDelete) :=
  [("cascade", .cascade), ("restrict", .restrict), ("set_null", .setNull)]

def extractOnDelete (field : JsonObject) (hasReferences required : Bool) :
    Except SchemaError (Option OnDelete) := do
  match ← getString field "onDelete" .invalidOnDelete with
  | none => return if hasReferences then some .restrict else none
  | some name =>
    let parsed ← orMissing .invalidOnDelete (onDeleteNames.lookup (nameOfBytes name))
    if parsed = .setNull ∧ required then throw .invalidOnDelete
    return some parsed

def fieldHeader (ctx : StoreFieldContext) (pre name : String) (field : JsonObject) :
    Except SchemaError (String × String) := do
  let type ← orMissing .missingFieldType (← getString field "type" .invalidFieldType)
  if isSystemColumn name then throw .reservedFieldName
  if ctx.reserveExternalId ∧ name = "external_id" then throw .reservedFieldName
  rejectUnknownKeys storeFieldKeys field
  return (FieldPath.joinSegment pre name, nameOfBytes type)

def emitField (ctx : StoreFieldContext) (name type : String) (field : JsonObject)
    (fields : List DeclaredField) : Except SchemaError (List DeclaredField) := do
  let declaredType ← orMissing .unknownFieldType (fieldTypes.lookup type)
  if maxDeclaredFields ≤ fields.length then throw .tooManyFields
  let required := ctx.required.contains name
  let itemsType ← extractArrayItemsType declaredType field
  let indexed := (← getBool field "indexed" .invalidFieldDefinition).getD false
  if declaredType = .bytes ∧ indexed then throw .invalidFieldDefinition
  let references ← extractReferences field
  if references.isSome ∧ declaredType ≠ .text then throw .invalidFieldType
  let storageType := if references.isSome then .docId else declaredType
  let onDelete ← extractOnDelete field references.isSome required
  let metadata ← getMetadata field
  let constraints ← parseConstraints compiles declaredType field
  let field : DeclaredField :=
    { name, declaredType, storageType, itemsType, required, indexed, references, onDelete, metadata,
      constraints }
  return fields ++ [field]

def preObjectValidate (ctx : StoreFieldContext) (name : String) (field : JsonObject) :
    Except SchemaError Unit :=
  if hasConstraintKeys field then .error .invalidConstraint
  else if ctx.required.contains name then .error .invalidRequiredField
  else .ok ()

mutual

/-- The fields so far, and those of an object below a prefix. -/
def parseObjectFields (ctx : StoreFieldContext) (pre : String) (fields : List DeclaredField) :
    JsonObject → Except SchemaError (List DeclaredField)
  | [] => .ok fields
  | (name, .object field) :: rest =>
    if isValidSchemaIdentifier name = false then .error .invalidFieldName
    else do
      let (fullName, type) ← fieldHeader ctx pre name field
      let fields ←
        if type = "object" then do
          preObjectValidate ctx fullName field
          parseNestedFields ctx fullName fields field
        else emitField compiles ctx fullName type field fields
      parseObjectFields ctx pre fields rest
  | (name, _) :: _ =>
    if isValidSchemaIdentifier name = false then .error .invalidFieldName
    else .error .invalidFieldDefinition

def parseNestedFields (ctx : StoreFieldContext) (pre : String) (fields : List DeclaredField) :
    JsonObject → Except SchemaError (List DeclaredField)
  | [] => .error .missingFields
  | (key, value) :: rest =>
    if key = "fields" then parseNestedValue ctx pre fields value
    else parseNestedFields ctx pre fields rest

def parseNestedValue (ctx : StoreFieldContext) (pre : String) (fields : List DeclaredField) :
    JsonValue → Except SchemaError (List DeclaredField)
  | .object nested => parseObjectFields ctx pre fields nested
  | .null => .error .missingFields
  | _ => .error .invalidSchema

end

end Fields

section Tables

variable (compiles : Bytes → Bool)

def parseNames (e : SchemaError) (items : List JsonValue) : Except SchemaError (List String) :=
  items.mapM fun item =>
    match item with
    | .string text => .ok (String.ofList (FieldPath.normalizeDots (nameOfBytes text).toList))
    | _ => .error e

def parseRequiredSet (table : JsonObject) (isUsersTable : Bool) : Except SchemaError (List String) := do
  match ← getArray table "required" .invalidTableDefinition with
  | none => return []
  | some items =>
    if isUsersTable then throw .invalidTableDefinition
    parseNames .invalidTableDefinition items

def ensureRequiredFieldsResolved (required : List String) (fields : List DeclaredField) :
    Except SchemaError Unit :=
  if required.all fun name => fields.any fun f => f.name = name then .ok ()
  else .error .invalidRequiredField

/-- A constraint names different fields, none of them bytes. -/
def parseUniqueConstraint (fields : List DeclaredField) (value : JsonValue) : Except SchemaError (List ℕ) :=
  match value with
  | .array (item :: items) => do
    let names ← parseNames .invalidUniqueConstraint (item :: items)
    let indexes ← names.mapM fun name =>
      orMissing .invalidUniqueConstraint (fields.findIdx? fun f => f.name = name)
    if (indexes.any fun i => fields[i]?.any fun f => f.declaredType = .bytes) ∨ ¬indexes.Nodup then
      throw .invalidUniqueConstraint
    return indexes
  | _ => .error .invalidUniqueConstraint

def sameFieldSet (a b : List ℕ) : Bool := a.length = b.length && a.all fun i => b.contains i

/-- No two constraints are on the same set of fields. -/
def parseUniqueItems (fields : List DeclaredField) (built : List (List ℕ)) :
    List JsonValue → Except SchemaError (List (List ℕ))
  | [] => .ok built
  | value :: rest => do
    let constraint ← parseUniqueConstraint fields value
    if built.any fun existing => sameFieldSet existing constraint then
      throw .invalidUniqueConstraint
    parseUniqueItems fields (built ++ [constraint]) rest

def parseUniqueConstraints (table : JsonObject) (fields : List DeclaredField) :
    Except SchemaError (List (List ℕ)) := do
  parseUniqueItems fields [] ((← getArray table "unique" .invalidUniqueConstraint).getD [])

def parseTable (name : String) (table : JsonValue) (isUsersTable : Bool) : Except SchemaError DeclaredTable :=
  if isValidTableIdentifier name = false then .error .invalidTableName
  else
    match table with
    | .object table => do
      rejectUnknownKeys ["fields", "required", "namespaced", "metadata", "unique"] table
      let metadata ← getMetadata table
      let namespaced := (← getBool table "namespaced" .invalidTableDefinition).getD !isUsersTable
      let required ← parseRequiredSet table isUsersTable
      let entries ← orMissing .missingFields (← getObject table "fields" .invalidSchema)
      let fields ← parseObjectFields compiles ⟨required, isUsersTable⟩ "" [] entries
      ensureRequiredFieldsResolved required fields
      let uniqueConstraints ← parseUniqueConstraints table fields
      return { name, fields, namespaced, metadata, uniqueConstraints }
    | _ => .error .invalidTableDefinition

def implicitUsersTable : DeclaredTable := { name := "users", fields := [], namespaced := false }

def parseUsersTable (store : JsonObject) : Except SchemaError DeclaredTable :=
  match store.lookup "users" with
  | some table => parseTable compiles "users" table true
  | none => .ok implicitUsersTable

def collectTables (store : JsonObject) : Except SchemaError (List DeclaredTable) := do
  let users ← parseUsersTable compiles store
  let others ← (store.filter fun entry => entry.1 ≠ "users").mapM fun entry =>
    parseTable compiles entry.1 entry.2 false
  return users :: others

def validateReferences (tables : List DeclaredTable) : Except SchemaError Unit :=
  if tables.all fun t => t.fields.all fun f => f.references.all fun target =>
    tables.any fun u => u.name = target then .ok ()
  else .error .invalidReference

def runtimeNames (t : DeclaredTable) : List String :=
  leadingSystemFields.map Field.name ++ t.fields.map DeclaredField.name ++ trailingSystemFields.map Field.name

def initFromTables (version : Bytes) (metadata : Option JsonValue) (tables : List DeclaredTable) :
    Except SchemaError DeclaredSchema := do
  if ¬∀ t ∈ tables, (runtimeNames t).Nodup then throw .duplicateFieldName
  if ¬(tables.map DeclaredTable.name).Nodup then throw .duplicateTableName
  validateReferences tables
  return { version, metadata, tables }

mutual

def hasUniqueKeys : JsonValue → Bool
  | .object entries => (entries.map Prod.fst).Nodup && entriesHaveUniqueKeys entries
  | .array items => itemsHaveUniqueKeys items
  | _ => true

def entriesHaveUniqueKeys : JsonObject → Bool
  | [] => true
  | (_, value) :: rest => hasUniqueKeys value && entriesHaveUniqueKeys rest

def itemsHaveUniqueKeys : List JsonValue → Bool
  | [] => true
  | value :: rest => hasUniqueKeys value && itemsHaveUniqueKeys rest

end

/-- Reading of the text already refuses a repeated key. -/
def initFromJson (json : JsonValue) : Except SchemaError DeclaredSchema :=
  if hasUniqueKeys json = false then .error .duplicateField
  else match json with
  | .object root => do
    rejectUnknownKeys ["version", "store", "metadata", "presence", "actions"] root
    let version ← orMissing .missingVersion (← getString root "version" .invalidVersion)
    let store ← orMissing .missingStore (← getObject root "store" .invalidStore)
    let metadata ← getMetadata root
    initFromTables version metadata (← collectTables compiles store)
  | _ => .error .invalidSchema

end Tables

lemma itemsHaveUniqueKeys_of_forall {items : List JsonValue}
    (h : ∀ item ∈ items, hasUniqueKeys item = true) : itemsHaveUniqueKeys items = true := by
  induction items with
  | nil => rfl
  | cons item rest ih =>
    obtain ⟨hitem, hrest⟩ := List.forall_mem_cons.mp h
    rw [itemsHaveUniqueKeys, hitem, ih hrest]
    rfl

lemma entriesHaveUniqueKeys_of_forall {entries : JsonObject}
    (h : ∀ entry ∈ entries, hasUniqueKeys entry.2 = true) : entriesHaveUniqueKeys entries = true := by
  induction entries with
  | nil => rfl
  | cons entry rest ih =>
    obtain ⟨hentry, hrest⟩ := List.forall_mem_cons.mp h
    rw [entriesHaveUniqueKeys, hentry, ih hrest]
    rfl

end SchemaParse
end ZyncBase
