import ZyncBase.Schema.FieldTree

/-! Writing of a schema as a schema file, and of a field, which is read again from the definition that
is written for it. -/
namespace ZyncBase

open Outcome SchemaParse List

inductive FormatError where
  | writeFailed
  deriving DecidableEq, Repr

def members (table : List (String × Option JsonValue)) : JsonObject :=
  table.filterMap fun entry => entry.2.map fun value => (entry.1, value)

namespace SchemaFormat

def schemaName : FieldType → String
  | .text | .docId => "string"
  | .integer => "integer"
  | .real => "number"
  | .boolean => "boolean"
  | .array => "array"
  | .bytes => "bytes"

def onDeleteName : OnDelete → String
  | .cascade => "cascade"
  | .restrict => "restrict"
  | .setNull => "set_null"

def stringValue (text : String) : JsonValue := .string (bytesOfName text)

section Write

-- The length of the decimal text of a double, without an exponent.
variable (width : Real64 → ℕ)

/-- The text of a double is printed into 64 bytes. It reads back as the same double. -/
def appendFloat (r : Real64) : Except FormatError JsonValue :=
  if width r ≤ 64 then .ok (.float r) else .error .writeFailed

def writeEnumValue : EnumValue → Except FormatError JsonValue
  | .text text => .ok (.string text)
  | .integer value => .ok (.integer value)
  | .real r => appendFloat width r

def writeBound : Bound → Except FormatError JsonValue
  | .integer value => .ok (.integer value)
  | .real r => appendFloat width r

def writeOption {α : Type} (write : α → Except FormatError JsonValue) :
    Option α → Except FormatError (Option JsonValue)
  | none => .ok none
  | some a => (write a).map some

def writeConstraints (c : DeclaredConstraints) : Except FormatError JsonObject := do
  let enumValues ← writeOption (fun values => do
    return .array (← values.mapM (writeEnumValue width))) c.enumValues
  let minimum ← writeOption (writeBound width) c.minimum
  let maximum ← writeOption (writeBound width) c.maximum
  return members [("enum", enumValues), ("pattern", c.patternSource.map .string),
    ("format", c.format.map fun f => stringValue (formatName f)),
    ("minLength", c.minLength.map fun n : ℕ => JsonValue.integer n),
    ("maxLength", c.maxLength.map fun n : ℕ => JsonValue.integer n), ("minimum", minimum), ("maximum", maximum)]

def writeFieldDefinition (f : DeclaredField) : Except FormatError JsonObject := do
  let constraints ← match f.constraints with
    | none => .ok []
    | some c => writeConstraints width c
  return members [("type", some (stringValue (schemaName f.declaredType))),
    ("items", if f.declaredType = .array then
      some (stringValue (schemaName (f.itemsType.getD .text))) else none),
    ("indexed", if f.indexed then some (.bool true) else none),
    ("references", f.references.map stringValue),
    ("onDelete", f.onDelete.map fun d => stringValue (onDeleteName d)),
    ("metadata", f.metadata)] ++ constraints

/-- The fields below a prefix, one member for each name that comes next; `child` writes those below
a longer prefix. -/
def writeGroups (child : String → Except FormatError JsonObject) (pre : String) :
    List String → List DeclaredField → Except FormatError JsonObject
  | _, [] => .ok []
  | seen, f :: rest =>
    match FieldPath.remainder f.name pre with
    | none => writeGroups child pre seen rest
    | some rem =>
      let (segment, more) := FieldPath.splitFirst rem
      if segment ∈ seen then writeGroups child pre seen rest
      else do
        let value ← if more.isSome then do
            let nested ← child (FieldPath.joinSegment pre segment)
            pure [("type", stringValue "object"), ("fields", .object nested)]
          else writeFieldDefinition width f
        return (segment, .object value) :: (← writeGroups child pre (segment :: seen) rest)

/-- Objects are nested less deep than the names are long. -/
def writeFieldsForPrefix (fields : List DeclaredField) : ℕ → String → Except FormatError JsonObject
  | 0, _ => .ok []
  | depth + 1, pre => writeGroups width (writeFieldsForPrefix fields depth) pre [] fields

def namesDepth (fields : List DeclaredField) : ℕ :=
  (fields.map fun f => f.name.length).foldr max 0 + 1

def dottedValue (f : DeclaredField) : JsonValue :=
  stringValue (String.ofList (FieldPath.toDotted f.name.toList))

def writeRequiredFields (fields : List DeclaredField) : Option JsonValue :=
  if fields.any DeclaredField.required then
    some (.array ((fields.filter DeclaredField.required).map dottedValue))
  else none

def writeUniqueConstraints (t : DeclaredTable) : Option JsonValue :=
  if t.uniqueConstraints = [] then none
  else some (.array (t.uniqueConstraints.map fun indexes =>
    .array ((indexes.filterMap fun i => t.fields[i]?).map dottedValue)))

def writeTable (t : DeclaredTable) : Except FormatError JsonObject := do
  let fields ← writeFieldsForPrefix width t.fields (namesDepth t.fields) ""
  return members [("namespaced", some (.bool t.namespaced)), ("metadata", t.metadata),
    ("required", writeRequiredFields t.fields), ("unique", writeUniqueConstraints t),
    ("fields", some (.object fields))]

def format (s : DeclaredSchema) : Except FormatError JsonValue := do
  let store ← s.tables.mapM fun t => do return (t.name, .object (← writeTable width t))
  return .object (members [("version", some (.string s.version)), ("metadata", s.metadata),
    ("store", some (.object store))])

end Write
end SchemaFormat

open SchemaFormat

section Json

def EnumValue.json : EnumValue → JsonValue
  | .text value => .string value
  | .integer value => .integer value
  | .real r => .float r

def Bound.json : Bound → JsonValue
  | .integer value => .integer value
  | .real r => .float r

def DeclaredConstraints.table (c : DeclaredConstraints) : List (String × Option JsonValue) :=
  [("enum", c.enumValues.map fun values => .array (values.map EnumValue.json)),
    ("pattern", c.patternSource.map .string),
    ("format", c.format.map fun f => stringValue (formatName f)),
    ("minLength", c.minLength.map fun n : ℕ => JsonValue.integer n),
    ("maxLength", c.maxLength.map fun n : ℕ => JsonValue.integer n),
    ("minimum", c.minimum.map Bound.json), ("maximum", c.maximum.map Bound.json)]

/-- What is written for a field, when each of its doubles can be printed. -/
def DeclaredField.table (f : DeclaredField) : List (String × Option JsonValue) :=
  [("type", some (stringValue (schemaName f.declaredType))),
    ("items", if f.declaredType = .array then
      some (stringValue (schemaName (f.itemsType.getD .text))) else none),
    ("indexed", if f.indexed then some (.bool true) else none),
    ("references", f.references.map stringValue),
    ("onDelete", f.onDelete.map fun d => stringValue (onDeleteName d)),
    ("metadata", f.metadata)] ++ (f.constraints.map DeclaredConstraints.table).getD []

def DeclaredField.json (f : DeclaredField) : JsonObject := members f.table

end Json

section Members

variable (table : List (String × Option JsonValue))

lemma members_append (table' : List (String × Option JsonValue)) :
    members (table ++ table') = members table ++ members table' := filterMap_append

lemma members_keys : ((members table).map Prod.fst).Sublist (table.map Prod.fst) := by
  induction table with
  | nil => exact .slnil
  | cons e rest ih =>
    obtain ⟨key, value⟩ := e
    cases value with
    | none => exact ih.cons _
    | some v => exact ih.cons_cons _

lemma lookup_members (hkeys : (table.map Prod.fst).Nodup) (key : String) :
    (members table).lookup key = (table.lookup key).join := by
  induction table with
  | nil => rfl
  | cons e rest ih =>
    obtain ⟨name, value⟩ := e
    rw [map_cons, nodup_cons] at hkeys
    rw [lookup_cons]
    cases value with
    | some v =>
      change ((name, v) :: members rest).lookup key = _
      rw [lookup_cons, ih hkeys.2]
      split <;> rfl
    | none =>
      change (members rest).lookup key = _
      split
      · rename_i hkey
        rw [lookup_eq_none_iff.mpr]
        · rfl
        · rintro ⟨name', v⟩ hmem
          have hname := (members_keys rest).subset (mem_map_of_mem hmem)
          refine bne_iff_ne.mpr ?_
          rintro rfl
          exact hkeys.1 (beq_iff_eq.mp hkey ▸ hname)
      · exact ih hkeys.2

lemma entriesHaveUniqueKeys_members (h : ∀ entry ∈ table, ∀ value ∈ entry.2, hasUniqueKeys value = true) :
    entriesHaveUniqueKeys (members table) = true := by
  induction table with
  | nil => rfl
  | cons e rest ih =>
    obtain ⟨key, value⟩ := e
    obtain ⟨hvalue, hrest⟩ := forall_mem_cons.mp h
    cases value with
    | none => exact ih hrest
    | some v =>
      change entriesHaveUniqueKeys ((key, v) :: members rest) = true
      rw [entriesHaveUniqueKeys, hvalue v rfl, ih hrest]
      rfl

end Members

section Printable

variable (width : Real64 → ℕ)

def EnumValue.Printable : EnumValue → Prop
  | .real r => width r ≤ 64
  | _ => True

def Bound.Printable : Bound → Prop
  | .real r => width r ≤ 64
  | _ => True

/-- The text of each double has its 64 bytes at most. -/
structure DeclaredConstraints.Printable (c : DeclaredConstraints) : Prop where
  enumValues : ∀ values ∈ c.enumValues, ∀ v ∈ values, v.Printable width
  minimum : ∀ b ∈ c.minimum, b.Printable width
  maximum : ∀ b ∈ c.maximum, b.Printable width

def DeclaredField.Printable (f : DeclaredField) : Prop :=
  ∀ c ∈ f.constraints, c.Printable width

end Printable

variable {obj : JsonObject} {f : DeclaredField}

namespace SchemaFormat

variable {width : Real64 → ℕ}

lemma appendFloat_eq_ok {r : Real64} {j : JsonValue} :
    appendFloat width r = .ok j ↔ width r ≤ 64 ∧ j = .float r := by
  unfold appendFloat
  split_ifs with hfits
  · simp [hfits, eq_comm]
  · simp [hfits]

lemma writeEnumValue_eq_ok (v : EnumValue) (j : JsonValue) :
    writeEnumValue width v = .ok j ↔ v.Printable width ∧ j = v.json := by
  cases v with
  | text text => simp [writeEnumValue, EnumValue.Printable, EnumValue.json, eq_comm]
  | integer value => simp [writeEnumValue, EnumValue.Printable, EnumValue.json, eq_comm]
  | real r => exact appendFloat_eq_ok

lemma writeBound_eq_ok (b : Bound) (j : JsonValue) :
    writeBound width b = .ok j ↔ b.Printable width ∧ j = b.json := by
  cases b with
  | integer value => simp [writeBound, Bound.Printable, Bound.json, eq_comm]
  | real r => exact appendFloat_eq_ok

lemma writeOption_eq_ok {α : Type} {write : α → Except FormatError JsonValue} {P : α → Prop}
    {json : α → JsonValue} (h : ∀ a j, write a = .ok j ↔ P a ∧ j = json a) {value : Option α}
    {r : Option JsonValue} : writeOption write value = .ok r ↔ (∀ a ∈ value, P a) ∧ r = value.map json := by
  cases value with
  | none => simp [writeOption, eq_comm]
  | some a =>
    rw [writeOption, map_eq_ok]
    constructor
    · rintro ⟨j, hj, rfl⟩
      obtain ⟨ha, rfl⟩ := (h a j).mp hj
      exact ⟨fun _ hmem => Option.mem_some_iff.mp hmem ▸ ha, rfl⟩
    · rintro ⟨ha, rfl⟩
      exact ⟨_, (h a _).mpr ⟨ha a rfl, rfl⟩, rfl⟩

lemma writeConstraints_eq_ok {c : DeclaredConstraints} :
    writeConstraints width c = .ok obj ↔ c.Printable width ∧ obj = members c.table := by
  have henum : ∀ (values : List EnumValue) (j : JsonValue),
      (do return .array (← values.mapM (writeEnumValue width)) : Except FormatError JsonValue) =
        .ok j ↔ (∀ v ∈ values, v.Printable width) ∧ j = .array (values.map EnumValue.json) := by
    intro values j
    rw [bind_eq_ok]
    constructor
    · rintro ⟨items, hitems, h⟩
      cases h
      obtain ⟨hfits, rfl⟩ := (mapM_eq_ok_map writeEnumValue_eq_ok).mp hitems
      exact ⟨hfits, rfl⟩
    · rintro ⟨hfits, rfl⟩
      exact ⟨_, (mapM_eq_ok_map writeEnumValue_eq_ok).mpr ⟨hfits, rfl⟩, rfl⟩
  unfold writeConstraints
  constructor
  · intro h
    obtain ⟨enumValues, he, h⟩ := bind_eq_ok.mp h
    obtain ⟨minimum, hleast, h⟩ := bind_eq_ok.mp h
    obtain ⟨maximum, hmost, h⟩ := bind_eq_ok.mp h
    cases h
    obtain ⟨henums, rfl⟩ := (writeOption_eq_ok henum).mp he
    obtain ⟨hminimum, rfl⟩ := (writeOption_eq_ok writeBound_eq_ok).mp hleast
    obtain ⟨hmaximum, rfl⟩ := (writeOption_eq_ok writeBound_eq_ok).mp hmost
    exact ⟨⟨henums, hminimum, hmaximum⟩, rfl⟩
  · rintro ⟨⟨he, hleast, hmost⟩, rfl⟩
    rw [(writeOption_eq_ok henum).mpr ⟨he, rfl⟩, ok_bind,
      (writeOption_eq_ok writeBound_eq_ok).mpr ⟨hleast, rfl⟩, ok_bind,
      (writeOption_eq_ok writeBound_eq_ok).mpr ⟨hmost, rfl⟩, ok_bind]
    rfl

lemma writeFieldDefinition_eq_ok :
    writeFieldDefinition width f = .ok obj ↔ f.Printable width ∧ obj = f.json := by
  unfold writeFieldDefinition DeclaredField.Printable DeclaredField.json DeclaredField.table
  cases f.constraints with
  | none =>
    simp only [ok_bind, pure_eq_ok, Option.map_none, Option.getD_none, append_nil]
    exact ⟨fun h => ⟨fun c hc => absurd hc (Option.not_mem_none c), h.symm⟩, fun h => h.2.symm⟩
  | some c =>
    simp only [Option.mem_some_iff, forall_eq', Option.map_some, Option.getD_some]
    rw [bind_eq_ok, members_append]
    constructor
    · rintro ⟨constraints, hc, h⟩
      cases h
      obtain ⟨hfits, rfl⟩ := writeConstraints_eq_ok.mp hc
      exact ⟨hfits, rfl⟩
    · rintro ⟨hfits, rfl⟩
      exact ⟨members c.table, writeConstraints_eq_ok.mpr ⟨hfits, rfl⟩, pure_eq_ok.mpr rfl⟩

end SchemaFormat

section Lookup

lemma DeclaredConstraints.table_keys (c : DeclaredConstraints) : c.table.map Prod.fst = constraintKeys := rfl

lemma DeclaredField.table_keys (f : DeclaredField) : (f.table.map Prod.fst).Sublist
    (["type", "items", "indexed", "references", "onDelete", "metadata"] ++ constraintKeys) := by
  rw [DeclaredField.table, map_append]
  refine List.Sublist.append (List.Sublist.refl _) ?_
  cases f.constraints with
  | none => exact nil_sublist _
  | some c => exact List.Sublist.refl _

lemma DeclaredField.json_keys_nodup (f : DeclaredField) : (f.json.map Prod.fst).Nodup :=
  ((members_keys f.table).trans f.table_keys).nodup (by decide)

lemma DeclaredField.lookup_json (f : DeclaredField) (key : String) :
    f.json.lookup key = (f.table.lookup key).join :=
  lookup_members f.table (f.table_keys.nodup (by decide)) key

lemma DeclaredField.lookup_constraints {c : DeclaredConstraints} (hc : f.constraints = some c) :
    f.json.lookup "enum" = c.enumValues.map (fun values => .array (values.map EnumValue.json)) ∧
      f.json.lookup "pattern" = c.patternSource.map .string ∧
      f.json.lookup "format" = c.format.map (fun f => stringValue (formatName f)) ∧
      f.json.lookup "minLength" = c.minLength.map (fun n : ℕ => JsonValue.integer n) ∧
      f.json.lookup "maxLength" = c.maxLength.map (fun n : ℕ => JsonValue.integer n) ∧
      f.json.lookup "minimum" = c.minimum.map Bound.json ∧
      f.json.lookup "maximum" = c.maximum.map Bound.json := by
  simp only [f.lookup_json]
  rw [DeclaredField.table, hc]
  exact ⟨rfl, rfl, rfl, rfl, rfl, rfl, rfl⟩

end Lookup

namespace DeclaredConstraints.Accepted

variable {compiles : Bytes → Bool} {t : FieldType} {c : DeclaredConstraints}

lemma bounds_none (h : c.Accepted compiles t) (hi : t ≠ .integer) (hr : t ≠ .real) :
    c.minimum = none ∧ c.maximum = none := by
  have hbound : ∀ b : Option Bound, (∀ bound ∈ b, bound.declaredType = t) → b = none := by
    rintro (_ | _ | _) hb
    · rfl
    · exact absurd (hb _ rfl).symm hi
    · exact absurd (hb _ rfl).symm hr
  exact ⟨hbound _ h.minimum, hbound _ h.maximum⟩

lemma text_none (h : c.Accepted compiles t) (ht : t ≠ .text) : c.patternSource = none ∧ c.format = none := by
  refine ⟨Option.eq_none_iff_forall_not_mem.mpr fun p hp => ht (h.pattern p hp).1, ?_⟩
  by_contra hne
  exact ht (h.format (Option.isSome_iff_ne_none.mpr hne))

lemma lengths_none (h : c.Accepted compiles t) (ht : t ≠ .text) (hb : t ≠ .bytes) :
    c.minLength = none ∧ c.maxLength = none := by
  constructor
  · by_contra hne
    obtain htype | htype := h.lengths (.inl (Option.isSome_iff_ne_none.mpr hne))
    · exact ht htype
    · exact hb htype
  · by_contra hne
    obtain htype | htype := h.lengths (.inr (Option.isSome_iff_ne_none.mpr hne))
    · exact ht htype
    · exact hb htype

end DeclaredConstraints.Accepted

variable {name : String}

namespace SchemaParse

variable {compiles : Bytes → Bool}

section Constraints

variable {t : FieldType} {c : DeclaredConstraints}

lemma parseEnumConstraint_json (h : ∀ values ∈ c.enumValues, values ≠ [] ∧ ∀ v ∈ values, v.declaredType = t) :
    parseEnumConstraint t (c.enumValues.map fun values => .array (values.map EnumValue.json)) =
      .ok c.enumValues := by
  cases hc : c.enumValues with
  | none => rfl
  | some values =>
    obtain ⟨hne, htypes⟩ := h values hc
    cases values with
    | nil => exact absurd rfl hne
    | cons v vs =>
      have hparse : ∀ v : EnumValue, v.declaredType = t → parseEnumValue t v.json = .ok v := by
        rintro (_ | _ | _) rfl <;> rfl
      have hmap : ((v :: vs).map EnumValue.json).mapM (parseEnumValue t) = .ok (v :: vs) :=
        mapM_map fun v hv => hparse v (htypes v hv)
      rw [Option.map_some, map_cons, parseEnumConstraint, ← map_cons, hmap]
      rfl

lemma parsePatternConstraint_json (h : ∀ p ∈ c.patternSource, ¬(p.length = 0 ∨ 0 ∈ p ∨ compiles p = false)) :
    parsePatternConstraint compiles (c.patternSource.map .string) = .ok c.patternSource := by
  cases hc : c.patternSource with
  | none => rfl
  | some p => rw [Option.map_some, parsePatternConstraint, if_neg (h p hc)]

lemma parseFormatConstraint_json (f : Option Format) :
    parseFormatConstraint (f.map fun f => stringValue (formatName f)) = .ok f := by
  rcases f with _ | _ | _ | _
  · rfl
  all_goals decide

lemma parseLengthConstraint_json (n : Option ℕ) :
    parseLengthConstraint (n.map fun n : ℕ => JsonValue.integer n) = .ok n := by
  cases n with
  | none => rfl
  | some n =>
    rw [Option.map_some, parseLengthConstraint, if_neg (not_lt.mpr (Int.natCast_nonneg n))]
    rfl

lemma parseBound_json {b : Option Bound} (h : ∀ bound ∈ b, bound.declaredType = t) :
    parseBound t (b.map Bound.json) = .ok b := by
  cases b with
  | none => rfl
  | some bound =>
    rw [← h bound rfl]
    cases bound <;> rfl

lemma validateConstraintApplicability_json (hc : f.constraints = some c)
    (h : c.Accepted compiles t) : validateConstraintApplicability t f.json = .ok () := by
  obtain ⟨he, hp, hf, hl, hm, hi, ha⟩ := f.lookup_constraints hc
  rcases h.constrained with rfl | rfl | rfl | rfl
  · obtain ⟨hleast, hmost⟩ := h.bounds_none (by simp) (by simp)
    simp [validateConstraintApplicability, hasAnyKey, hi, ha, hleast, hmost]
  · obtain ⟨hpattern, hformat⟩ := h.text_none (by simp)
    obtain ⟨hmin, hmax⟩ := h.lengths_none (by simp) (by simp)
    simp [validateConstraintApplicability, hasAnyKey, hp, hf, hl, hm, hpattern, hformat, hmin, hmax]
  · obtain ⟨hpattern, hformat⟩ := h.text_none (by simp)
    obtain ⟨hmin, hmax⟩ := h.lengths_none (by simp) (by simp)
    simp [validateConstraintApplicability, hasAnyKey, hp, hf, hl, hm, hpattern, hformat, hmin, hmax]
  · obtain ⟨hpattern, hformat⟩ := h.text_none (by simp)
    obtain ⟨hleast, hmost⟩ := h.bounds_none (by simp) (by simp)
    have henum : c.enumValues = none := Option.eq_none_iff_forall_not_mem.mpr fun values hv => by
      obtain ⟨hne, htypes⟩ := h.enumValues values hv
      obtain ⟨v, hv⟩ := exists_mem_of_ne_nil values hne
      have htype := htypes v hv
      cases v <;> cases htype
    simp [validateConstraintApplicability, hasAnyKey, he, hp, hf, hi, ha, hpattern, hformat, henum,
      hleast, hmost]

lemma parseConstraints_json (h : ∀ c ∈ f.constraints, c.Accepted compiles t) :
    parseConstraints compiles t f.json = .ok f.constraints := by
  cases hc : f.constraints with
  | none =>
    have hnone : hasConstraintKeys f.json = false := by
      simp only [hasConstraintKeys, hasAnyKey, f.lookup_json, DeclaredField.table, hc]
      rfl
    rw [parseConstraints, if_pos hnone]
  | some c =>
    obtain ⟨he, hp, hf, hl, hm, hi, ha⟩ := f.lookup_constraints hc
    have hsome : ¬hasConstraintKeys f.json = false := by
      have hpresent := (h c hc).present
      simp only [hasConstraintKeys, hasAnyKey, constraintKeys, any_cons, any_nil, he, hp,
        hf, hl, hm, hi, ha, Option.isSome_map, Bool.or_false, ← Bool.or_assoc]
      exact fun hnone => Bool.false_ne_true (hnone.symm.trans hpresent)
    have haccepted := h c hc
    rw [parseConstraints, if_neg hsome, validateConstraintApplicability_json hc haccepted, he, hp,
      hf, hl, hm, hi, ha, parseEnumConstraint_json haccepted.enumValues,
      parsePatternConstraint_json fun p hp => (haccepted.pattern p hp).2,
      parseFormatConstraint_json, parseLengthConstraint_json, parseLengthConstraint_json,
      parseBound_json haccepted.minimum, parseBound_json haccepted.maximum]
    simp only [ok_bind, haccepted.ordered]
    rfl

end Constraints

section Fields

variable {f : DeclaredField} {ctx : StoreFieldContext}

lemma lookup_fieldTypes {t : FieldType} (h : t ∈ fieldTypes.map Prod.snd) :
    fieldTypes.lookup (nameOfBytes (bytesOfName (schemaName t))) = some t := by
  cases t with
  | docId => exact absurd h (by decide)
  | _ => decide

lemma lookup_primitiveTypes {t : FieldType} (h : t ∈ primitiveTypes.map Prod.snd) :
    primitiveTypes.lookup (nameOfBytes (bytesOfName (schemaName t))) = some t := by
  cases t with
  | docId | array | bytes => exact absurd h (by decide)
  | _ => decide

lemma schemaName_ne_object (t : FieldType) :
    nameOfBytes (bytesOfName (schemaName t)) ≠ "object" := by
  cases t <;> decide

lemma getString_stringValue {key : String} {e : SchemaError}
    {text : Option String} (h : obj.lookup key = text.map stringValue) :
    getString obj key e = .ok (text.map bytesOfName) := by
  rw [getString, h]
  cases text <;> rfl

lemma extractArrayItemsType_json
    (h : if f.declaredType = .array then
      ∃ t ∈ primitiveTypes.map Prod.snd, f.itemsType = some t else f.itemsType = none) :
    extractArrayItemsType f.declaredType f.json = .ok f.itemsType := by
  unfold extractArrayItemsType
  split_ifs at h with harray
  · obtain ⟨t, ht, hitems⟩ := h
    have hlookup : f.json.lookup "items" = (some (schemaName t)).map stringValue := by
      rw [f.lookup_json]
      simp only [DeclaredField.table, harray, hitems]
      rfl
    rw [if_neg (not_not.mpr harray), getString_stringValue hlookup, hitems]
    simp only [Option.map_some, orMissing, ok_bind, lookup_primitiveTypes ht]
    rfl
  · rw [if_pos harray, h]

lemma nameOfBytes_bytesOfName (h : ∀ ch ∈ name.toList, ch.toNat < 256) :
    nameOfBytes (bytesOfName name) = name := by
  have hch : ∀ ch ∈ name.toList, Char.ofNat (UInt8.ofNat ch.toNat).toNat = ch := by
    intro ch hmem
    rw [UInt8.toNat_ofNat_of_lt' (h ch hmem)]
    exact Char.ofNat_toNat ch
  have hmap : (bytesOfName name).map (fun b => Char.ofNat b.toNat) = name.toList := by
    rw [bytesOfName, map_map]
    exact (map_congr_left hch).trans (map_id _)
  rw [nameOfBytes, hmap, String.ofList_toList]

lemma isValidSchemaIdentifier_chars (h : isValidSchemaIdentifier name = true) :
    ∀ ch ∈ name.toList, ch.isAlphanum = true ∨ ch = '_' := by
  unfold isValidSchemaIdentifier at h
  split at h
  · cases h
  · rename_i first rest hlist
    rw [hlist]
    simp only [Bool.and_eq_true, all_eq_true, Bool.or_eq_true, decide_eq_true_eq] at h
    rintro ch (_ | ⟨_, hmem⟩)
    · exact .inl (by simp [Char.isAlphanum, h.1.1])
    · exact h.2 ch hmem

lemma toNat_lt_of_identifier {ch : Char} (h : ch.isAlphanum = true ∨ ch = '_') : ch.toNat < 256 := by
  obtain h | rfl := h
  · delta Char.isAlphanum Char.isAlpha Char.isUpper Char.isLower Char.isDigit at h
    simp only [Bool.or_eq_true, Bool.and_eq_true, decide_eq_true_eq] at h
    have hnat : ch.toNat = ch.val.toNat := rfl
    obtain (⟨-, h⟩ | ⟨-, h⟩) | ⟨-, h⟩ := h <;>
    · have := UInt32.le_iff_toNat_le.mp h
      rw [hnat]
      exact lt_of_le_of_lt this (by decide)
  · decide

lemma nameOfBytes_identifier (h : isValidSchemaIdentifier name = true) :
    nameOfBytes (bytesOfName name) = name :=
  nameOfBytes_bytesOfName fun ch hch => toNat_lt_of_identifier (isValidSchemaIdentifier_chars h ch hch)

lemma extractReferences_json
    (h : ∀ target ∈ f.references,
      f.declaredType = .text ∧ isValidTableIdentifier target = true) :
    extractReferences f.json = .ok f.references := by
  have hlookup : f.json.lookup "references" = f.references.map stringValue := by
    rw [f.lookup_json]; rfl
  unfold extractReferences
  rw [getString_stringValue hlookup]
  cases href : f.references with
  | none => rfl
  | some target =>
    have hvalid := (h target href).2
    have hname := nameOfBytes_identifier (Bool.and_eq_true _ _ ▸ hvalid : _ ∧ _).1
    simp only [Option.map_some, ok_bind, hname, if_pos hvalid]
    rfl

lemma extractOnDelete_json
    (h : (f.references.isSome → f.onDelete.isSome) ∧
      (f.onDelete = some .setNull → f.required = false)) :
    extractOnDelete f.json f.references.isSome f.required = .ok f.onDelete := by
  have hlookup : f.json.lookup "onDelete" =
      (f.onDelete.map onDeleteName).map stringValue := by
    rw [f.lookup_json, Option.map_map]; rfl
  unfold extractOnDelete
  rw [getString_stringValue hlookup]
  cases hdelete : f.onDelete with
  | none =>
    rw [hdelete] at h
    have href : f.references.isSome = false := Bool.eq_false_of_not_eq_true fun hsome =>
      absurd (h.1 hsome) (by simp)
    rw [href]
    rfl
  | some d =>
    have hname : onDeleteNames.lookup (nameOfBytes (bytesOfName (onDeleteName d))) = some d := by
      cases d <;> decide
    have hnull : ¬(d = .setNull ∧ f.required = true) := by
      rintro ⟨rfl, hrequired⟩
      exact Bool.false_ne_true ((h.2 hdelete).symm.trans hrequired)
    simp only [Option.map_some, ok_bind, hname, orMissing, if_neg hnull]
    rfl

lemma getMetadata_json {metadata : Option JsonValue} (hlookup : obj.lookup "metadata" = metadata)
    (h : ∀ value ∈ metadata, ∃ entries, value = .object entries) : getMetadata obj = .ok metadata := by
  rw [getMetadata, hlookup]
  cases metadata with
  | none => rfl
  | some value =>
    obtain ⟨entries, rfl⟩ := h value rfl
    rfl

lemma fieldHeader_json {pre : String} (h : ctx.AllowsSegment name) :
    fieldHeader ctx pre name f.json = .ok (FieldPath.joinSegment pre name,
      nameOfBytes (bytesOfName (schemaName f.declaredType))) := by
  have hlookup : f.json.lookup "type" =
      (some (schemaName f.declaredType)).map stringValue := by
    rw [f.lookup_json]; rfl
  have hkeys : rejectUnknownKeys storeFieldKeys f.json = .ok () := by
    unfold rejectUnknownKeys
    refine if_pos (all_eq_true.mpr fun e he => contains_iff_mem.mpr ?_)
    have hkey := (members_keys f.table).subset (mem_map_of_mem he)
    have hsub := f.table_keys.subset hkey
    exact (by decide : _ ⊆ storeFieldKeys) hsub
  unfold fieldHeader
  rw [getString_stringValue hlookup]
  simp only [Option.map_some, ok_bind, orMissing, h.notSystem, Bool.false_eq_true,
    if_false, if_neg h.notReserved, hkeys]
  rfl

lemma emitField_json {required : List String} {fields : List DeclaredField} (hf : f.Accepted compiles required)
    (hrequired : ctx.required.contains f.name = f.required)
    (hcount : fields.length < maxDeclaredFields) :
    emitField compiles ctx f.name (nameOfBytes (bytesOfName (schemaName f.declaredType)))
      f.json fields = .ok (fields ++ [f]) := by
  have hindexed : getBool f.json "indexed" .invalidFieldDefinition =
      .ok (if f.indexed then some true else none) := by
    have hlookup : f.json.lookup "indexed" = if f.indexed then some (.bool true) else none := by
      rw [f.lookup_json]; rfl
    rw [getBool, hlookup]
    cases f.indexed <;> rfl
  have hindex : (if f.indexed then some true else none).getD false = f.indexed := by
    cases f.indexed <;> rfl
  have hbytes : ¬(f.declaredType = .bytes ∧ f.indexed = true) := fun h =>
    Bool.false_ne_true ((hf.indexed h.1).symm.trans h.2)
  have htext : ¬(f.references.isSome = true ∧ f.declaredType ≠ .text) := by
    rintro ⟨hsome, hne⟩
    obtain ⟨target, href⟩ := Option.isSome_iff_exists.mp hsome
    exact hne (hf.references target href).1
  have hmetadata : f.json.lookup "metadata" = f.metadata := by
    rw [f.lookup_json]; rfl
  have hfull := getMetadata_json hmetadata fun value hvalue => (hf.metadata value hvalue).1
  have hconstraints := parseConstraints_json hf.constraints
  unfold emitField
  simp only [lookup_fieldTypes hf.declaredType, orMissing, ok_bind,
    if_neg (not_le.mpr hcount), extractArrayItemsType_json hf.itemsType, hindexed, hindex,
    if_neg hbytes, extractReferences_json hf.references, if_neg htext, hrequired,
    extractOnDelete_json hf.onDelete, hfull, hconstraints, ← hf.storageType]
  rfl

end Fields
end SchemaParse
end ZyncBase
