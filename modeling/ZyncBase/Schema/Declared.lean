import ZyncBase.Schema.Parse

/-! What holds of each field that was read from a schema file. -/
namespace ZyncBase

open Outcome SchemaParse List

def EnumValue.declaredType : EnumValue → FieldType
  | .text _ => .text
  | .integer _ => .integer
  | .real _ => .real

def Bound.declaredType : Bound → FieldType
  | .integer _ => .integer
  | .real _ => .real

namespace DeclaredConstraints

def isPresent (c : DeclaredConstraints) : Bool :=
  c.enumValues.isSome || c.patternSource.isSome || c.format.isSome || c.minLength.isSome ||
    c.maxLength.isSome || c.minimum.isSome || c.maximum.isSome

/-- Constraints that a field of the type may declare. -/
structure Accepted (compiles : Bytes → Bool) (t : FieldType) (c : DeclaredConstraints) : Prop where
  present : c.isPresent
  constrained : t = .text ∨ t = .integer ∨ t = .real ∨ t = .bytes
  enumValues : ∀ values ∈ c.enumValues, values ≠ [] ∧ ∀ v ∈ values, v.declaredType = t
  pattern : ∀ p ∈ c.patternSource, t = .text ∧ ¬(p.length = 0 ∨ 0 ∈ p ∨ compiles p = false)
  format : c.format.isSome → t = .text
  lengths : c.minLength.isSome ∨ c.maxLength.isSome → t = .text ∨ t = .bytes
  minimum : ∀ b ∈ c.minimum, b.declaredType = t
  maximum : ∀ b ∈ c.maximum, b.declaredType = t
  ordered : validateConstraintOrder c = .ok ()

end DeclaredConstraints

namespace SchemaParse

variable {compiles : Bytes → Bool}

section Constraints

variable {t : FieldType} {value : Option JsonValue}

lemma parseEnumValue_declaredType {item : JsonValue} {v : EnumValue}
    (h : parseEnumValue t item = .ok v) : v.declaredType = t := by
  unfold parseEnumValue at h
  split at h
  · cases h; rfl
  · cases h; rfl
  · cases h; rfl
  · obtain ⟨r, -, rfl⟩ := map_eq_ok.mp h
    rfl
  · cases h

lemma parseEnumConstraint_eq_ok {r : Option (List EnumValue)} (h : parseEnumConstraint t value = .ok r) :
    r.isSome = value.isSome ∧ ∀ values ∈ r, values ≠ [] ∧ ∀ v ∈ values, v.declaredType = t := by
  unfold parseEnumConstraint at h
  split at h
  · cases h; simp
  · obtain ⟨values, hvalues, rfl⟩ := map_eq_ok.mp h
    refine ⟨rfl, ?_⟩
    rintro _ ⟨⟩
    refine ⟨?_, fun v hv => ?_⟩
    · rintro rfl
      cases mapM_eq_ok.mp hvalues
    · obtain ⟨item, -, hitem⟩ := of_mem_mapM hvalues hv
      exact parseEnumValue_declaredType hitem
  · cases h

lemma parsePatternConstraint_eq_ok {r : Option Bytes} (h : parsePatternConstraint compiles value = .ok r) :
    r.isSome = value.isSome ∧ ∀ p ∈ r, ¬(p.length = 0 ∨ 0 ∈ p ∨ compiles p = false) := by
  unfold parsePatternConstraint at h
  split at h
  · cases h; simp
  · split_ifs at h with hp
    cases h
    exact ⟨rfl, fun p hmem => Option.mem_some_iff.mp hmem ▸ hp⟩
  · cases h

lemma parseFormatConstraint_eq_ok {r : Option Format}
    (h : parseFormatConstraint value = .ok r) : r.isSome = value.isSome := by
  unfold parseFormatConstraint at h
  split at h
  · cases h; rfl
  · split_ifs at h <;> cases h <;> rfl
  · cases h

lemma parseLengthConstraint_eq_ok {r : Option ℕ} (h : parseLengthConstraint value = .ok r) :
    r.isSome = value.isSome := by
  unfold parseLengthConstraint at h
  split at h
  · cases h; rfl
  · split_ifs at h; cases h; rfl
  · cases h

lemma parseBound_eq_ok {r : Option Bound} (h : parseBound t value = .ok r) :
    r.isSome = value.isSome ∧ ∀ b ∈ r, b.declaredType = t := by
  unfold parseBound at h
  split at h
  · cases h; simp
  · split at h
    · obtain ⟨v, -, rfl⟩ := map_eq_ok.mp h
      exact ⟨rfl, fun b hb => Option.mem_some_iff.mp hb ▸ rfl⟩
    · obtain ⟨r, -, rfl⟩ := map_eq_ok.mp h
      exact ⟨rfl, fun b hb => Option.mem_some_iff.mp hb ▸ rfl⟩
    · cases h

lemma validateConstraintApplicability_eq_ok {field : JsonObject}
    (h : validateConstraintApplicability t field = .ok ()) :
    t = .text ∨ (t = .integer ∨ t = .real) ∧ (field.lookup "pattern").isSome = false ∧
        (field.lookup "format").isSome = false ∧ (field.lookup "minLength").isSome = false ∧
        (field.lookup "maxLength").isSome = false ∨
      t = .bytes ∧ (field.lookup "pattern").isSome = false ∧ (field.lookup "format").isSome = false := by
  unfold validateConstraintApplicability at h
  cases t with
  | text => exact .inl rfl
  | docId => cases h
  | boolean => cases h
  | array => cases h
  | integer =>
    dsimp only at h
    split_ifs at h with hkeys
    simp only [hasAnyKey, any_cons, any_nil, Bool.or_false, Bool.or_eq_true,
      not_or, Bool.not_eq_true] at hkeys
    exact .inr (.inl ⟨.inl rfl, hkeys⟩)
  | real =>
    dsimp only at h
    split_ifs at h with hkeys
    simp only [hasAnyKey, any_cons, any_nil, Bool.or_false, Bool.or_eq_true,
      not_or, Bool.not_eq_true] at hkeys
    exact .inr (.inl ⟨.inr rfl, hkeys⟩)
  | bytes =>
    dsimp only at h
    split_ifs at h with hkeys
    simp only [hasAnyKey, any_cons, any_nil, Bool.or_false, Bool.or_eq_true,
      not_or, Bool.not_eq_true] at hkeys
    exact .inr (.inr ⟨rfl, hkeys.1, hkeys.2.1⟩)

lemma parseConstraints_eq_ok {field : JsonObject} {c : DeclaredConstraints}
    (h : parseConstraints compiles t field = .ok (some c)) : c.Accepted compiles t := by
  unfold parseConstraints at h
  split at h
  · cases h
  rename_i hkeys
  obtain ⟨⟨⟩, happ, h⟩ := bind_eq_ok.mp h
  obtain ⟨enumValues, henum, h⟩ := bind_eq_ok.mp h
  obtain ⟨patternSource, hpattern, h⟩ := bind_eq_ok.mp h
  obtain ⟨format, hformat, h⟩ := bind_eq_ok.mp h
  obtain ⟨minLength, hmin, h⟩ := bind_eq_ok.mp h
  obtain ⟨maxLength, hmax, h⟩ := bind_eq_ok.mp h
  obtain ⟨minimum, hleast, h⟩ := bind_eq_ok.mp h
  obtain ⟨maximum, hmost, h⟩ := bind_eq_ok.mp h
  obtain ⟨⟨⟩, horder, h⟩ := bind_eq_ok.mp h
  cases h
  obtain ⟨henum, henumType⟩ := parseEnumConstraint_eq_ok henum
  obtain ⟨hpattern, hsource⟩ := parsePatternConstraint_eq_ok hpattern
  have hformat := parseFormatConstraint_eq_ok hformat
  have hmin := parseLengthConstraint_eq_ok hmin
  have hmax := parseLengthConstraint_eq_ok hmax
  obtain ⟨hleast, hleastType⟩ := parseBound_eq_ok hleast
  obtain ⟨hmost, hmostType⟩ := parseBound_eq_ok hmost
  have hpresent : DeclaredConstraints.isPresent
      { enumValues, patternSource, format, minLength, maxLength, minimum, maximum } := by
    rw [Bool.not_eq_false, hasConstraintKeys, hasAnyKey] at hkeys
    rw [DeclaredConstraints.isPresent, henum, hpattern, hformat, hmin, hmax, hleast, hmost]
    simpa [constraintKeys, or_assoc] using hkeys
  obtain happ | ⟨htype, hp, hf, hl, hm⟩ | ⟨htype, hp, hf⟩ :=
    validateConstraintApplicability_eq_ok happ
  · exact ⟨hpresent, .inl happ, henumType, fun p hp => ⟨happ, hsource p hp⟩, fun _ => happ,
      fun _ => .inl happ, hleastType, hmostType, horder⟩
  · rw [← hpattern] at hp
    rw [← hformat] at hf
    rw [← hmin] at hl
    rw [← hmax] at hm
    refine ⟨hpresent, by tauto, henumType, fun p hmem => ?_, fun hsome => ?_, fun hsome => ?_,
      hleastType, hmostType, horder⟩
    · have hsome : patternSource = some p := hmem
      simp [hsome] at hp
    · exact absurd hsome (by simp [hf])
    · exact absurd hsome (by simp [hl, hm])
  · rw [← hpattern] at hp
    rw [← hformat] at hf
    refine ⟨hpresent, by tauto, henumType, fun p hmem => ?_, fun hsome => ?_,
      fun _ => .inr htype, hleastType, hmostType, horder⟩
    · have hsome : patternSource = some p := hmem
      simp [hsome] at hp
    · exact absurd hsome (by simp [hf])

end Constraints
end SchemaParse

/-- What holds of a field that was read where the names of the list are required. -/
structure DeclaredField.Accepted (compiles : Bytes → Bool) (required : List String)
    (f : DeclaredField) : Prop where
  declaredType : f.declaredType ∈ fieldTypes.map Prod.snd
  required : f.required = required.contains f.name
  itemsType : if f.declaredType = .array then
    ∃ t ∈ primitiveTypes.map Prod.snd, f.itemsType = some t else f.itemsType = none
  indexed : f.declaredType = .bytes → f.indexed = false
  storageType : f.storageType = if f.references.isSome then .docId else f.declaredType
  references : ∀ target ∈ f.references, f.declaredType = .text ∧ isValidTableIdentifier target = true
  onDelete : (f.references.isSome → f.onDelete.isSome) ∧ (f.onDelete = some .setNull → f.required = false)
  metadata : ∀ value ∈ f.metadata, (∃ entries, value = .object entries) ∧ hasUniqueKeys value = true
  constraints : ∀ c ∈ f.constraints, c.Accepted compiles f.declaredType

namespace SchemaParse

variable {compiles : Bytes → Bool} {field : JsonObject}

section Fields

variable {required : Bool}

lemma orMissing_eq_ok {α : Type} {e : SchemaError} {x : Option α} {a : α} :
    orMissing e x = .ok a ↔ x = some a := by
  cases x with
  | none => simp [orMissing]
  | some b => simp [orMissing]

lemma mem_map_of_lookup {α : Type} {entries : List (String × α)} {key : String} {a : α}
    (h : entries.lookup key = some a) : a ∈ entries.map Prod.snd := by
  induction entries with
  | nil => cases h
  | cons e rest ih =>
    rw [lookup_cons] at h
    split at h
    · cases h
      exact mem_cons_self
    · exact mem_cons_of_mem _ (ih h)

lemma extractArrayItemsType_eq_ok {t : FieldType} {items : Option FieldType}
    (h : extractArrayItemsType t field = .ok items) :
    if t = .array then ∃ u ∈ primitiveTypes.map Prod.snd, items = some u else items = none := by
  unfold extractArrayItemsType at h
  by_cases ht : t = .array
  · rw [if_neg (not_not.mpr ht)] at h
    obtain ⟨value, -, h⟩ := bind_eq_ok.mp h
    obtain ⟨name, -, h⟩ := bind_eq_ok.mp h
    obtain ⟨u, hu, h⟩ := bind_eq_ok.mp h
    cases h
    rw [if_pos ht]
    exact ⟨u, mem_map_of_lookup (orMissing_eq_ok.mp hu), rfl⟩
  · rw [if_pos ht] at h
    cases h
    rw [if_neg ht]

lemma extractReferences_eq_ok {references : Option String} (h : extractReferences field = .ok references) :
    ∀ target ∈ references, isValidTableIdentifier target = true := by
  obtain ⟨value, -, h⟩ := bind_eq_ok.mp h
  cases value with
  | none => cases h; simp
  | some target =>
    dsimp only at h
    split_ifs at h with hvalid
    cases h
    rintro _ ⟨⟩
    exact hvalid

lemma extractOnDelete_eq_ok {hasReferences : Bool} {onDelete : Option OnDelete}
    (h : extractOnDelete field hasReferences required = .ok onDelete) :
    (hasReferences → onDelete.isSome) ∧ (onDelete = some .setNull → required = false) := by
  obtain ⟨value, -, h⟩ := bind_eq_ok.mp h
  cases value with
  | none =>
    cases hasReferences with
    | true => cases h; simp
    | false => cases h; simp
  | some name =>
    obtain ⟨parsed, -, h⟩ := bind_eq_ok.mp h
    split at h
    · cases h
    rename_i hnull
    cases h
    refine ⟨fun _ => rfl, fun heq => ?_⟩
    rw [Option.some.inj heq] at hnull
    simpa using hnull

lemma hasUniqueKeys_of_lookup {key : String} {value : JsonValue}
    (hunique : entriesHaveUniqueKeys field = true) (h : field.lookup key = some value) :
    hasUniqueKeys value = true := by
  induction field with
  | nil => cases h
  | cons e rest ih =>
    obtain ⟨name, item⟩ := e
    rw [entriesHaveUniqueKeys, Bool.and_eq_true] at hunique
    rw [lookup_cons] at h
    split at h
    · cases h
      exact hunique.1
    · exact ih hunique.2 h

lemma getMetadata_eq_ok {metadata : Option JsonValue} (h : getMetadata field = .ok metadata) :
    metadata = field.lookup "metadata" ∧ ∀ value ∈ metadata, ∃ entries, value = .object entries := by
  unfold getMetadata at h
  split at h
  · rename_i hlookup
    cases h; simp [hlookup]
  · rename_i entries hlookup
    cases h; simp [hlookup]
  · cases h

lemma getMetadata_accepted {metadata : Option JsonValue}
    (hunique : entriesHaveUniqueKeys field = true) (h : getMetadata field = .ok metadata) :
    ∀ value ∈ metadata, (∃ entries, value = .object entries) ∧ hasUniqueKeys value = true := by
  obtain ⟨hlookup, hobject⟩ := getMetadata_eq_ok h
  exact fun value hvalue =>
    ⟨hobject value hvalue, hasUniqueKeys_of_lookup hunique (hlookup ▸ hvalue)⟩

lemma emitField_eq_ok {ctx : StoreFieldContext} {name type : String}
    {fields out : List DeclaredField} (h : emitField compiles ctx name type field fields = .ok out) :
    fields.length < maxDeclaredFields ∧ ∃ f : DeclaredField, out = fields ++ [f] ∧ f.name = name ∧
        (entriesHaveUniqueKeys field = true → f.Accepted compiles ctx.required) := by
  obtain ⟨declaredType, htype, h⟩ := bind_eq_ok.mp h
  by_cases hcount : maxDeclaredFields ≤ fields.length
  · rw [if_pos hcount] at h
    cases h
  rw [if_neg hcount] at h
  obtain ⟨itemsType, hitems, h⟩ := bind_eq_ok.mp h
  obtain ⟨indexed, hindexed, h⟩ := bind_eq_ok.mp h
  by_cases hbytes : declaredType = .bytes ∧ indexed.getD false = true
  · rw [if_pos hbytes] at h
    cases h
  rw [if_neg hbytes] at h
  obtain ⟨references, hreferences, h⟩ := bind_eq_ok.mp h
  by_cases htext : references.isSome = true ∧ declaredType ≠ .text
  · rw [if_pos htext] at h
    cases h
  rw [if_neg htext] at h
  obtain ⟨onDelete, hdelete, h⟩ := bind_eq_ok.mp h
  obtain ⟨metadata, hmetadata, h⟩ := bind_eq_ok.mp h
  obtain ⟨constraints, hconstraints, h⟩ := bind_eq_ok.mp h
  cases h
  refine ⟨not_le.mp hcount, _, rfl, rfl, fun hunique =>
    { declaredType := mem_map_of_lookup (orMissing_eq_ok.mp htype)
      required := rfl
      itemsType := extractArrayItemsType_eq_ok hitems
      indexed := fun hb => Bool.eq_false_of_not_eq_true fun hi => hbytes ⟨hb, hi⟩
      storageType := rfl
      references := fun target htarget => ?_
      onDelete := extractOnDelete_eq_ok hdelete
      metadata := getMetadata_accepted hunique hmetadata
      constraints := fun c hc => ?_ }⟩
  · have hsome : references = some target := htarget
    refine ⟨by simpa [hsome] using htext, extractReferences_eq_ok hreferences target htarget⟩
  · have hsome : constraints = some c := hc
    exact parseConstraints_eq_ok (hsome ▸ hconstraints)

end Fields
end SchemaParse
end ZyncBase
