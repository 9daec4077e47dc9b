import ZyncBase.Typed.Types

/-! The runtime schema: field and table metadata, the system fields every table carries, and the
values a field may hold. -/
namespace ZyncBase

open List

inductive FieldType where
  | text | docId | integer | real | boolean | array | bytes
  deriving DecidableEq, Repr

namespace FieldType

/-- Position in the source enumeration, used to order conditions. -/
def toNat : FieldType → ℕ
  | text => 0
  | docId => 1
  | integer => 2
  | real => 3
  | boolean => 4
  | array => 5
  | bytes => 6

/-- The item types that an array field may declare. -/
def isPrimitive : FieldType → Bool
  | text | integer | real | boolean => true
  | docId | array | bytes => false

/-- The scalars that a field of this storage type holds. Array fields hold no scalar. -/
def accepts : FieldType → ScalarValue → Bool
  | text, .text _ => true
  | docId, .docId _ => true
  | integer, .integer _ => true
  | real, .real _ => true
  | boolean, .boolean _ => true
  | bytes, .binary _ => true
  | _, _ => false

end FieldType

inductive OnDelete where
  | cascade | restrict | setNull
  deriving DecidableEq, Repr

inductive FieldKind where
  | system | user | timestamp
  deriving DecidableEq, Repr

/-- A field of a runtime table. -/
structure Field where
  name : String
  declaredType : FieldType
  storageType : FieldType
  itemsType : Option FieldType := none
  required : Bool := false
  indexed : Bool := false
  references : Option String := none
  onDelete : Option OnDelete := none
  kind : FieldKind := .user
  deriving DecidableEq, Repr

namespace Field

def nameQuoted (f : Field) : String := "\"" ++ f.name ++ "\""

/-- What schema parsing guarantees of a declared field: arrays have a primitive item type,
references are stored as document ids, and a required field is never nulled by a delete. -/
structure WellFormed (f : Field) : Prop where
  storage : f.storageType = if f.references.isSome then .docId else f.declaredType
  declared : f.declaredType ≠ .docId
  reference : f.references.isSome → f.declaredType = .text
  items : f.declaredType = .array → ∃ t, f.itemsType = some t ∧ t.isPrimitive
  noItems : f.declaredType ≠ .array → f.itemsType = none
  setNull : f.onDelete = some .setNull → f.required = false
  kind : f.kind = .user

/-- A field of one primitive type that refers to nothing. -/
abbrev plain (name : String) (type : FieldType) (required : Bool := false) : Field :=
  { name, declaredType := type, storageType := type, required }

lemma plain_wellFormed {name : String} {type : FieldType} {required : Bool}
    (h : type ≠ .docId ∧ type ≠ .array) : (plain name type required).WellFormed :=
  ⟨rfl, h.1, nofun, fun ht => absurd ht h.2, fun _ => rfl, nofun, rfl⟩

/-- A value the field may hold: nil when optional, else a scalar of the storage type or, for an
array field, a strictly increasing list of item scalars. -/
def Accepts (f : Field) : Value → Prop
  | .nil => f.required = false
  | .scalar s => f.storageType.accepts s
  | .array items => f.storageType = .array ∧ (∃ t, f.itemsType = some t ∧ ∀ s ∈ items, t.accepts s) ∧
      SortedSearch.Strict ScalarValue.order items

end Field

def leadingSystemFields : List Field :=
  [{ name := "id", declaredType := .docId, storageType := .docId, required := true,
     indexed := true, kind := .system },
   { name := "namespace_id", declaredType := .integer, storageType := .integer, required := true,
     indexed := true, kind := .system },
   { name := "owner_id", declaredType := .docId, storageType := .docId, required := true,
     indexed := true, kind := .system }]

def trailingSystemFields : List Field :=
  [{ name := "created_at", declaredType := .integer, storageType := .integer, required := true,
     indexed := true, kind := .timestamp },
   { name := "updated_at", declaredType := .integer, storageType := .integer, required := true,
     kind := .timestamp }]

def isSystemColumn (name : String) : Bool :=
  (leadingSystemFields ++ trailingSystemFields).any fun f => f.name = name

def globalNamespaceId : ℤ := 0
def idFieldIndex : ℕ := 0
def namespaceIdFieldIndex : ℕ := 1
def firstUserFieldIndex : ℕ := 3

lemma no_fields_wellFormed : ∀ f ∈ ([] : List Field), f.WellFormed :=
  fun _ h => absurd h not_mem_nil

lemma system_names_nodup :
    ((leadingSystemFields ++ [] ++ trailingSystemFields).map Field.name).Nodup := by decide

/-- A runtime table. Unique constraints index the user fields. -/
structure Table where
  name : String
  userFields : List Field
  namespaced : Bool := true
  index : ℕ := 0
  uniqueConstraints : List (List ℕ) := []
  fields_wellFormed : ∀ f ∈ userFields, f.WellFormed
  names_nodup : ((leadingSystemFields ++ userFields ++ trailingSystemFields).map Field.name).Nodup

namespace Table

def isUsersTable (t : Table) : Bool := t.name == "users"

def fields (t : Table) : List Field := leadingSystemFields ++ t.userFields ++ trailingSystemFields

def fieldIndex (t : Table) (name : String) : Option ℕ :=
  t.fields.findIdx? fun f => f.name == name

def createdAtIndex (t : Table) : ℕ := firstUserFieldIndex + t.userFields.length
@[simp] lemma fields_length (t : Table) : t.fields.length = t.userFields.length + 5 := by
  simp [fields, leadingSystemFields, trailingSystemFields]

def Conforms (t : Table) (r : Record) : Prop :=
  List.Forall₂ (fun f v => f.Accepts v) t.fields r.values

lemma Conforms.length {t : Table} {r : Record} (h : t.Conforms r) :
    r.values.length = t.fields.length := (List.Forall₂.length_eq h).symm

lemma Conforms.accepts {t : Table} {r : Record} (h : t.Conforms r) {i : ℕ} {f : Field}
    {v : Value} (hf : t.fields[i]? = some f) (hv : r.values[i]? = some v) : f.Accepts v := by
  obtain ⟨hi, rfl⟩ := List.getElem?_eq_some_iff.mp hf
  obtain ⟨hj, rfl⟩ := List.getElem?_eq_some_iff.mp hv
  exact List.Forall₂.get h hi hj

lemma items_primitive {t : Table} {f : Field} (hf : f ∈ t.fields)
    (h : f.storageType = .array) : ∃ i, f.itemsType = some i ∧ i.isPrimitive := by
  simp only [fields, mem_append] at hf
  rcases hf with (hf | hf) | hf
  · simp only [leadingSystemFields, mem_cons, not_mem_nil, or_false] at hf
    rcases hf with rfl | rfl | rfl <;> simp at h
  · have hw := t.fields_wellFormed f hf
    refine hw.items ?_
    rw [hw.storage] at h
    split_ifs at h
    exact h
  · simp only [trailingSystemFields, mem_cons, not_mem_nil, or_false] at hf
    rcases hf with rfl | rfl <;> simp at h

end Table

/-- The tables of a schema, numbered by position, with references that resolve. -/
structure Schema where
  tables : List Table
  indexed : ∀ (i : ℕ) (t : Table), tables[i]? = some t → t.index = i
  names_nodup : (tables.map Table.name).Nodup
  references_resolve : ∀ t ∈ tables, ∀ f ∈ t.userFields, ∀ r, f.references = some r → ∃ u ∈ tables, u.name = r

namespace Schema

def tableByIndex (s : Schema) (index : ℕ) : Option Table := s.tables[index]?

def table (s : Schema) (name : String) : Option Table := s.tables.find? fun t => t.name == name

end Schema

/-- A schema of one table without references. -/
def soloSchema (t : Table) (hindex : t.index = 0) (href : ∀ f ∈ t.userFields, f.references = none) :
    Schema where
  tables := [t]
  indexed := by
    intro i u h
    cases i with
    | zero => cases h; exact hindex
    | succ i => simp at h
  names_nodup := nodup_singleton t.name
  references_resolve := by
    intro u hu f hf name hname
    rw [mem_singleton.mp hu] at hf
    rw [href f hf] at hname
    cases hname

end ZyncBase
