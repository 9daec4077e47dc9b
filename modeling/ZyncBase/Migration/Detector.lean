import ZyncBase.Lib.Catalog
import ZyncBase.Lib.Outcome
import ZyncBase.Sql.Value

/-! The tables and indexes that the generated DDL creates for a schema, and the changes that bring a
database to a target schema. -/
namespace ZyncBase

open Catalog

/-- SQLite compares names without regard to the case of ASCII letters. -/
def foldName (name : String) : String := String.ofList (name.toList.map Char.toLower)

/-- How SQLite converts a value to the affinity of a column type, and how long a value is. What is
converted stays converted, only null is converted to null, and the type `BLOB` converts nothing. -/
structure Affinity where
  convert : String → SqlValue → SqlValue
  length : SqlValue → Option ℕ
  convert_eq_null : ∀ type v, convert type v = .null ↔ v = .null
  convert_convert : ∀ type v, convert type (convert type v) = convert type v
  convert_blob : ∀ v, convert "BLOB" v = v
  length_null : length .null = none

@[simp] lemma Affinity.convert_null (a : Affinity) (type : String) :
    a.convert type .null = .null := (a.convert_eq_null type .null).mpr rfl

/-- SQLite keeps the names that start with `sqlite_`. -/
def sqlite (a : Affinity) : Dialect SqlValue :=
  { fold := foldName, reserved := fun name => "sqlite_".toList <+: (foldName name).toList,
    null := .null, convert := a.convert, length := a.length }

namespace FieldType

def toSqlType : FieldType → String
  | text => "TEXT"
  | docId => "BLOB"
  | integer => "INTEGER"
  | real => "REAL"
  | boolean => "INTEGER"
  | array => "BLOB"
  | bytes => "BLOB"

end FieldType

namespace OnDelete

/-- The action that `PRAGMA foreign_key_list` reports. -/
def action : OnDelete → String
  | cascade => "CASCADE"
  | restrict => "RESTRICT"
  | setNull => "SET NULL"

end OnDelete

namespace Field

def needsLengthCheck (f : Field) : Bool := f.storageType = .docId

def foreignKey (f : Field) : Option ForeignKey :=
  f.references.map fun reference =>
    { columns := [(f.name, some "id")], parent := reference, onUpdate := "NO ACTION",
      onDelete := (f.onDelete.getD .restrict).action, matching := "NONE" }

def column (f : Field) : Column :=
  { name := f.name, type := f.storageType.toSqlType, notNull := f.required,
    length := if f.needsLengthCheck then some 16 else none }

end Field

def managedIndexName (unique : Bool) (table kind : String) (detail : Option String) : String :=
  (if unique then "uidx__" else "idx__") ++ table ++ "__" ++ kind ++
    match detail with
    | some value => "__" ++ value
    | none => ""

/-- The indexes that the schema keeps on a table. Fields and constraints are given by position. -/
inductive ManagedIndex where
  | namespaceId
  | owner
  | createdAt
  | usersIdentity
  | field (i : ℕ)
  | unique (i : ℕ)
  deriving DecidableEq, Repr

namespace Table

def userFieldName (t : Table) (i : ℕ) : String := (t.userFields[i]?.map Field.name).getD ""

def managedIndexes (t : Table) : List ManagedIndex :=
  [.namespaceId, .owner, .createdAt] ++ (if t.isUsersTable then [.usersIdentity] else []) ++
    (t.userFields.zipIdx.filterMap fun (f, i) =>
      if f.indexed || f.references.isSome then some (.field i) else none) ++
    t.uniqueConstraints.zipIdx.map fun (_, i) => .unique i

end Table

namespace ManagedIndex

def isUnique : ManagedIndex → Bool
  | createdAt | usersIdentity | unique _ => true
  | _ => false

def name (t : Table) : ManagedIndex → String
  | namespaceId => managedIndexName false t.name "namespace" none
  | owner => managedIndexName false t.name "owner" none
  | createdAt => managedIndexName true t.name "created_at" none
  | usersIdentity => managedIndexName true t.name "identity" none
  | field i => managedIndexName false t.name "field" (some (t.userFieldName i))
  | unique i => managedIndexName true t.name "constraint" (some (toString i))

def columns (t : Table) : ManagedIndex → List String
  | namespaceId => ["namespace_id"]
  | owner => ["owner_id"]
  | createdAt => ["created_at"]
  | usersIdentity => ["namespace_id", "external_id"]
  | field i => [t.userFieldName i]
  | unique i => "namespace_id" :: (t.uniqueConstraints[i]?.getD []).map t.userFieldName

/-- The index that its statement creates. -/
def toIndex (t : Table) (m : ManagedIndex) : Index :=
  { name := m.name t, unique := m.isUnique, columns := (m.columns t).map some }

end ManagedIndex

namespace Table

variable {V : Type*}

def fixedLeadingColumns (t : Table) : List Column :=
  [{ name := "id", type := "BLOB", notNull := true, length := some 16 },
   { name := "namespace_id", type := "INTEGER", notNull := true },
   { name := "owner_id", type := "BLOB", notNull := true, length := some 16 }] ++
    if t.isUsersTable then [{ name := "external_id", type := "TEXT", notNull := true }] else []

def fixedTrailingColumns : List Column :=
  [{ name := "created_at", type := "INTEGER", notNull := true },
   { name := "updated_at", type := "INTEGER", notNull := true }]

def columns (t : Table) : List Column :=
  t.fixedLeadingColumns ++ t.userFields.map Field.column ++ fixedTrailingColumns

/-- The table that `CREATE TABLE` makes. -/
def created (t : Table) : Relation V :=
  { name := t.name, columns := t.columns, primaryKey := ["id"],
    foreignKeys := t.userFields.filterMap Field.foreignKey }

def built (t : Table) (rows : List (String → V)) : Relation V :=
  { (t.created : Relation V) with indexes := t.managedIndexes.map (ManagedIndex.toIndex t), rows }

variable [DecidableEq V] (d : Dialect V)

def generateIndexDDL (t : Table) (m : ManagedIndex) : Statement V := createIndex d t.name (m.toIndex t)

def generateDDL (t : Table) : List (Statement V) :=
  createTable d t.created :: t.managedIndexes.map (generateIndexDDL d t)

end Table

inductive MigrationError where
  | sqlite
  | columnNotFoundInCurrentSchema
  | destructiveMigrationNotAllowed
  | invalidVersion
  | majorVersionBumpNotAllowed
  | missingFieldInChange
  | missingForeignKeysPragma
  | foreignKeyViolation
  deriving DecidableEq, Repr

inductive ChangeKind where
  | createTable | addColumn | changeType | removeColumn | changeForeignKeys | changeIndexes
  deriving DecidableEq, Repr

def ChangeKind.rebuilds : ChangeKind → Bool
  | changeType | removeColumn | changeForeignKeys => true
  | _ => false

structure Change where
  kind : ChangeKind
  table : Table
  field : Option Field

structure MigrationPlan where
  changes : List Change
  isDestructive : Bool

def typesMatch (target : FieldType) (dbType : String) : Bool := target.toSqlType = dbType

def isManagedColumn (t : Table) (name : String) : Bool :=
  isSystemColumn name || t.isUsersTable && name = "external_id"

/-- Keywords that SQLite does not read as a name where one is not quoted. -/
def reservedWords : List String :=
  ["add", "all", "alter", "and", "as", "autoincrement", "between", "case", "check", "collate",
   "commit", "constraint", "create", "deferrable", "distinct", "drop", "else", "escape", "except",
   "exists", "foreign", "from", "group", "having", "in", "index", "insert", "intersect", "into",
   "is", "isnull", "join", "limit", "not", "nothing", "notnull", "null", "or", "order", "primary",
   "references", "returning", "select", "set", "table", "then", "to", "transaction", "union",
   "unique", "update", "using", "values", "when", "where"]

section ForeignKeys

def expectedForeignKeyCount (fields : List Field) : ℕ :=
  fields.countP fun f => f.references.isSome

def foreignKeyRowMatches (f : Field) (row : ForeignKeyRow) (alreadySeen : Bool) : Bool :=
  match f.references, row.target with
  | some reference, some column =>
    !alreadySeen && row.seq = 0 && f.name = row.source && reference = row.table && column = "id" &&
      row.onUpdate = "NO ACTION" && (f.onDelete.getD .restrict).action = row.onDelete &&
      row.matching = "NONE"
  | _, _ => false

def markForeignKeySeen (row : ForeignKeyRow) : List (Field × Bool) → Option (List (Field × Bool))
  | [] => none
  | (f, seen) :: fields =>
    if foreignKeyRowMatches f row seen then some ((f, true) :: fields)
    else (markForeignKeySeen row fields).map ((f, seen) :: ·)

def allForeignKeysSeen (fields : List (Field × Bool)) : Bool :=
  fields.all fun e => e.1.references.isNone || e.2

def foreignKeysMatch (fields : List Field) (rows : List ForeignKeyRow) : Bool :=
  match rows.foldlM (fun seen row => markForeignKeySeen row seen) (fields.map fun f => (f, false)) with
  | none => false
  | some seen => rows.length = expectedForeignKeyCount fields && allForeignKeysSeen seen

end ForeignKeys

section Indexes

def hasManagedPrefix (indexName tableName start : String) : Bool :=
  (start ++ tableName ++ "__").toList <+: indexName.toList ∧
    (start ++ tableName ++ "__").toList.length < indexName.toList.length

/-- The index name falls among those kept for the table. -/
def isReservedManagedIndexName (indexName tableName : String) : Bool :=
  hasManagedPrefix indexName tableName "idx__" || hasManagedPrefix indexName tableName "uidx__"

/-- Every expected index is there as defined. What is left of the actual ones is not kept for the
table. -/
def managedIndexesMatch (tableName : String) : List Index → List Index → Bool
  | [], actual => actual.all fun i => !isReservedManagedIndexName i.name tableName
  | e :: expected, actual =>
    match actual.find? fun i => i.name = e.name with
    | none => false
    | some i =>
      i.unique = e.unique && !i.partialIndex && i.columns = e.columns &&
        managedIndexesMatch tableName expected (actual.eraseP fun i => i.name = e.name)

end Indexes

/-- The order in which a hash map lists its entries. -/
structure HashOrder where
  order : List Column → List Column
  perm : ∀ columns, (order columns).Perm columns

section Detector

variable {V : Type*} (d : Dialect V) (hash : HashOrder) (current : Schema) (db : Db V) (t : Table)

/-- The columns that the schema does not manage, with whether the table exists. Its name is not
quoted here. -/
def queryExistingColumns : Except MigrationError (List Column × Bool) :=
  if d.fold t.name ∈ reservedWords then .error .sqlite
  else
    let rows := tableInfo d db t.name
    .ok (rows.filter fun c => !isManagedColumn t c.name, !rows.isEmpty)

def hasScheduledRebuild (changes : List Change) : Bool := changes.any fun c => c.kind.rebuilds

def containsDestructiveChange (changes : List Change) : Bool := changes.any fun c => c.kind.rebuilds

def detectColumnChanges (existing : List Column) : List Change :=
  t.userFields.filterMap fun f =>
    if isManagedColumn t f.name then none
    else
      match existing.find? fun c => c.name = f.name with
      | some c =>
        if typesMatch f.storageType c.type then none
        else some { kind := .changeType, table := t, field := some f }
      | none => some { kind := .addColumn, table := t, field := some f }

def detectRemovedColumn (c : Column) : Except MigrationError (List Change) :=
  if t.userFields.any fun f => f.name = c.name then .ok []
  else
    match (current.table t.name).bind fun ct => ct.userFields.find? fun f => f.name = c.name with
    | none => .error .columnNotFoundInCurrentSchema
    | some f => .ok [{ kind := .removeColumn, table := t, field := some f }]

def detectRemovedColumns (existing : List Column) : Except MigrationError (List Change) := do
  let changes ← (hash.order existing).mapM (detectRemovedColumn current t)
  return changes.flatten

def appendTableChanges : Except MigrationError (List Change) := do
  let (existing, tableExists) ← queryExistingColumns d db t
  if !tableExists then return [{ kind := .createTable, table := t, field := none }]
  let removed ← detectRemovedColumns hash current t existing
  let changes := detectColumnChanges t existing ++ removed
  if hasScheduledRebuild changes then return changes
  if !foreignKeysMatch t.userFields (foreignKeyList d db t.name) then
    return changes ++ [{ kind := .changeForeignKeys, table := t, field := none }]
  if !managedIndexesMatch t.name (t.managedIndexes.map (ManagedIndex.toIndex t)) (indexList d db t.name) then
    return changes ++ [{ kind := .changeIndexes, table := t, field := none }]
  return changes

def detectChanges (target : Schema) : Except MigrationError MigrationPlan := do
  let changes ← target.tables.mapM (appendTableChanges d hash current db)
  return { changes := changes.flatten, isDestructive := containsDestructiveChange changes.flatten }

end Detector
end ZyncBase
