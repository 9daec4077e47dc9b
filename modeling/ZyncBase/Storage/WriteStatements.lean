import ZyncBase.Sql.Written
import ZyncBase.Storage.WriteOps

/-! The statements of the storage engine as they are run: the text, and the bindings that a second
pass makes by number. -/
namespace ZyncBase

open Placeholders SqlBuf

/-- A statement with the values that are bound, each under the number of its placeholder. -/
structure BoundStatement where
  text : String
  bound : List (ℕ × Value)

/-- The bindings made so far, and the number of the next one. -/
structure Binder where
  bindIdx : ℕ := 1
  bound : List (ℕ × Value) := []

namespace Binder

def bindValue (b : Binder) (v : Value) : Binder := ⟨b.bindIdx + 1, b.bound ++ [(b.bindIdx, v)]⟩

/-- Binds two placeholders and leaves it to the caller to go on to the third. -/
def bindDocIdNamespace (b : Binder) (id : DocId) (namespaceId : ℤ) : Binder :=
  { b with bound := b.bound ++ [(b.bindIdx, .scalar (.docId id)),
      (b.bindIdx + 1, .scalar (.integer namespaceId))] }

def advance (b : Binder) (n : ℕ) : Binder := { b with bindIdx := b.bindIdx + n }

def bindValueSlice (b : Binder) : List Value → Binder
  | [] => b
  | v :: vs => bindValueSlice (b.bindValue v) vs

end Binder

section Rendering

variable (t : Table)

def Table.nameQuoted : String := "\"" ++ t.name ++ "\""

def appendItems (isFirst : Bool) (b : SqlBuf) : List String → SqlBuf
  | [] => b
  | item :: items =>
    appendItems false ((if isFirst then b else b.appendSlice ", ").appendSlice item) items

def appendInsertColumnList (b : SqlBuf) (fields : List Field) : SqlBuf :=
  let b := ((b.appendSlice "INSERT INTO ").appendSlice t.nameQuoted).appendSlice " ("
  appendItems true b (["\"id\"", "\"namespace_id\"", "\"owner_id\""] ++
    (if t.isUsersTable then ["\"external_id\""] else []) ++ fields.map Field.nameQuoted ++
    ["\"created_at\"", "\"updated_at\""])

def appendFieldPlaceholders (b : SqlBuf) : List Field → SqlBuf
  | [] => b
  | f :: fs =>
    appendFieldPlaceholders (b.appendSlice (if f.storageType = .array then ", jsonb(?)" else ", ?")) fs

def appendValuePlaceholders (b : SqlBuf) (fields : List Field) : SqlBuf :=
  let b := b.appendSlice ") VALUES (?, ?, ?"
  let b := if t.isUsersTable then b.appendSlice ", ?" else b
  (appendFieldPlaceholders b fields).appendSlice ", ?, ?)"

def appendOnConflictUpdateSet (b : SqlBuf) (fields : List Field) : SqlBuf :=
  let b := ((b.appendSlice " ON CONFLICT(").appendSlice "\"id\"").appendSlice ") DO UPDATE SET "
  appendItems true b ((fields.map fun f => f.nameQuoted ++ " = excluded." ++ f.nameQuoted) ++
    ["\"updated_at\" = excluded.\"updated_at\""])

def appendGuard (b : SqlBuf) (guardSql : Option String) : SqlBuf :=
  match guardSql with
  | none => b
  | some fragment => b.appendSlice fragment

def appendUpsertWhereClause (b : SqlBuf) (guardSql : Option String) : SqlBuf :=
  let b := ((b.appendSlice " WHERE ").appendSlice t.nameQuoted).appendSlice "."
  let b := ((b.appendSlice "\"namespace_id\"").appendSlice " = excluded.").appendSlice "\"namespace_id\""
  appendGuard b guardSql

def appendReturning (b : SqlBuf) : SqlBuf :=
  (b.appendSlice " RETURNING ").appendSlice (", ".intercalate (t.fields.map projectedColumnSql))

def buildUpsertDocumentSql (columns : List ColumnValue) (guardSql : Option String) :
    Except StorageError SqlBuf := do
  let fields ← columns.mapM (getColumnField t)
  let b := appendValuePlaceholders t (appendInsertColumnList t {} fields) fields
  return appendReturning t (appendUpsertWhereClause t (appendOnConflictUpdateSet b fields) guardSql)

/-- The assignments of an update; returns whether there were none. -/
def appendUpdateColumns (isFirst : Bool) (b : SqlBuf) : List Field → Bool × SqlBuf
  | [] => (isFirst, b)
  | f :: fs =>
    let b := if isFirst then b else b.appendSlice ", "
    let b := (b.appendSlice f.nameQuoted).appendSlice " = "
    appendUpdateColumns false (b.appendSlice (if f.storageType = .array then "jsonb(?)" else "?")) fs

def appendUpdateColumnSet (b : SqlBuf) (fields : List Field) : SqlBuf :=
  let (isFirst, b) := appendUpdateColumns true b fields
  let b := if isFirst then b else b.appendSlice ", "
  (b.appendSlice "\"updated_at\"").appendSlice " = ?"

def appendDocIdNamespaceWhere (b : SqlBuf) (guardSql : Option String) : SqlBuf :=
  let b := ((b.appendSlice " WHERE ").appendSlice "\"id\"").appendSlice "=? AND "
  appendGuard ((b.appendSlice "\"namespace_id\"").appendSlice "=?") guardSql

def buildUpdateDocumentSql (columns : List ColumnValue) (guardSql : Option String) :
    Except StorageError SqlBuf := do
  let fields ← columns.mapM (getColumnField t)
  let b := ((SqlBuf.appendSlice {} "UPDATE ").appendSlice t.nameQuoted).appendSlice " SET "
  return appendReturning t (appendDocIdNamespaceWhere (appendUpdateColumnSet b fields) guardSql)

def deleteDocumentSqlPrefix : SqlBuf :=
  appendDocIdNamespaceWhere ((SqlBuf.appendSlice {} "DELETE FROM ").appendSlice t.nameQuoted) none

def deleteDocumentSql (guardSql : Option String) : SqlBuf :=
  appendReturning t (appendGuard (deleteDocumentSqlPrefix t) guardSql)

def selectDocumentSql : SqlBuf :=
  appendDocIdNamespaceWhere (SqlBuf.appendSlice {} (selectFromSql t)) none

/-- The rows of a table that refer to a parent. -/
def referentialLookupSql (f : Field) : SqlBuf :=
  let b := ((SqlBuf.appendSlice {} (selectFromSql t)).appendSlice " WHERE ").appendSlice f.nameQuoted
  (b.appendSlice "=? ORDER BY ").appendSlice "\"id\""

def resolveNamespaceSql : String :=
  "INSERT INTO _zync_namespaces (name)\nVALUES (?" ++
    ")\nON CONFLICT(name) DO UPDATE SET name = excluded.name\nRETURNING id"

def resolveUserSql : String :=
  "INSERT INTO \"users\" (\"id\", \"namespace_id\", \"owner_id\", \"external_id\", " ++
    "\"created_at\", \"updated_at\")\nVALUES (?, ?, ?, ?, ?, ?)\nON CONFLICT(\"namespace_id\", " ++
    "\"external_id\") DO UPDATE SET \"external_id\" = excluded.\"external_id\"\nRETURNING \"id\""

/-- The guard as it is appended to a statement, with its values. -/
def renderGuardClause (guardPredicate : Option FilterPredicate) : Except StorageError (Option SqlBuf) :=
  match guardPredicate with
  | none => .ok none
  | some p =>
    if p.isAlwaysTrue then .ok none
    else match appendFilterPredicateSql t (SqlBuf.appendSlice {} " AND (") p with
      | .error e => .error (.filter e)
      | .ok b => .ok (some (b.appendSlice ")"))

end Rendering

section Statements

variable (t : Table) (namespaceId : ℤ)

def Binder.bindGuard (b : Binder) (guard : Option SqlBuf) : Binder :=
  match guard with
  | none => b
  | some rg => b.bindValueSlice rg.values

def upsertStatement (op : UpsertOp) (ownerId : DocId) (createdAt : ℤ) : Except StorageError BoundStatement := do
  let guard ← renderGuardClause t op.guardPredicate
  let sql ← buildUpsertDocumentSql t op.columns (guard.map SqlBuf.text)
  let b := (Binder.bindDocIdNamespace {} op.id namespaceId).advance 2
  let b := b.bindValue (.scalar (.docId ownerId))
  let b := if t.isUsersTable then b.bindValue (.scalar (.text (hexSlice op.id))) else b
  let b := b.bindValueSlice (op.columns.map ColumnValue.value)
  let b := (b.bindValue (.scalar (.integer createdAt))).bindValue (.scalar (.integer createdAt))
  return ⟨sql.text, (b.bindGuard guard).bound⟩

def updateStatement (op : UpdateOp) : Except StorageError BoundStatement := do
  let guard ← renderGuardClause t op.guardPredicate
  let sql ← buildUpdateDocumentSql t op.columns (guard.map SqlBuf.text)
  let b := Binder.bindValueSlice {} (op.columns.map ColumnValue.value)
  let b := b.bindValue (.scalar (.integer op.timestamp))
  let b := (b.bindDocIdNamespace op.id namespaceId).advance 2
  return ⟨sql.text, (b.bindGuard guard).bound⟩

def deleteStatement (op : DeleteOp) : Except StorageError BoundStatement := do
  let guard ← renderGuardClause t op.guardPredicate
  let sql := deleteDocumentSql t (guard.map SqlBuf.text)
  let b := (Binder.bindDocIdNamespace {} op.id namespaceId).advance 2
  return ⟨sql.text, (b.bindGuard guard).bound⟩

def selectDocumentStatement (id : DocId) : BoundStatement :=
  ⟨(selectDocumentSql t).text, (Binder.bindDocIdNamespace {} id namespaceId).bound⟩

def referentialLookupStatement (f : Field) (parentId : DocId) : BoundStatement :=
  ⟨(referentialLookupSql t f).text, (Binder.bindValue {} (.scalar (.docId parentId))).bound⟩

def resolveNamespaceStatement (nspace : Bytes) : BoundStatement :=
  ⟨resolveNamespaceSql, (Binder.bindValue {} (.scalar (.text nspace))).bound⟩

def resolveUserStatement (externalId : Bytes) (newUserId : DocId) (timestamp : ℤ) :
    BoundStatement :=
  let b := Binder.bindValue {} (.scalar (.docId newUserId))
  let b := b.bindValue (.scalar (.integer namespaceId))
  let b := b.bindValue (.scalar (.docId newUserId))
  let b := b.bindValue (.scalar (.text externalId))
  let b := b.bindValue (.scalar (.integer timestamp))
  ⟨resolveUserSql, (b.bindValue (.scalar (.integer timestamp))).bound⟩

def selectQueryStatement (filter : QueryFilter) : Except ReadError BoundStatement := do
  let sql ← buildSelectQuery t namespaceId filter
  return ⟨sql.text, sql.values.mapIdx fun i v => (i + 1, v)⟩

end Statements
end ZyncBase
