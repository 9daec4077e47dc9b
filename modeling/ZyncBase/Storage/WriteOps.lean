import ZyncBase.Sql.FilterSql
import ZyncBase.Storage.Database

/-! The write operations of the queue and the statements they become: what each statement does to
the stored rows, and SQLite's freedom to refuse it. -/
namespace ZyncBase

open AssocMap

inductive StorageError where
  | constraintViolation | uniqueConstraintViolation | diskFull | databaseCorrupted | databaseLocked
  | invalidOperation | unknownTable | unknownField | permissionDenied
  | foreignKeyReconciliationFailed | sqliteError
  | filter (e : SqlError)
  deriving DecidableEq, Repr

lemma first_user_column : firstUserFieldIndex ≤ 3 := Nat.le_refl 3

/-- A column to write. Only user fields are ever written by clients. -/
structure ColumnValue where
  index : ℕ
  value : Value
  user : firstUserFieldIndex ≤ index
  deriving DecidableEq, Repr

/-- Who is told about the outcome of a write. -/
structure WriteAck where
  connId : ℕ
  writeId : ℕ
  deriving DecidableEq, Repr

structure UpsertOp where
  tableIndex : ℕ
  id : DocId
  namespaceId : ℤ
  ownerDocId : DocId
  columns : List ColumnValue
  guardPredicate : Option FilterPredicate := none
  timestamp : ℤ
  ack : Option WriteAck := none

structure UpdateOp where
  tableIndex : ℕ
  id : DocId
  namespaceId : ℤ
  columns : List ColumnValue
  guardPredicate : Option FilterPredicate := none
  timestamp : ℤ
  ack : Option WriteAck := none

structure DeleteOp where
  tableIndex : ℕ
  id : DocId
  namespaceId : ℤ
  guardPredicate : Option FilterPredicate := none
  ack : Option WriteAck := none

/-- The operations on one row; batches are made of these. -/
inductive RowOp where
  | upsert (op : UpsertOp)
  | update (op : UpdateOp)
  | delete (op : DeleteOp)

structure ResolveSessionOp where
  nspace : Bytes
  externalUserId : Bytes
  timestamp : ℤ

namespace RowOp

/-- The row that the operation addresses. -/
def target : RowOp → RowKey
  | upsert op => ⟨op.tableIndex, op.id⟩
  | update op => ⟨op.tableIndex, op.id⟩
  | delete op => ⟨op.tableIndex, op.id⟩

def ack : RowOp → Option WriteAck
  | upsert op => op.ack
  | update op => op.ack
  | delete op => op.ack

end RowOp

namespace Row

/-- What `UPDATE` sets: of several values for one column SQLite takes the last. -/
def setColumns (r : Row) (columns : List ColumnValue) : Row :=
  { r with
    fields := columns.foldl (fun fs c => fs.set (c.index - firstUserFieldIndex) c.value) r.fields }

/-- What `INSERT` stores, also through `excluded`: of several values for one column SQLite takes the
first. -/
def insertColumns (r : Row) (columns : List ColumnValue) : Row := r.setColumns columns.reverse

variable (r : Row) (columns : List ColumnValue)

@[simp] lemma setColumns_namespaceId : (r.setColumns columns).namespaceId = r.namespaceId := rfl

@[simp] lemma setColumns_externalId : (r.setColumns columns).externalId = r.externalId := rfl

@[simp] lemma insertColumns_namespaceId : (r.insertColumns columns).namespaceId = r.namespaceId := rfl

@[simp] lemma insertColumns_externalId : (r.insertColumns columns).externalId = r.externalId := rfl

end Row

/-- A statement as SQLite is asked to execute it. -/
inductive Statement where
  | select (key : RowKey)
  | upsert (key : RowKey) (candidate : Row) (columns : List ColumnValue)
  | update (key : RowKey) (namespaceId : ℤ) (columns : List ColumnValue) (updatedAt : ℤ)
  | delete (key : RowKey) (namespaceId : ℤ)
  | resolveNamespace (name : Bytes)
  | resolveUser (key : RowKey) (candidate : Row)
  | commit

/-- What the statements leave to SQLite: the encodings in comparisons, and which statements fail on
which rows, by constraints, foreign keys or I/O. A statement that fails changes no row. -/
structure Sqlite where
  enc : Encodings
  error : Database → Statement → Option StorageError

/-- The guard as an additional conjunct of the statement; a trivial guard is left out. -/
def renderAndClause (t : Table) (guardPredicate : Option FilterPredicate) :
    Except StorageError (Option SqlWhere) :=
  match guardPredicate with
  | none => .ok none
  | some p =>
    if p.isAlwaysTrue then .ok none
    else match filterWhere t p with
      | .error e => .error (.filter e)
      | .ok w => .ok (some w)

def guardSelects (enc : Encodings) (t : Table) (guard : Option SqlWhere) (r : Record) : Bool :=
  guard.all fun w => w.selects enc (storedRow t r)

def getColumnField (t : Table) (c : ColumnValue) : Except StorageError Field :=
  match t.fields[c.index]? with
  | none => .error .unknownField
  | some f => .ok f

def checkColumns (t : Table) : List ColumnValue → Except StorageError Unit
  | [] => .ok ()
  | c :: cs => do
    let _ ← getColumnField t c
    checkColumns t cs

namespace Database

variable (selects : Record → Bool)

/-- `INSERT .. ON CONFLICT(id) DO UPDATE .. WHERE` the row is in the namespace and the guard
selects it, returning the row written. -/
def upsert (db : Database) (key : RowKey) (candidate : Row) (columns : List ColumnValue) :
    Database × Option Record :=
  match db.row key with
  | none => (db.put key candidate, some (candidate.record key.id))
  | some r =>
    if r.namespaceId = candidate.namespaceId && selects (r.record key.id) then
      let r := { r.insertColumns columns with updatedAt := candidate.updatedAt }
      (db.put key r, some (r.record key.id))
    else (db, none)

def update (db : Database) (key : RowKey) (namespaceId : ℤ) (columns : List ColumnValue)
    (updatedAt : ℤ) : Database × Option Record :=
  match db.row key with
  | none => (db, none)
  | some r =>
    if r.namespaceId = namespaceId && selects (r.record key.id) then
      let r := { r.setColumns columns with updatedAt }
      (db.put key r, some (r.record key.id))
    else (db, none)

/-- `DELETE` with the actions of the foreign keys, returning the row deleted. -/
def delete (s : Schema) (db : Database) (key : RowKey) (namespaceId : ℤ) : Database × Option Record :=
  match db.row key with
  | none => (db, none)
  | some r =>
    if r.namespaceId = namespaceId && selects (r.record key.id) then
      (db.deleteCascading s key, some (r.record key.id))
    else (db, none)

end Database

def Database.userRow (db : Database) (tableIndex : ℕ) (namespaceId : ℤ) (externalId : Bytes) : Option RowKey :=
  (db.rows.find? fun e => e.1.tableIndex = tableIndex && e.2.namespaceId = namespaceId &&
    e.2.externalId = some externalId).map Prod.fst

end ZyncBase
