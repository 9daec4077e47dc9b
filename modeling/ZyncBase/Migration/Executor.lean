import ZyncBase.Migration.Detector

/-! Execution of a migration plan in one transaction of a connection whose statements may fail. -/
namespace ZyncBase

open Catalog

structure MigrationConfig where
  allowDestructive : Bool := false

structure Version where
  major : ℕ
  minor : ℕ
  patch : ℕ
  deriving DecidableEq, Repr

section Version

/-- One more digit of a `u32`, or an underscore. A negative number has no digit but zero. -/
def pushDigit (negative : Bool) (value : ℕ) (c : UInt8) : Option ℕ :=
  if c = 95 then some value
  else if c < 48 ∨ 57 < c then none
  else
    let digit := c.toNat - 48
    if negative ∧ digit ≠ 0 ∨ 2 ^ 32 ≤ value * 10 + digit then none else some (value * 10 + digit)

/-- `std.fmt.parseInt(u32, text, 10)`. -/
def parseU32 (text : Bytes) : Option ℕ :=
  let (negative, digits) := match text with
    | 43 :: rest => (false, rest)
    | 45 :: rest => (true, rest)
    | _ => (false, text)
  if digits = [] ∨ digits.head? = some 95 ∨ digits.getLast? = some 95 then none
  else digits.foldlM (pushDigit negative) 0

/-- Three numbers with dots between them. -/
def parseVersion (text : Bytes) : Option Version :=
  match text.splitOn 46 with
  | [major, minor, patch] => do
    return { major := ← parseU32 major, minor := ← parseU32 minor, patch := ← parseU32 patch }
  | _ => none

/-- The stored version, if there is one. -/
def getPersistedVersion (db : Db SqlValue) : Except MigrationError (Option Version) :=
  match db.get "schema_meta" with
  | none => .ok none
  | some r =>
    if r.name ≠ "schema_meta" ∨ "version" ∉ r.columnNames then .ok none
    else
      match r.rows with
      | [] => .ok none
      | row :: _ =>
        match row "version" with
        | .text text | .blob text =>
          match parseVersion text with
          | some version => .ok (some version)
          | none => .error .invalidVersion
        | _ => .error .invalidVersion

/-- A version of a higher major number than the stored one is refused. -/
def checkVersion (target : Version) (db : Db SqlValue) : Except MigrationError Unit :=
  match getPersistedVersion db with
  | .error e => .error e
  | .ok none => .ok ()
  | .ok (some persisted) =>
    if persisted.major < target.major then .error .majorVersionBumpNotAllowed else .ok ()

end Version

section Statements

variable (d : Dialect SqlValue) (t : Table)

def backupName : String := t.name ++ "_backup"

/-- The columns of the backup that are copied to the new table. -/
def buildCommonColumns (backupColumns : List String) : List String :=
  backupColumns.filter fun c => isSystemColumn c || t.userFields.any fun f => c = f.name

def copyCommonColumns : Statement SqlValue := fun db =>
  let common := buildCommonColumns t ((tableInfo d db (backupName t)).map Column.name)
  if common = [] then some db else insertSelect d t.name (backupName t) common db

def recreateTable : List (Statement SqlValue) :=
  createTableAs d (backupName t) t.name :: dropTable d t.name :: t.generateDDL d ++
    [copyCommonColumns d t, dropTable d (backupName t)]

/-- Drops the managed indexes that the database has, then creates those of the target. -/
def reconcileManagedIndexes (db : Db SqlValue) : List (Statement SqlValue) :=
  ((indexList d db t.name).filter fun i => isReservedManagedIndexName i.name t.name).map
      (fun i => dropIndex d t.name i.name) ++
    t.managedIndexes.map (t.generateIndexDDL d)

/-- The statements of a change. A column is added without its constraints, which SQLite allows for
new columns only with a default. -/
def applyChange (c : Change) (db : Db SqlValue) : Except MigrationError (List (Statement SqlValue)) :=
  match c.kind with
  | .createTable => .ok (c.table.generateDDL d)
  | .addColumn =>
    match c.field with
    | none => .error .missingFieldInChange
    | some f =>
      .ok [Catalog.addColumn d c.table.name { name := f.name, type := f.storageType.toSqlType }]
  | .changeIndexes => .ok (reconcileManagedIndexes d c.table db)
  | .changeType | .removeColumn | .changeForeignKeys => .ok (recreateTable d c.table)

def schemaMeta : Relation SqlValue :=
  { name := "schema_meta"
    columns := [{ name := "version", type := "TEXT", notNull := true },
      { name := "applied_at", type := "INTEGER", notNull := true }] }

def persistVersion (version : Bytes) (now : ℤ) : List (Statement SqlValue) :=
  [createTableIfNotExists d schemaMeta, deleteRows d "schema_meta",
   insertValues d "schema_meta" [("version", .text version), ("applied_at", .integer now)]]

end Statements

/-- A connection: the database on disk, the one inside an open transaction, whether foreign keys
are enforced, and how many calls were made. -/
structure DbConnection where
  committed : Db SqlValue
  transaction : Option (Db SqlValue) := none
  foreignKeys : Bool := true
  calls : ℕ := 0

abbrev Exec := EStateM MigrationError DbConnection

namespace DbConnection

/-- The database that statements see. -/
def db (c : DbConnection) : Db SqlValue := c.transaction.getD c.committed

/-- Outside a transaction every statement is committed. -/
def write (c : DbConnection) (db : Db SqlValue) : DbConnection :=
  match c.transaction with
  | none => { c with committed := db }
  | some _ => { c with transaction := some db }

end DbConnection

section Executor

variable (d : Dialect SqlValue) (config : MigrationConfig) (faults : ℕ → Bool)

/-- Any call may fail, for want of memory or on the disk, and then has no effect. -/
def attempt : Exec Unit := fun c =>
  if faults c.calls then .error .sqlite { c with calls := c.calls + 1 }
  else .ok () { c with calls := c.calls + 1 }

def exec (s : Statement SqlValue) : Exec Unit := do
  attempt faults
  match s (← get).db with
  | none => throw .sqlite
  | some db => modify fun c => c.write db

def beginTransaction : Exec Unit := do
  attempt faults
  if (← get).transaction.isSome then throw .sqlite
  modify fun c => { c with transaction := some c.committed }

def commit : Exec Unit := do
  attempt faults
  modify fun c => { c with committed := c.db, transaction := none }

def rollback : Exec Unit := do
  attempt faults
  modify fun c => { c with transaction := none }

def foreignKeysEnabled : Exec Bool := do
  attempt faults
  return (← get).foreignKeys

def setForeignKeys (enabled : Bool) : Exec Unit := do
  attempt faults
  modify fun c => if c.transaction.isSome then c else { c with foreignKeys := enabled }

def verifyForeignKeys : Exec Unit := do
  attempt faults
  if ¬ ForeignKeysHold d (← get).db then throw .foreignKeyViolation

/-- `errdefer`: the cleanup runs after an error, and its own error is only logged. -/
def onError (x cleanup : Exec Unit) : Exec Unit := fun c =>
  match x c with
  | .ok a c' => .ok a c'
  | .error e c' => .error e (Outcome.final (cleanup c'))

def runChange (c : Change) : Exec Unit := do
  match applyChange d c (← get).db with
  | .error e => throw e
  | .ok ss => ss.forM (exec faults)

/-- What is done between `BEGIN` and `COMMIT`. -/
def applyPlan (plan : MigrationPlan) (version : Bytes) (now : ℤ) : Exec Unit := do
  plan.changes.forM (runChange d faults)
  (if plan.changes = [] then pure () else verifyForeignKeys d faults)
  (persistVersion d version now).forM (exec faults)

def checkPlan (plan : MigrationPlan) (version : Bytes) : Exec Unit := do
  if plan.isDestructive && !config.allowDestructive then throw .destructiveMigrationNotAllowed
  match parseVersion version with
  | none => throw .invalidVersion
  | some target => do
    attempt faults
    match checkVersion target (← get).db with
    | .error e => throw e
    | .ok () => return ()

def execute (plan : MigrationPlan) (version : Bytes) (now : ℤ) : Exec Unit := do
  checkPlan config faults plan version
  let enabled ← (if plan.changes = [] then pure false else foreignKeysEnabled faults)
  (if enabled then setForeignKeys faults false else pure ())
  onError
    (do
      beginTransaction faults
      onError
        (do
          applyPlan d faults plan version now
          commit faults)
        (rollback faults)
      (if enabled then setForeignKeys faults true else pure ()))
    (if enabled then setForeignKeys faults true else pure ())

end Executor
end ZyncBase
