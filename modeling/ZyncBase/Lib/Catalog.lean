import Mathlib.Data.List.Nodup
import Mathlib.Logic.Function.Basic
import ZyncBase.Lib.AssocMap

/-! Tables of an SQL database and the statements that change them. Names are compared after folding
and no two tables or indexes share one. A statement that the database refuses has no result. -/
namespace Catalog

open AssocMap Function

/-- What a database product decides: how names are folded and which are kept for itself, how a
column of a declared type converts a value, and how long a value is. -/
structure Dialect (V : Type*) where
  fold : String → String
  reserved : String → Bool
  null : V
  convert : String → V → V
  length : V → Option ℕ

/-- A column with its declared type. `length` is the constant of a `CHECK(length(c) = n)`. -/
structure Column where
  name : String
  type : String
  notNull : Bool := false
  length : Option ℕ := none
  deriving DecidableEq, Repr

/-- A foreign key pairs child columns with columns of the parent, or with its primary key. -/
structure ForeignKey where
  columns : List (String × Option String)
  parent : String
  onUpdate : String
  onDelete : String
  matching : String
  deriving DecidableEq, Repr

/-- An index. A column without a name is an expression. -/
structure Index where
  name : String
  unique : Bool
  partialIndex : Bool := false
  columns : List (Option String)
  deriving DecidableEq, Repr

/-- A table with its rows, which are null outside its columns. -/
structure Relation (V : Type*) where
  name : String
  columns : List Column
  primaryKey : List String := []
  foreignKeys : List ForeignKey := []
  indexes : List Index := []
  rows : List (String → V) := []

/-- The tables of a database by folded name. -/
structure Db (V : Type*) where
  tables : List (String × Relation V)
  distinct : Distinct eqKey tables

variable {V : Type*}

namespace Db

def empty : Db V := ⟨[], List.Pairwise.nil⟩

def get (db : Db V) (key : String) : Option (Relation V) := find eqKey key db.tables

def set (db : Db V) (key : String) (r : Relation V) : Db V :=
  ⟨put eqKey key r db.tables, distinct_put eqKey db.distinct⟩

def erase (db : Db V) (key : String) : Db V :=
  ⟨remove eqKey key db.tables, distinct_remove eqKey db.distinct⟩

lemma get_set (db : Db V) (key key' : String) (r : Relation V) :
    (db.set key r).get key' = if key = key' then some r else db.get key' := by
  rw [Db.get, Db.get, set, find_put]
  simp only [eqKey_iff]

lemma get_erase (db : Db V) (key key' : String) :
    (db.erase key).get key' = if key = key' then none else db.get key' := by
  rw [Db.get, Db.get, erase, find_remove]
  simp only [eqKey_iff]

@[simp] lemma get_set_self (db : Db V) (key : String) (r : Relation V) : (db.set key r).get key = some r := by
  rw [get_set, if_pos rfl]

@[simp] lemma get_erase_self (db : Db V) (key : String) : (db.erase key).get key = none := by
  rw [get_erase, if_pos rfl]

lemma get_set_of_ne {db : Db V} {key key' : String} {r : Relation V} (h : key ≠ key') :
    (db.set key r).get key' = db.get key' := by
  rw [get_set, if_neg h]

lemma get_erase_of_ne {db : Db V} {key key' : String} (h : key ≠ key') :
    (db.erase key).get key' = db.get key' := by
  rw [get_erase, if_neg h]

lemma mem_tables {db : Db V} {key : String} {r : Relation V} : (key, r) ∈ db.tables ↔ db.get key = some r := by
  constructor
  · intro h
    exact find_of_mem eqKey db.distinct h (by simp)
  · intro h
    obtain ⟨key', hk, hm⟩ := mem_of_find eqKey h
    rw [eqKey_iff] at hk
    rwa [← hk]

def taken (d : Dialect V) (db : Db V) (key : String) : Bool :=
  db.tables.any fun e => e.1 = key || e.2.indexes.any fun i => d.fold i.name = key

lemma taken_eq_false {d : Dialect V} {db : Db V} {key : String} : db.taken d key = false ↔ db.get key = none ∧
    ∀ n r, db.get n = some r → ∀ i ∈ r.indexes, d.fold i.name ≠ key := by
  simp only [taken, List.any_eq_false, Bool.or_eq_true, decide_eq_true_eq, List.any_eq_true,
    not_or, not_exists, not_and, Prod.forall, mem_tables]
  constructor
  · intro h
    refine ⟨Option.eq_none_iff_forall_ne_some.mpr fun r hr => (h key r hr).1 rfl, ?_⟩
    exact fun n r hr i hi => (h n r hr).2 i hi
  · rintro ⟨hnone, h⟩ n r hr
    refine ⟨?_, h n r hr⟩
    rintro rfl
    rw [hnone] at hr
    cases hr

end Db

/-- The columns of an index that names all of them and covers every row. -/
def Index.key (i : Index) : Option (List String) :=
  if i.partialIndex then none else i.columns.mapM id

section Constraints

variable [DecidableEq V] (d : Dialect V)

namespace Relation

variable (r : Relation V)

def columnNames : List String := r.columns.map Column.name

/-- The row meets the `NOT NULL` and length constraints. A check of an unknown length passes. -/
def Admits (row : String → V) : Prop :=
  ∀ c ∈ r.columns, (c.notNull = true → row c.name ≠ d.null) ∧ ∀ n ∈ c.length, ∀ m ∈ d.length (row c.name), m = n

instance (row : String → V) : Decidable (r.Admits d row) :=
  inferInstanceAs (Decidable (∀ c ∈ r.columns, _))

/-- No two rows agree on the columns, unless a value there is null. -/
def DistinctOn (key : List String) (rows : List (String → V)) : Prop :=
  rows.Pairwise fun a b => key.map a = key.map b → d.null ∈ key.map a

instance (key : List String) (rows : List (String → V)) : Decidable (DistinctOn d key rows) :=
  inferInstanceAs (Decidable (rows.Pairwise _))

/-- The column lists whose values are unique. Partial indexes and indexes of expressions are left
out: no statement here inserts into a table with one. -/
def uniqueKeys : List (List String) :=
  (if r.primaryKey = [] then [] else [r.primaryKey]) ++ (r.indexes.filter Index.unique).filterMap Index.key

/-- Rows that the table's own constraints allow. -/
structure Valid : Prop where
  admits : ∀ row ∈ r.rows, r.Admits d row
  unique : ∀ key ∈ r.uniqueKeys, DistinctOn d key r.rows

instance : Decidable (r.Valid d) :=
  decidable_of_iff ((∀ row ∈ r.rows, r.Admits d row) ∧ ∀ key ∈ r.uniqueKeys, DistinctOn d key r.rows)
    ⟨fun h => ⟨h.1, h.2⟩, fun h => ⟨h.admits, h.unique⟩⟩

end Relation

end Constraints

section Pragmas

variable (d : Dialect V) (db : Db V)

def tableInfo (table : String) : List Column :=
  ((db.get (d.fold table)).map Relation.columns).getD []

/-- A row of `PRAGMA foreign_key_list`. -/
structure ForeignKeyRow where
  seq : ℕ
  table : String
  source : String
  target : Option String
  onUpdate : String
  onDelete : String
  matching : String
  deriving DecidableEq, Repr

def ForeignKey.listed (k : ForeignKey) : List ForeignKeyRow :=
  k.columns.zipIdx.map fun (c, i) =>
    { seq := i, table := k.parent, source := c.1, target := c.2, onUpdate := k.onUpdate,
      onDelete := k.onDelete, matching := k.matching }

def foreignKeyList (table : String) : List ForeignKeyRow :=
  ((db.get (d.fold table)).map fun r => r.foreignKeys.reverse.flatMap ForeignKey.listed).getD []

/-- `PRAGMA index_list`, without the indexes that SQLite keeps for constraints. -/
def indexList (table : String) : List Index :=
  ((db.get (d.fold table)).map Relation.indexes).getD []

end Pragmas

/-- A statement changes the database or is refused. -/
abbrev Statement (V : Type*) := Db V → Option (Db V)

section Statements

variable (d : Dialect V)

def createTable (r : Relation V) : Statement V := fun db =>
  if d.reserved r.name ∨ db.taken d (d.fold r.name) ∨ ¬ (r.columnNames.map d.fold).Nodup then none
  else some (db.set (d.fold r.name) r)

def createTableIfNotExists (r : Relation V) : Statement V := fun db =>
  if (db.get (d.fold r.name)).isSome then some db else createTable d r db

/-- `CREATE TABLE AS SELECT *` keeps the columns and rows, and no constraint. -/
def createTableAs (name source : String) : Statement V := fun db => do
  let r ← db.get (d.fold source)
  createTable d
    { name, columns := r.columns.map fun c => { name := c.name, type := c.type }, rows := r.rows } db

/-- `DROP TABLE` while foreign keys are not enforced. -/
def dropTable (name : String) : Statement V := fun db => do
  let _ ← db.get (d.fold name)
  some (db.erase (d.fold name))

/-- `ALTER TABLE ADD COLUMN` of a column without a default. -/
def addColumn (table : String) (c : Column) : Statement V := fun db => do
  let r ← db.get (d.fold table)
  if d.fold c.name ∈ r.columnNames.map d.fold then none
  else some (db.set (d.fold table)
    { r with
      columns := r.columns ++ [c]
      rows := r.rows.map fun row => Function.update row c.name d.null })

def dropIndex (table name : String) : Statement V := fun db => do
  let r ← db.get (d.fold table)
  if ∃ i ∈ r.indexes, d.fold i.name = d.fold name then
    some (db.set (d.fold table)
      { r with indexes := r.indexes.filter fun i => d.fold i.name ≠ d.fold name })
  else none

def deleteRows (table : String) : Statement V := fun db => do
  let r ← db.get (d.fold table)
  some (db.set (d.fold table) { r with rows := [] })

variable [DecidableEq V]

/-- The index can be created on the rows that are there. -/
structure Relation.CanIndex (r : Relation V) (i : Index) : Prop where
  columns : ∀ c ∈ i.columns, ∀ n ∈ c, d.fold n ∈ r.columnNames.map d.fold
  unique : i.unique = true → ∀ key ∈ i.key, Relation.DistinctOn d key r.rows

instance (r : Relation V) (i : Index) : Decidable (r.CanIndex d i) :=
  decidable_of_iff
    ((∀ c ∈ i.columns, ∀ n ∈ c, d.fold n ∈ r.columnNames.map d.fold) ∧
      (i.unique = true → ∀ key ∈ i.key, Relation.DistinctOn d key r.rows))
    ⟨fun h => ⟨h.1, h.2⟩, fun h => ⟨h.columns, h.unique⟩⟩

def createIndex (table : String) (i : Index) : Statement V := fun db => do
  let r ← db.get (d.fold table)
  if d.reserved i.name ∨ db.taken d (d.fold i.name) ∨ ¬ r.CanIndex d i then none
  else some (db.set (d.fold table) { r with indexes := r.indexes ++ [i] })

namespace Relation

def place (r : Relation V) (columns : List String) (row : String → V) : String → V := fun n =>
  match r.columns.find? fun c => c.name = n with
  | some c => if n ∈ columns then d.convert c.type (row n) else d.null
  | none => d.null

def insert (r : Relation V) (rows : List (String → V)) : Option (Relation V) :=
  if { r with rows := r.rows ++ rows }.Valid d then some { r with rows := r.rows ++ rows } else none

end Relation

def insertSelect (table source : String) (columns : List String) : Statement V := fun db => do
  let r ← db.get (d.fold table)
  let s ← db.get (d.fold source)
  if ∃ c ∈ columns, c ∉ r.columnNames ∨ c ∉ s.columnNames then none
  else (r.insert d (s.rows.map (r.place d columns))).map (db.set (d.fold table))

def insertValues (table : String) (values : List (String × V)) : Statement V := fun db => do
  let r ← db.get (d.fold table)
  let row n := ((values.find? fun v => v.1 = n).map Prod.snd).getD d.null
  if ∃ v ∈ values, v.1 ∉ r.columnNames then none
  else (r.insert d [r.place d (values.map Prod.fst) row]).map (db.set (d.fold table))

/-- The statements one after the other, until one is refused. -/
def runStatements (ss : List (Statement V)) : Statement V := fun db => ss.foldlM (fun db s => s db) db

end Statements

section ForeignKeys

variable [DecidableEq V] (d : Dialect V) (db : Db V)

def ForeignKey.parentKey (k : ForeignKey) (p : Relation V) : List String :=
  (k.columns.mapM Prod.snd).getD p.primaryKey

/-- The key finds each row's values, unless one is null, among the parent's rows. A parent whose
columns are not unique is refused. Values are compared as they are stored. -/
def ForeignKey.Holds (r : Relation V) (k : ForeignKey) : Prop :=
  match db.get (d.fold k.parent) with
  | none => ∀ row ∈ r.rows, d.null ∈ k.columns.map fun c => row c.1
  | some p => k.parentKey p ∈ p.uniqueKeys ∧ ∀ row ∈ r.rows, d.null ∈ (k.columns.map fun c => row c.1) ∨
        ∃ parent ∈ p.rows, (k.parentKey p).map parent = k.columns.map fun c => row c.1

instance (r : Relation V) (k : ForeignKey) : Decidable (k.Holds d db r) := by
  unfold ForeignKey.Holds
  cases db.get (d.fold k.parent) <;> exact inferInstance

/-- `PRAGMA foreign_key_check` finds nothing. -/
def ForeignKeysHold : Prop := ∀ e ∈ db.tables, ∀ k ∈ e.2.foreignKeys, k.Holds d db e.2

instance : Decidable (ForeignKeysHold d db) :=
  inferInstanceAs (Decidable (∀ e ∈ db.tables, _))

end ForeignKeys

namespace Db

/-- The second database is the first with this table under the key. -/
def Sets (db db' : Db V) (key : String) (r : Relation V) : Prop :=
  ∀ k, db'.get k = if key = k then some r else db.get k

namespace Sets

variable {db db' db'' : Db V} {key : String} {r r' : Relation V}

lemma set (db : Db V) (key : String) (r : Relation V) : Sets db (db.set key r) key r :=
  fun k => get_set db key k r

lemma refl (h : db.get key = some r) : Sets db db key r := by
  intro k
  split_ifs with hk
  · rw [← hk, h]
  · rfl

lemma trans (h : Sets db db' key r) (h' : Sets db' db'' key r') : Sets db db'' key r' := by
  intro k
  rw [h' k, h k]
  split_ifs <;> rfl

lemma get_self (h : Sets db db' key r) : db'.get key = some r := by
  rw [h key, if_pos rfl]

lemma get_of_ne (h : Sets db db' key r) {k : String} (hk : key ≠ k) : db'.get k = db.get k := by
  rw [h k, if_neg hk]

end Sets

end Db

section Runs

variable {db db' : Db V} {s : Statement V} {ss ss' : List (Statement V)}

lemma runStatements_cons_eq_some :
    runStatements (s :: ss) db = some db' ↔ ∃ m, s db = some m ∧ runStatements ss m = some db' := by
  rw [runStatements, List.foldlM_cons, Option.bind_eq_bind, Option.bind_eq_some_iff]
  rfl

lemma runStatements_append_eq_some : runStatements (ss ++ ss') db = some db' ↔
    ∃ m, runStatements ss db = some m ∧ runStatements ss' m = some db' := by
  rw [runStatements, List.foldlM_append, Option.bind_eq_bind, Option.bind_eq_some_iff]
  rfl

end Runs

section Specs

variable {d : Dialect V} {db db' : Db V} {r s : Relation V} {name source : String}

lemma createTable_eq_some : createTable d r db = some db' ↔ d.reserved r.name = false ∧
    db.taken d (d.fold r.name) = false ∧ (r.columnNames.map d.fold).Nodup ∧
      db.set (d.fold r.name) r = db' := by
  rw [createTable]
  split_ifs with h
  · rcases h with h | h | h <;> simp [h]
  · simp only [not_or, Bool.not_eq_true, not_not] at h
    simp [h]

lemma createTableAs_eq_some (hs : db.get (d.fold source) = some s) :
    createTableAs d name source db = createTable d
      { name, columns := s.columns.map fun c => { name := c.name, type := c.type }, rows := s.rows }
      db := by
  rw [createTableAs, hs]
  rfl

lemma dropTable_eq_some : dropTable d name db = some db' ↔
    (db.get (d.fold name)).isSome ∧ db.erase (d.fold name) = db' := by
  rw [dropTable]
  cases db.get (d.fold name) <;> simp

lemma addColumn_eq_some {c : Column} (hr : db.get (d.fold name) = some r) :
    addColumn d name c db = some db' ↔ d.fold c.name ∉ r.columnNames.map d.fold ∧ db.set (d.fold name)
        { r with
          columns := r.columns ++ [c]
          rows := r.rows.map fun row => update row c.name d.null } = db' := by
  rw [addColumn, hr]
  change (if _ then _ else _) = _ ↔ _
  split_ifs with h <;> simp [h]

lemma dropIndex_eq_some {index : String} (hr : db.get (d.fold name) = some r) :
    dropIndex d name index db = some db' ↔
      (∃ i ∈ r.indexes, d.fold i.name = d.fold index) ∧ db.set (d.fold name)
        { r with indexes := r.indexes.filter fun i => d.fold i.name ≠ d.fold index } = db' := by
  rw [dropIndex, hr]
  change (if _ then _ else _) = _ ↔ _
  split_ifs with h <;> simp [h]

lemma sets_of_dropIndexes {is : List Index} (hr : db.get (d.fold name) = some r)
    (h : runStatements (is.map fun i => dropIndex d name i.name) db = some db') :
    db.Sets db' (d.fold name)
      { r with indexes := r.indexes.filter fun j => ∀ i ∈ is, d.fold j.name ≠ d.fold i.name } := by
  induction is generalizing db r with
  | nil =>
    cases h
    have hall : (r.indexes.filter fun j => ∀ i ∈ ([] : List Index), d.fold j.name ≠ d.fold i.name) =
        r.indexes := by
      rw [List.filter_eq_self]
      simp
    rw [hall]
    exact Db.Sets.refl hr
  | cons i is ih =>
    obtain ⟨m, hm, hrest⟩ := runStatements_cons_eq_some.mp h
    rw [dropIndex_eq_some hr] at hm
    obtain ⟨-, rfl⟩ := hm
    have hsets := ih (Db.get_set_self db _ _) hrest
    have hboth : (r.indexes.filter fun j => d.fold j.name ≠ d.fold i.name).filter
        (fun j => ∀ k ∈ is, d.fold j.name ≠ d.fold k.name) =
        r.indexes.filter fun j => ∀ k ∈ i :: is, d.fold j.name ≠ d.fold k.name := by
      rw [List.filter_filter]
      refine List.filter_congr fun j _ => ?_
      rw [Bool.eq_iff_iff]
      simp [and_comm]
    rw [← hboth]
    exact (Db.Sets.set db _ _).trans hsets

variable [DecidableEq V]

lemma createIndex_eq_some {i : Index} (hr : db.get (d.fold name) = some r) :
    createIndex d name i db = some db' ↔ d.reserved i.name = false ∧
      db.taken d (d.fold i.name) = false ∧ r.CanIndex d i ∧
        db.set (d.fold name) { r with indexes := r.indexes ++ [i] } = db' := by
  rw [createIndex, hr]
  change (if _ then _ else _) = _ ↔ _
  split_ifs with h
  · rcases h with h | h | h <;> simp [h]
  · simp only [not_or, Bool.not_eq_true, not_not] at h
    simp [h]

lemma sets_of_createIndexes {is : List Index} (hr : db.get (d.fold name) = some r)
    (h : runStatements (is.map (createIndex d name)) db = some db') :
    db.Sets db' (d.fold name) { r with indexes := r.indexes ++ is } ∧ ∀ i ∈ is, r.CanIndex d i := by
  induction is generalizing db r with
  | nil =>
    cases h
    rw [List.append_nil]
    exact ⟨Db.Sets.refl hr, by simp⟩
  | cons i is ih =>
    obtain ⟨m, hm, hrest⟩ := runStatements_cons_eq_some.mp h
    rw [createIndex_eq_some hr] at hm
    obtain ⟨-, -, hcan, rfl⟩ := hm
    obtain ⟨hsets, hall⟩ := ih (Db.get_set_self db _ _) hrest
    rw [List.forall_mem_cons]
    refine ⟨?_, hcan, fun j hj => ⟨(hall j hj).columns, (hall j hj).unique⟩⟩
    have htrans := (Db.Sets.set db _ _).trans hsets
    simpa using htrans

lemma insert_eq_some {rows : List (String → V)} :
    r.insert d rows = some s ↔ Relation.Valid d { r with rows := r.rows ++ rows } ∧
      { r with rows := r.rows ++ rows } = s := by
  rw [Relation.insert]
  split_ifs with h <;> simp [h]

lemma insertSelect_eq_some {columns : List String} (hr : db.get (d.fold name) = some r)
    (hs : db.get (d.fold source) = some s) :
    insertSelect d name source columns db = some db' ↔ (∀ c ∈ columns, c ∈ r.columnNames ∧ c ∈ s.columnNames) ∧
        Relation.Valid d { r with rows := r.rows ++ s.rows.map (r.place d columns) } ∧
          db.set (d.fold name) { r with rows := r.rows ++ s.rows.map (r.place d columns) } = db' := by
  rw [insertSelect, hr, hs]
  change (if _ then _ else _) = _ ↔ _
  split_ifs with h
  · obtain ⟨c, hc, hmiss⟩ := h
    refine ⟨nofun, fun h => ?_⟩
    have hin := h.1 c hc
    rcases hmiss with hm | hm
    · exact absurd hin.1 hm
    · exact absurd hin.2 hm
  · have hall : ∀ c ∈ columns, c ∈ r.columnNames ∧ c ∈ s.columnNames := by
      intro c hc
      by_contra hmiss
      exact h ⟨c, hc, not_and_or.mp hmiss⟩
    simp only [Option.map_eq_some_iff, insert_eq_some]
    constructor
    · rintro ⟨_, ⟨hv, rfl⟩, rfl⟩
      exact ⟨hall, hv, rfl⟩
    · rintro ⟨-, hv, rfl⟩
      exact ⟨_, ⟨hv, rfl⟩, rfl⟩

end Specs

end Catalog
