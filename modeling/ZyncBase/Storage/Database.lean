import ZyncBase.Lib.AssocMap
import ZyncBase.Lib.Worklist
import ZyncBase.Schema.Types

/-! The stored rows of all tables, keyed by table and id, and what SQLite's foreign keys do to them
when a row is deleted. -/
namespace ZyncBase

open AssocMap Relation List

/-- Ids are primary keys: a table has one row for an id, whatever its namespace. -/
structure RowKey where
  tableIndex : ℕ
  id : DocId
  deriving DecidableEq, Repr

/-- A stored row. Only rows of the users table have an external id, in a column that records do
not show. -/
structure Row where
  namespaceId : ℤ
  ownerId : DocId
  externalId : Option Bytes := none
  fields : List Value
  createdAt : ℤ
  updatedAt : ℤ
  deriving DecidableEq, Repr

/-- The record read from a row: its user fields between the system fields. -/
def Row.record (id : DocId) (r : Row) : Record :=
  ⟨[.scalar (.docId id), .scalar (.integer r.namespaceId), .scalar (.docId r.ownerId)] ++
    r.fields ++ [.scalar (.integer r.createdAt), .scalar (.integer r.updatedAt)]⟩

/-- A reference column of a table and what a delete of its parent does. -/
structure ForeignKey where
  childTableIndex : ℕ
  fieldIndex : ℕ
  parentTableIndex : ℕ
  onDelete : OnDelete
  deriving DecidableEq, Repr

namespace ForeignKey

/-- The row of the entry references the parent through this column. -/
def refersTo (fk : ForeignKey) (parent : RowKey) (e : RowKey × Row) : Bool :=
  parent.tableIndex = fk.parentTableIndex && e.1.tableIndex = fk.childTableIndex &&
    e.2.fields[fk.fieldIndex]? = some (.scalar (.docId parent.id))

end ForeignKey

namespace Schema

def tableForeignKeys (s : Schema) (t : Table) : List ForeignKey :=
  t.userFields.zipIdx.filterMap fun (f, i) => do
    let parent ← s.table (← f.references)
    return ⟨t.index, i, parent.index, f.onDelete.getD .restrict⟩

def foreignKeys (s : Schema) : List ForeignKey := s.tables.flatMap s.tableForeignKeys

def hasIncomingCascadeOrSetNull (s : Schema) (tableIndex : ℕ) : Bool :=
  s.foreignKeys.any fun fk => fk.parentTableIndex = tableIndex && fk.onDelete ≠ .restrict

end Schema

lemma no_rows_distinct : Distinct eqKey ([] : List (RowKey × Row)) := List.Pairwise.nil

structure Database where
  rows : List (RowKey × Row) := []
  distinct : Distinct eqKey rows := by exact no_rows_distinct

namespace Database

def row (db : Database) (key : RowKey) : Option Row := find eqKey key db.rows

/-- `SELECT` of one document: the row must be in the namespace. -/
def select (db : Database) (key : RowKey) (namespaceId : ℤ) : Option Record :=
  match db.row key with
  | none => none
  | some r => if r.namespaceId = namespaceId then some (r.record key.id) else none

def put (db : Database) (key : RowKey) (r : Row) : Database :=
  ⟨AssocMap.put eqKey key r db.rows, distinct_put eqKey db.distinct⟩

/-- Keep the rows whose key passes the test. -/
def restrict (db : Database) (p : RowKey → Bool) : Database :=
  ⟨db.rows.filter fun e => p e.1, db.distinct.filter _⟩

def mapRows (db : Database) (f : RowKey → Row → Row) : Database :=
  ⟨db.rows.map fun e => (e.1, f e.1 e.2), by rw [Distinct, pairwise_map]; exact db.distinct⟩

/-- Rows that reference the parent through the column, ordered by id. -/
def referring (db : Database) (fk : ForeignKey) (parent : RowKey) : List (RowKey × Row) :=
  (db.rows.filter (fk.refersTo parent)).insertionSort fun a b => a.1.id ≤ b.1.id

def cascadeChildren (s : Schema) (db : Database) (parent : RowKey) : List RowKey :=
  (s.foreignKeys.filter fun fk => fk.onDelete = .cascade).flatMap fun fk =>
    (db.referring fk parent).map Prod.fst

/-- A delete of the root deletes the row of this key, through any chain of cascading references. -/
def CascadesTo (s : Schema) (db : Database) : RowKey → RowKey → Prop :=
  ReflTransGen fun parent child => child ∈ db.cascadeChildren s parent

variable {db : Database}

lemma mem_rows {key : RowKey} {r : Row} : (key, r) ∈ db.rows ↔ db.row key = some r := by
  refine ⟨fun h => find_of_mem eqKey db.distinct h (by simp), fun h => ?_⟩
  obtain ⟨k, hk, hm⟩ := mem_of_find eqKey h
  rw [eqKey_iff] at hk
  rwa [← hk]

@[simp] lemma row_put (db : Database) (key key' : RowKey) (r : Row) :
    (db.put key r).row key' = if key = key' then some r else db.row key' := by
  simp only [row, put, find_put, eqKey_iff]

@[simp] lemma row_restrict (db : Database) (p : RowKey → Bool) (key : RowKey) :
    (db.restrict p).row key = if p key then db.row key else none := by
  apply Option.ext
  intro r
  rw [← mem_rows, restrict, mem_filter, mem_rows]
  cases h : p key <;> simp

@[simp] lemma row_mapRows (db : Database) (f : RowKey → Row → Row) (key : RowKey) :
    (db.mapRows f).row key = (db.row key).map (f key) := by
  apply Option.ext
  intro r
  rw [← mem_rows, mapRows, mem_map, Option.map_eq_some_iff]
  constructor
  · rintro ⟨⟨k, v⟩, hm, he⟩
    cases he
    exact ⟨v, mem_rows.mp hm, rfl⟩
  · rintro ⟨v, hv, rfl⟩
    exact ⟨(key, v), mem_rows.mpr hv, rfl⟩

lemma mem_referring {fk : ForeignKey} {parent : RowKey} {e : RowKey × Row} :
    e ∈ db.referring fk parent ↔ db.row e.1 = some e.2 ∧ fk.refersTo parent e := by
  rw [referring, mem_insertionSort, mem_filter, ← mem_rows]

lemma mem_cascadeChildren {s : Schema} {parent child : RowKey} :
    child ∈ db.cascadeChildren s parent ↔ ∃ fk ∈ s.foreignKeys, fk.onDelete = .cascade ∧
        ∃ r, db.row child = some r ∧ fk.refersTo parent (child, r) := by
  simp only [cascadeChildren, mem_flatMap, mem_filter, decide_eq_true_eq, mem_map]
  constructor
  · rintro ⟨fk, ⟨hfk, ho⟩, ⟨k, r⟩, he, rfl⟩
    exact ⟨fk, hfk, ho, r, mem_referring.mp he⟩
  · rintro ⟨fk, hfk, ho, r, hr⟩
    exact ⟨fk, ⟨hfk, ho⟩, (child, r), mem_referring.mpr hr, rfl⟩

/-- The keys that matter for a delete of the root. -/
def keysWith (db : Database) (root : RowKey) : List RowKey := root :: db.rows.map Prod.fst

lemma cascadeChildren_within {s : Schema} {root : RowKey} :
    ∀ x ∈ db.keysWith root, ∀ y ∈ db.cascadeChildren s x, y ∈ db.keysWith root := by
  intro x _ y hy
  obtain ⟨_, _, _, r, hr, _⟩ := mem_cascadeChildren.mp hy
  exact mem_cons_of_mem _ (mem_map_of_mem (f := Prod.fst) (mem_rows.mpr hr))

lemma mem_order_iff (s : Schema) (db : Database) (root key : RowKey) :
    key ∈ (Worklist.Search.start root).order (db.cascadeChildren s) (db.keysWith root).length ↔
      db.CascadesTo s root key :=
  Worklist.Search.mem_order_start mem_cons_self cascadeChildren_within key

instance (s : Schema) (db : Database) (root : RowKey) : DecidablePred (db.CascadesTo s root) :=
  fun key => decidable_of_iff _ (mem_order_iff s db root key)

def nulled (s : Schema) (removed : RowKey → Prop) [DecidablePred removed] (tableIndex : ℕ) (i : ℕ)
    (v : Value) : Bool :=
  s.foreignKeys.any fun fk => fk.onDelete = .setNull && fk.childTableIndex = tableIndex && fk.fieldIndex = i &&
    match v with
    | .scalar (.docId id) => decide (removed ⟨fk.parentTableIndex, id⟩)
    | _ => false

def nullify (s : Schema) (removed : RowKey → Prop) [DecidablePred removed] (key : RowKey) (r : Row) : Row :=
  { r with
    fields := r.fields.mapIdx fun i v => if nulled s removed key.tableIndex i v then .nil else v }

/-- The rows left by a delete of the root: the rows it cascades to are gone, and references to them
in columns that are set to null are null. -/
def deleteCascading (s : Schema) (db : Database) (root : RowKey) : Database :=
  (db.restrict fun key => ¬ db.CascadesTo s root key).mapRows (nullify s (db.CascadesTo s root))

lemma row_deleteCascading (s : Schema) (db : Database) (root key : RowKey) :
    (db.deleteCascading s root).row key =
      if db.CascadesTo s root key then none
      else (db.row key).map (nullify s (db.CascadesTo s root) key) := by
  rw [deleteCascading, row_mapRows, row_restrict]
  by_cases h : db.CascadesTo s root key <;> simp [h]

lemma row_deleteCascading_self (s : Schema) (db : Database) (root : RowKey) :
    (db.deleteCascading s root).row root = none := by
  rw [row_deleteCascading, if_pos]
  exact ReflTransGen.refl

end Database
end ZyncBase
