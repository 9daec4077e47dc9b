import ZyncBase.Migration.Executor

/-! What each change of a plan does to the tables of the database, and when it is refused. -/
namespace ZyncBase

open Catalog List

variable {d : Dialect SqlValue} {db db' : Db SqlValue} {t : Table} {r : Relation SqlValue}

namespace Table

def key (d : Dialect SqlValue) (t : Table) : String := d.fold t.name

def columnNames (t : Table) : List String := t.columns.map Column.name

def indexes (t : Table) : List Index := t.managedIndexes.map (ManagedIndex.toIndex t)

def carry (d : Dialect SqlValue) (t : Table) (old : List String) (row : String → SqlValue) :
    String → SqlValue :=
  (t.created : Relation SqlValue).place d (buildCommonColumns t old) row

def rebuilt (d : Dialect SqlValue) (t : Table) (r : Relation SqlValue) : Relation SqlValue :=
  t.built (r.rows.map (t.carry d r.columnNames))

def extended (d : Dialect SqlValue) (f : Field) (r : Relation SqlValue) : Relation SqlValue :=
  { r with
    columns := r.columns ++ [{ name := f.name, type := f.storageType.toSqlType }]
    rows := r.rows.map fun row => Function.update row f.name d.null }

def reservedIndexes (t : Table) (r : Relation SqlValue) : List Index :=
  r.indexes.filter fun i => isReservedManagedIndexName i.name t.name

/-- The indexes that stay when those are dropped. -/
def foreignIndexes (d : Dialect SqlValue) (t : Table) (r : Relation SqlValue) : List Index :=
  r.indexes.filter fun j => ∀ i ∈ t.reservedIndexes r, d.fold j.name ≠ d.fold i.name

/-- The table with its managed indexes anew. -/
def reindexed (d : Dialect SqlValue) (t : Table) (r : Relation SqlValue) : Relation SqlValue :=
  { r with indexes := t.foreignIndexes d r ++ t.indexes }

lemma generateDDL_eq (t : Table) :
    t.generateDDL d = createTable d t.created :: t.indexes.map (createIndex d t.name) := by
  rw [generateDDL, indexes, map_map]
  rfl

lemma sets_of_generateDDL (h : runStatements (t.generateDDL d) db = some db') :
    db.Sets db' (t.key d) (t.built []) ∧ db.taken d (t.key d) = false ∧ (t.columnNames.map d.fold).Nodup := by
  rw [generateDDL_eq] at h
  obtain ⟨m, hm, hrest⟩ := runStatements_cons_eq_some.mp h
  obtain ⟨-, hfree, hnodup, rfl⟩ := createTable_eq_some.mp hm
  have hsets := (sets_of_createIndexes (Db.get_set_self db _ _) hrest).1
  exact ⟨(Db.Sets.set db _ _).trans hsets, hfree, hnodup⟩

end Table

section Rebuild

/-- The copy of the old table that a rebuild works from. -/
def backup (t : Table) (r : Relation SqlValue) : Relation SqlValue :=
  { name := backupName t, columns := r.columns.map fun c => { name := c.name, type := c.type },
    rows := r.rows }

lemma backup_columnNames (t : Table) (r : Relation SqlValue) : (backup t r).columnNames = r.columnNames := by
  rw [Relation.columnNames, backup, map_map]
  rfl

lemma mem_buildCommonColumns {old : List String} {n : String} : n ∈ buildCommonColumns t old ↔
    n ∈ old ∧ (isSystemColumn n = true ∨ ∃ f ∈ t.userFields, n = f.name) := by
  simp [buildCommonColumns]

lemma isSystemColumn_iff {n : String} : isSystemColumn n = true ↔ n ∈ ["id", "namespace_id", "owner_id"] ∨
    n ∈ ["created_at", "updated_at"] := by
  rw [← mem_append, isSystemColumn, any_eq_true]
  constructor
  · rintro ⟨f, hf, he⟩
    rw [← of_decide_eq_true he]
    exact mem_map_of_mem hf
  · intro h
    obtain ⟨f, hf, he⟩ := mem_map.mp
      (show n ∈ (leadingSystemFields ++ trailingSystemFields).map Field.name from h)
    exact ⟨f, hf, decide_eq_true he⟩

lemma Table.mem_columnNames {n : String} :
    n ∈ t.columnNames ↔ isSystemColumn n = true ∨ (∃ f ∈ t.userFields, n = f.name) ∨
      (t.isUsersTable = true ∧ n = "external_id") := by
  have hfields : n ∈ (t.userFields.map Field.column).map Column.name ↔ ∃ f ∈ t.userFields, n = f.name := by
    simp only [map_map, mem_map, Function.comp_apply, Field.column, eq_comm]
  have hlead : n ∈ t.fixedLeadingColumns.map Column.name ↔
      n ∈ ["id", "namespace_id", "owner_id"] ∨ (t.isUsersTable = true ∧ n = "external_id") := by
    rw [fixedLeadingColumns, map_append, mem_append]
    refine or_congr Iff.rfl ?_
    split_ifs with h <;> simp [h]
  have htrail : n ∈ fixedTrailingColumns.map Column.name ↔ n ∈ ["created_at", "updated_at"] := Iff.rfl
  rw [columnNames, columns, map_append, map_append, mem_append, mem_append,
    hfields, hlead, htrail, isSystemColumn_iff]
  simp only [or_assoc, or_comm, or_left_comm]

lemma common_ne_nil {old : List String} (h : "id" ∈ old) : buildCommonColumns t old ≠ [] := by
  have hid : "id" ∈ buildCommonColumns t old := mem_buildCommonColumns.mpr ⟨h, .inl (by decide)⟩
  exact ne_nil_of_mem hid

lemma sets_of_recreateTable (hr : db.get (t.key d) = some r) (hid : "id" ∈ r.columnNames)
    (h : runStatements (recreateTable d t) db = some db') :
    db.Sets db' (t.key d) (t.rebuilt d r) ∧ (t.columnNames.map d.fold).Nodup ∧ (t.rebuilt d r).Valid d := by
  rw [recreateTable, cons_append, cons_append] at h
  obtain ⟨m₁, hbackup, h⟩ := runStatements_cons_eq_some.mp h
  obtain ⟨m₂, hdrop, h⟩ := runStatements_cons_eq_some.mp h
  obtain ⟨m₃, hddl, h⟩ := runStatements_append_eq_some.mp h
  obtain ⟨m₄, hcopy, h⟩ := runStatements_cons_eq_some.mp h
  obtain ⟨m₅, hlast, h⟩ := runStatements_cons_eq_some.mp h
  cases h
  rw [createTableAs_eq_some hr] at hbackup
  obtain ⟨-, hfree, -, hm₁⟩ := createTable_eq_some.mp hbackup
  replace hm₁ : db.set (d.fold (backupName t)) (backup t r) = m₁ := hm₁
  have hm₂ : m₁.erase (t.key d) = m₂ := (dropTable_eq_some.mp hdrop).2
  obtain ⟨hcreated, -, hnodup⟩ := Table.sets_of_generateDDL hddl
  have hm₅ : m₄.erase (d.fold (backupName t)) = db' := (dropTable_eq_some.mp hlast).2
  subst hm₁ hm₂ hm₅
  have hnone : db.get (d.fold (backupName t)) = none := (Db.taken_eq_false.mp hfree).1
  have hne : t.key d ≠ d.fold (backupName t) := by
    intro he
    rw [← he, hr] at hnone
    cases hnone
  have hget : m₃.get (d.fold (backupName t)) = some (backup t r) := by
    rw [hcreated.get_of_ne hne, Db.get_erase_of_ne hne, Db.get_set_self]
  have hinfo : (tableInfo d m₃ (backupName t)).map Column.name = r.columnNames := by
    rw [tableInfo, hget]
    exact backup_columnNames t r
  rw [copyCommonColumns, hinfo, if_neg (common_ne_nil hid),
    insertSelect_eq_some hcreated.get_self hget] at hcopy
  obtain ⟨-, hvalid, rfl⟩ := hcopy
  refine ⟨fun k => ?_, hnodup, hvalid⟩
  by_cases hb : d.fold (backupName t) = k
  · subst hb
    rw [Db.get_erase_self, if_neg hne, hnone]
  · rw [Db.get_erase_of_ne hb]
    by_cases hk : t.key d = k
    · subst hk
      rw [if_pos rfl]
      exact Db.get_set_self _ _ _
    · rw [if_neg hk]
      refine (Db.get_set_of_ne hk).trans ?_
      rw [hcreated.get_of_ne hk, Db.get_erase_of_ne hk, Db.get_set_of_ne hb]

end Rebuild

section Indexes

lemma sets_of_reconcile (hr : db.get (t.key d) = some r)
    (h : runStatements (reconcileManagedIndexes d t db) db = some db') :
    db.Sets db' (t.key d) (t.reindexed d r) ∧ ∀ i ∈ t.indexes, r.CanIndex d i := by
  obtain ⟨m, hdrop, hcreate⟩ := runStatements_append_eq_some.mp h
  have hlist : indexList d db t.name = r.indexes := by
    rw [indexList, show db.get (d.fold t.name) = some r from hr]
    rfl
  rw [hlist] at hdrop
  have hdropped := sets_of_dropIndexes hr hdrop
  have hmap : t.managedIndexes.map (t.generateIndexDDL d) = t.indexes.map (createIndex d t.name) := by
    rw [Table.indexes, map_map]
    rfl
  rw [hmap] at hcreate
  obtain ⟨hsets, hcan⟩ := sets_of_createIndexes hdropped.get_self hcreate
  exact ⟨hdropped.trans hsets, fun i hi => ⟨(hcan i hi).columns, (hcan i hi).unique⟩⟩

end Indexes

namespace Change

def run (d : Dialect SqlValue) (c : Change) (db : Db SqlValue) : Option (Db SqlValue) :=
  match applyChange d c db with
  | .error _ => none
  | .ok ss => runStatements ss db

def effect (d : Dialect SqlValue) (c : Change) (r : Relation SqlValue) : Relation SqlValue :=
  match c.kind, c.field with
  | .createTable, _ => r
  | .addColumn, some f => Table.extended d f r
  | .addColumn, none => r
  | .changeIndexes, _ => c.table.reindexed d r
  | .changeType, _ | .removeColumn, _ | .changeForeignKeys, _ => c.table.rebuilt d r

def Allowed (d : Dialect SqlValue) (c : Change) (r : Relation SqlValue) : Prop :=
  match c.kind, c.field with
  | .createTable, _ => False
  | .addColumn, some f => d.fold f.name ∉ r.columnNames.map d.fold
  | .addColumn, none => False
  | .changeIndexes, _ => ∀ i ∈ c.table.indexes, r.CanIndex d i
  | .changeType, _ | .removeColumn, _ | .changeForeignKeys, _ =>
    (c.table.columnNames.map d.fold).Nodup ∧ (c.table.rebuilt d r).Valid d

variable {c : Change}

lemma sets_of_run (hr : db.get (c.table.key d) = some r) (hid : "id" ∈ r.columnNames)
    (h : c.run d db = some db') : c.Allowed d r ∧ db.Sets db' (c.table.key d) (c.effect d r) := by
  obtain ⟨kind, t, field⟩ := c
  cases kind with
  | createTable =>
    have hfree := (Table.sets_of_generateDDL h).2.1
    cases (Db.taken_eq_false.mp hfree).1.symm.trans hr
  | addColumn =>
    cases field with
    | none => cases h
    | some f =>
      obtain ⟨m, hm, hrest⟩ := runStatements_cons_eq_some.mp h
      cases hrest
      obtain ⟨hnew, rfl⟩ := (addColumn_eq_some hr).mp hm
      exact ⟨hnew, Db.Sets.set db _ _⟩
  | changeIndexes =>
    obtain ⟨hsets, hcan⟩ := sets_of_reconcile hr h
    exact ⟨hcan, hsets⟩
  | changeType => exact (sets_of_recreateTable hr hid h).symm
  | removeColumn => exact (sets_of_recreateTable hr hid h).symm
  | changeForeignKeys => exact (sets_of_recreateTable hr hid h).symm

end Change
end ZyncBase
