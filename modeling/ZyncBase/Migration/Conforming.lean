import ZyncBase.Migration.Preserved

/-! Whether the rows that a migration leaves conform to the target schema, as the decoding of rows
takes for granted. -/
namespace ZyncBase

open Catalog List

section Conformity

variable (enc : Encodings)

def Represents (f : Field) (v : SqlValue) : Prop :=
  match f.storageType with
  | .text => ∃ text, v = .text text
  | .docId => storageClass v = 3 ∧ (blobBytes enc v).length = 16
  | .integer => ∃ n, v = .integer n
  | .real => ∃ x, v = .real x
  | .boolean => v = .integer 0 ∨ v = .integer 1
  | .array => storageClass v = 3 ∧ ∃ type items, f.itemsType = some type ∧
      (∀ s ∈ items, type.accepts s = true) ∧ blobBytes enc v = enc.jsonbBytes items
  | .bytes => storageClass v = 3

/-- A required field is not null, and what is not null is of the field's type. -/
structure FieldConforms (f : Field) (v : SqlValue) : Prop where
  required : f.required = true → v ≠ .null
  represents : v ≠ .null → Represents enc f v

def RowConforms (t : Table) (row : String → SqlValue) : Prop :=
  ∀ f ∈ t.fields, FieldConforms enc f (row f.name)

def Conforming (a : Affinity) (target : Schema) (db : Db SqlValue) : Prop :=
  ∀ t ∈ target.tables, ∀ r, db.get (t.key (sqlite a)) = some r → ∀ row ∈ r.rows, RowConforms enc t row

variable {enc} {f : Field}

lemma fieldConforms_null : FieldConforms enc f .null ↔ f.required = false := by
  constructor
  · intro h
    cases hf : f.required with
    | false => rfl
    | true => exact absurd rfl (h.required hf)
  · intro hf
    constructor
    · intro hreq
      cases hf.symm.trans hreq
    · exact fun hne => absurd rfl hne

end Conformity

variable {f : Field}

section Values

variable {a : Affinity} {t : Table} {r r' : Relation SqlValue} {row row' : String → SqlValue}

lemma exists_fixedColumn {f : Field} (hf : f ∈ leadingSystemFields ++ trailingSystemFields) :
    ∃ c ∈ t.fixedLeadingColumns ++ Table.fixedTrailingColumns,
      c.name = f.name ∧ c.type = f.storageType.toSqlType := by
  have hleading : ∀ f ∈ leadingSystemFields, ∃ c ∈ t.fixedLeadingColumns,
      c.name = f.name ∧ c.type = f.storageType.toSqlType := by
    simp [leadingSystemFields, Table.fixedLeadingColumns, FieldType.toSqlType]
  have htrailing : ∀ f ∈ trailingSystemFields, ∃ c ∈ Table.fixedTrailingColumns,
      c.name = f.name ∧ c.type = f.storageType.toSqlType := by
    simp [trailingSystemFields, Table.fixedTrailingColumns, FieldType.toSqlType]
  rcases mem_append.mp hf with hf | hf
  · obtain ⟨c, hc, hcf⟩ := hleading f hf
    exact ⟨c, mem_append_left _ hc, hcf⟩
  · obtain ⟨c, hc, hcf⟩ := htrailing f hf
    exact ⟨c, mem_append_right _ hc, hcf⟩

lemma isSystemColumn_of_mem (hf : f ∈ leadingSystemFields ++ trailingSystemFields) :
    isSystemColumn f.name = true := any_eq_true.mpr ⟨f, hf, decide_eq_true rfl⟩

lemma mem_fields : f ∈ t.fields ↔ f ∈ leadingSystemFields ++ trailingSystemFields ∨ f ∈ t.userFields := by
  simp only [Table.fields, mem_append]
  tauto

lemma exists_column (hf : f ∈ t.fields) :
    ∃ c ∈ t.columns, c.name = f.name ∧ c.type = f.storageType.toSqlType := by
  rcases mem_fields.mp hf with hf | hf
  · obtain ⟨c, hc, hcf⟩ := @exists_fixedColumn t f hf
    refine ⟨c, ?_, hcf⟩
    rw [Table.columns]
    rcases mem_append.mp hc with hc | hc
    · exact mem_append_left _ (mem_append_left _ hc)
    · exact mem_append_right _ hc
  · exact ⟨f.column, mem_append_left _ (mem_append_right _ (mem_map_of_mem hf)),
      rfl, rfl⟩

lemma not_isSystemColumn (hf : f ∈ t.userFields) : isSystemColumn f.name = false := by
  rw [isSystemColumn, any_eq_false]
  intro g hg he
  have hname : g.name = f.name := of_decide_eq_true he
  have hnames := t.names_nodup
  rw [map_append, map_append, append_assoc, nodup_append] at hnames
  obtain ⟨-, hrest, hlead⟩ := hnames
  rw [nodup_append] at hrest
  rcases mem_append.mp hg with hg | hg
  · exact hlead _ (mem_map_of_mem hg) _ (mem_append_left _ (mem_map_of_mem hf)) hname
  · exact hrest.2.2 _ (mem_map_of_mem hf) _ (mem_map_of_mem hg) hname.symm

def Converted (a : Affinity) (t : Table) (row row' : String → SqlValue) : Prop :=
  ∀ f ∈ t.fields, row' f.name = a.convert f.storageType.toSqlType (row f.name)

lemma converted_rebuilt (hs : StoredTable a t r) (hnodup : (t.columnNames.map foldName).Nodup)
    (hrow : row ∈ r.rows) : Converted a t row (t.carry (sqlite a) r.columnNames row) := by
  intro f hf
  obtain ⟨c, hc, hname, htype⟩ := exists_column hf
  by_cases hold : f.name ∈ r.columnNames
  · have hcommon : c.name ∈ buildCommonColumns t r.columnNames := by
      rw [hname]
      exact mem_buildCommonColumns.mpr ⟨hold, (mem_fields.mp hf).imp isSystemColumn_of_mem fun h => ⟨f, h, rfl⟩⟩
    rw [← hname, carry_common hnodup hc hcommon, htype]
  · -- a new field starts as null
    rw [hs.outside row hrow _ hold, a.convert_null]
    have hno : f.name ∉ buildCommonColumns t r.columnNames := fun h =>
      hold (mem_buildCommonColumns.mp h).1
    cases hfind : t.columns.find? (fun c => c.name = f.name) with
    | none => exact carry_of_find_none hfind
    | some c => rw [carry_of_find hfind, if_neg hno]

lemma type_of_unrebuilt {fs : List Field} (hs : StoredTable a t r)
    (hidentity : t.isUsersTable = true → ∀ f ∈ t.userFields, f.name ≠ "external_id")
    (h : detectColumnChanges t (userColumns t r) = adds t fs) (hf : f ∈ t.fields)
    {c : Column} (hc : c ∈ r.columns) (hname : c.name = f.name) : c.type = f.storageType.toSqlType := by
  rcases mem_fields.mp hf with hsystem | huser
  · obtain ⟨c', hc', hname', htype'⟩ := @exists_fixedColumn t f hsystem
    obtain ⟨c'', hc'', hname'', htype''⟩ := hs.fixed c' hc'
    rw [← hs.column_eq hc hc'' (by rw [hname'', hname', hname]), htype'', htype']
  · have hmanaged : isManagedColumn t f.name = false := by
      rw [isManagedColumn, not_isSystemColumn huser, Bool.false_or, Bool.and_eq_false_imp]
      exact fun husers => decide_eq_false (hidentity husers f huser)
    have hmem : c ∈ userColumns t r := mem_filter.mpr ⟨hc, by rw [hname, hmanaged]; rfl⟩
    cases hfind : (userColumns t r).find? (fun c => c.name = f.name) with
    | none =>
      have hnone := find?_eq_none.mp hfind c hmem
      exact absurd (decide_eq_true hname) hnone
    | some c' =>
      have hc' : c' = c := by
        refine hs.column_eq hc (mem_filter.mp (mem_of_find?_eq_some hfind)).1 ?_
        rw [hname]
        simpa using find?_some hfind
      by_contra hne
      have hchange : ({ kind := .changeType, table := t, field := some f } : Change) ∈
          detectColumnChanges t (userColumns t r) := by
        refine mem_filterMap.mpr ⟨f, huser, ?_⟩
        rw [hmanaged, if_neg Bool.false_ne_true, hfind]
        dsimp only
        rw [if_neg]
        rw [hc', typesMatch, decide_eq_true_iff]
        exact fun he => hne he.symm
      -- but all changes add a column
      rw [h] at hchange
      obtain ⟨g, -, hg⟩ := mem_map.mp hchange
      cases hg

lemma converted_unrebuilt {fs : List Field} (hs : StoredTable a t r)
    (hidentity : t.isUsersTable = true → ∀ f ∈ t.userFields, f.name ≠ "external_id")
    (h : detectColumnChanges t (userColumns t r) = adds t fs)
    (hnew : ∀ f ∈ fs, f.name ∉ r.columnNames) (hrow : row ∈ r.rows) :
    Converted a t row fun n => if n ∈ fs.map Field.name then .null else row n := by
  intro f hf
  dsimp only
  by_cases hold : f.name ∈ r.columnNames
  · have hno : f.name ∉ fs.map Field.name := by
      intro hmem
      obtain ⟨g, hg, hname⟩ := mem_map.mp hmem
      exact hnew g hg (hname ▸ hold)
    obtain ⟨c, hc, hname⟩ := mem_map.mp hold
    rw [if_neg hno, ← type_of_unrebuilt hs hidentity h hf hc hname, ← hname]
    exact (hs.values row hrow c hc).symm
  · rw [hs.outside row hrow _ hold, a.convert_null, ite_self]

lemma converted_of_final {rebuilds : Bool} (hs : StoredTable a t r)
    (hidentity : t.isUsersTable = true → ∀ f ∈ t.userFields, f.name ≠ "external_id")
    (h : FinalTable a t r rebuilds r') : List.Forall₂ (Converted a t) r.rows r'.rows := by
  cases h with
  | rebuilt hnodup hvalid => exact forall₂_map fun row hrow => converted_rebuilt hs hnodup hrow
  | unrebuilt r' fs h =>
    have hrows : r'.rows = (extendedAll (sqlite a) fs r).rows := by
      obtain ⟨rfl, -⟩ | ⟨rfl, -⟩ := h.indexes <;> rfl
    rw [hrows, extendedAll_rows]
    exact forall₂_map fun row hrow =>
      converted_unrebuilt hs hidentity h.added (not_mem_of_allows_adds h.allows) hrow

variable {enc : Encodings}

/-- The row fits the target's table: the fields that are new to it are optional, and its values
conform once they are converted to the types of the fields. -/
structure RowFits (enc : Encodings) (a : Affinity) (t : Table) (r : Relation SqlValue)
    (row : String → SqlValue) : Prop where
  added : ∀ f ∈ t.fields, f.name ∉ r.columnNames → f.required = false
  kept : ∀ f ∈ t.fields, f.name ∈ r.columnNames →
    FieldConforms enc f (a.convert f.storageType.toSqlType (row f.name))

lemma rowConforms_iff (hs : StoredTable a t r) (hrow : row ∈ r.rows) (h : Converted a t row row') :
    RowConforms enc t row' ↔ RowFits enc a t r row := by
  constructor
  · intro hconforms
    constructor
    · intro f hf hold
      have hnull := hconforms f hf
      rwa [h f hf, hs.outside row hrow _ hold, a.convert_null, fieldConforms_null] at hnull
    · intro f hf _
      rw [← h f hf]
      exact hconforms f hf
  · intro hfits f hf
    rw [h f hf]
    by_cases hold : f.name ∈ r.columnNames
    · exact hfits.kept f hf hold
    · rw [hs.outside row hrow _ hold, a.convert_null, fieldConforms_null]
      exact hfits.added f hf hold

end Values

lemma forall_mem_congr {α β : Type*} {R : α → β → Prop} {p : β → Prop} {q : α → Prop}
    {as : List α} {bs : List β} (h : List.Forall₂ R as bs)
    (hpq : ∀ a ∈ as, ∀ b, R a b → (p b ↔ q a)) : (∀ b ∈ bs, p b) ↔ ∀ a ∈ as, q a := by
  induction h with
  | nil => simp
  | cons hab _ ih =>
    rw [forall_mem_cons] at hpq
    rw [forall_mem_cons, forall_mem_cons, hpq.1 _ hab, ih hpq.2]

section Migration

variable {enc : Encodings} {a : Affinity} {hash : HashOrder} {current target : Schema}
  {config : MigrationConfig} {faults : ℕ → Bool} {conn conn' : DbConnection} {plan : MigrationPlan}
  {version : Bytes} {now : ℤ}

/-- After a migration the rows conform exactly when those before fitted the target. -/
theorem migration_conforms_iff (hopen : conn.transaction = none)
    (hplan : detectChanges (sqlite a) hash current conn.committed target = .ok plan)
    (hkeys : (target.tables.map (Table.key (sqlite a))).Nodup)
    (hversion : ∀ t ∈ target.tables, t.key (sqlite a) ≠ foldName "schema_meta")
    (hidentity : ∀ t ∈ target.tables, t.isUsersTable = true →
      ∀ f ∈ t.userFields, f.name ≠ "external_id")
    (hstored : ∀ t ∈ target.tables, ∀ r, conn.committed.get (t.key (sqlite a)) = some r →
      StoredTable a t r)
    (hok : execute (sqlite a) config faults plan version now conn = .ok () conn') :
    Conforming enc a target conn'.committed ↔
      ∀ t ∈ target.tables, ∀ r, conn.committed.get (t.key (sqlite a)) = some r →
        ∀ row ∈ r.rows, RowFits enc a t r row := by
  have hmigrated : migrated (sqlite a) plan version now conn.committed = some conn'.committed := by
    have hcases := @execute_cases (sqlite a) faults conn config plan version now hopen
    split at hcases
    · obtain ⟨_, herr, -⟩ := hcases
      cases hok.symm.trans herr
    · rwa [hok] at hcases
  have hid : ∀ t ∈ target.tables, ∀ r, conn.committed.get (t.key (sqlite a)) = some r →
      "id" ∈ r.columnNames := fun t ht r hr => (hstored t ht r hr).id_mem
  obtain ⟨htables, -⟩ := tables_of_migrated hplan hkeys hversion hid hmigrated
  refine forall₂_congr fun t ht => ?_
  obtain ⟨cs, -, hnew, hfinal⟩ := htables t ht
  cases hr : conn.committed.get (t.key (sqlite a)) with
  | none =>
    -- a new table has no rows
    rw [hnew hr]
    constructor
    · intro _ r h
      cases h
    · intro _ r h row hrow
      cases h
      cases hrow
  | some r =>
    obtain ⟨-, r', hr', hform⟩ := hfinal r hr
    have hs := hstored t ht r hr
    have hrows := converted_of_final hs (hidentity t ht) hform
    rw [hr']
    have hiff : (∀ row ∈ r'.rows, RowConforms enc t row) ↔ ∀ row ∈ r.rows, RowFits enc a t r row :=
      forall_mem_congr hrows fun row hrow row' hc => rowConforms_iff hs hrow hc
    simpa only [Option.some.injEq, forall_eq'] using hiff

end Migration

section Samples

def taskTable (fields : List Field) (hfields : ∀ f ∈ fields, f.WellFormed)
    (hnames : ((leadingSystemFields ++ fields ++ trailingSystemFields).map Field.name).Nodup) : Table :=
  { name := "tasks", userFields := fields, fields_wellFormed := hfields, names_nodup := hnames }

def countField (type : FieldType) (required : Bool) : Field :=
  { name := "count", declaredType := type, storageType := type, required }

def bareSchema : Schema :=
  soloSchema (taskTable [] no_fields_wellFormed system_names_nodup) rfl (fun _ h => absurd h not_mem_nil)

def countedSchema (type : FieldType) (required : Bool) (h : type ≠ .docId ∧ type ≠ .array) : Schema :=
  soloSchema
    (taskTable [countField type required]
      (forall_mem_singleton.mpr (Field.plain_wellFormed h))
      (by
        change ["id", "namespace_id", "owner_id", "count", "created_at", "updated_at"].Nodup
        decide))
    rfl (by simp [taskTable, countField])

/-- The database after the migration from one schema to another. -/
def migrate (current target : Schema) (db : Db SqlValue) : Option (Db SqlValue) :=
  match detectChanges (sqlite decimalAffinity) noHash current db target with
  | .error _ => none
  | .ok plan =>
    match execute (sqlite decimalAffinity) { allowDestructive := true } (fun _ => false) plan
        [49, 46, 48, 46, 48] 0 { committed := db } with
    | .error _ _ => none
    | .ok _ conn => some conn.committed

def taskDb (schema : Schema) (count : SqlValue) : Db SqlValue :=
  match schema.tables with
  | [] => Db.empty
  | t :: _ => Db.empty.set "tasks" (t.built
      [rowOf [("id", .blob someId), ("namespace_id", .integer 0), ("owner_id", .blob someId),
        ("count", count), ("created_at", .integer 1), ("updated_at", .integer 1)]])

def countsOf (db : Db SqlValue) : Option (List SqlValue) :=
  (db.get "tasks").map fun r => r.rows.map fun row => row "count"

variable {enc : Encodings}

lemma fieldConforms_of_conforming {type : FieldType} {required : Bool}
    {h : type ≠ .docId ∧ type ≠ .array} {db : Db SqlValue} {v : SqlValue}
    (hc : Conforming enc decimalAffinity (countedSchema type required h) db)
    (hv : countsOf db = some [v]) : FieldConforms enc (countField type required) v := by
  obtain ⟨r, hr, hrows⟩ := Option.map_eq_some_iff.mp hv
  obtain ⟨row, hrow, hrv⟩ := mem_map.mp (hrows ▸ mem_singleton_self v)
  have hkey : (taskTable [] (fun _ h => absurd h not_mem_nil) (by decide)).key
      (sqlite decimalAffinity) = "tasks" := by decide
  have hconf := hc _ (mem_singleton_self _) r (hkey ▸ hr) row hrow (countField type required)
    (mem_append_left _ (mem_append_right _ (mem_singleton_self _)))
  rw [← hrv]
  exact hconf

lemma exists_nonconforming {type : FieldType} {required : Bool}
    {h : type ≠ .docId ∧ type ≠ .array} {current : Schema} {db : Db SqlValue} {v : SqlValue}
    (hv : (migrate current (countedSchema type required h) db).bind countsOf = some [v])
    (hno : ¬ FieldConforms enc (countField type required) v) :
    ∃ db', migrate current (countedSchema type required h) db = some db' ∧
      ¬ Conforming enc decimalAffinity (countedSchema type required h) db' := by
  obtain ⟨db', hdb, hcounts⟩ := Option.bind_eq_some_iff.mp hv
  exact ⟨db', hdb, fun hc => hno (fieldConforms_of_conforming hc hcounts)⟩

def plainEncodings : Encodings := ⟨fun _ => [], fun _ => [], id⟩

lemma migrated_counts :
    (migrate (countedSchema .integer false (by decide)) (countedSchema .boolean false (by decide))
      (taskDb (countedSchema .integer false (by decide)) (.integer 5))).bind countsOf = some [.integer 5] ∧
    (migrate (countedSchema .integer false (by decide)) (countedSchema .integer true (by decide))
      (taskDb (countedSchema .integer false (by decide)) .null)).bind countsOf = some [.null] ∧
    (migrate bareSchema (countedSchema .integer true (by decide)) (taskDb bareSchema .null)).bind countsOf =
      some [.null] ∧
    (migrate (countedSchema .integer false (by decide)) (countedSchema .integer true (by decide))
      (taskDb (countedSchema .integer false (by decide)) (.integer 5))).bind countsOf = some [.integer 5] := by
  decide +kernel

/-- A migration from integers to booleans leaves the count 5, one from an optional to a required
field leaves its nulls, and a required field that is new to a table with rows starts as null. -/
theorem migrated_rows_nonconforming :
    (∃ db, migrate (countedSchema .integer false (by decide)) (countedSchema .boolean false (by decide))
      (taskDb (countedSchema .integer false (by decide)) (.integer 5)) = some db ∧
        ¬ Conforming plainEncodings decimalAffinity (countedSchema .boolean false (by decide)) db) ∧
    (∃ db, migrate (countedSchema .integer false (by decide)) (countedSchema .integer true (by decide))
      (taskDb (countedSchema .integer false (by decide)) .null) = some db ∧
        ¬ Conforming plainEncodings decimalAffinity (countedSchema .integer true (by decide)) db) ∧
    (∃ db, migrate bareSchema (countedSchema .integer true (by decide)) (taskDb bareSchema .null) = some db ∧
        ¬ Conforming plainEncodings decimalAffinity (countedSchema .integer true (by decide)) db) := by
  obtain ⟨hfive, hoptional, hbare, -⟩ := migrated_counts
  have hnull : ¬ FieldConforms plainEncodings (countField .integer true) .null :=
    fun h => absurd rfl (h.required rfl)
  refine ⟨exists_nonconforming hfive fun h => ?_,
    exists_nonconforming hoptional hnull, exists_nonconforming hbare hnull⟩
  rcases h.represents SqlValue.noConfusion with h | h <;> cases h

lemma exists_execute {current target : Schema} {db db' : Db SqlValue}
    (h : migrate current target db = some db') : ∃ plan conn,
      detectChanges (sqlite decimalAffinity) noHash current db target = .ok plan ∧
        execute (sqlite decimalAffinity) { allowDestructive := true } (fun _ => false) plan
          [49, 46, 48, 46, 48] 0 { committed := db } = .ok () conn ∧ conn.committed = db' := by
  rw [migrate] at h
  split at h
  · cases h
  · rename_i plan hplan
    split at h
    · cases h
    · rename_i conn hok
      cases h
      exact ⟨plan, conn, hplan, hok, rfl⟩

lemma stored_taskDb : ∀ t ∈ (countedSchema .integer true (by decide)).tables, ∀ r,
    (taskDb (countedSchema .integer false (by decide)) (.integer 5)).get
      (t.key (sqlite decimalAffinity)) = some r → StoredTable decimalAffinity t r := by
  intro t ht r hr
  rw [mem_singleton.mp ht] at hr ⊢
  cases hr
  refine ⟨by decide, by decide, by decide, fun row hrow n hn => ?_⟩
  rw [mem_singleton.mp hrow]
  exact rowOf_of_not_mem hn

/-- The count 5 fits the required field. -/
theorem migration_conforms_required : ∃ (plan : MigrationPlan) (conn : DbConnection),
    detectChanges (sqlite decimalAffinity) noHash (countedSchema .integer false (by decide))
      (taskDb (countedSchema .integer false (by decide)) (.integer 5))
      (countedSchema .integer true (by decide)) = .ok plan ∧
    (Conforming plainEncodings decimalAffinity (countedSchema .integer true (by decide)) conn.committed ↔
      ∀ t ∈ (countedSchema .integer true (by decide)).tables, ∀ r,
        (taskDb (countedSchema .integer false (by decide)) (.integer 5)).get
          (t.key (sqlite decimalAffinity)) = some r →
        ∀ row ∈ r.rows, RowFits plainEncodings decimalAffinity t r row) ∧
    countsOf conn.committed = some [.integer 5] := by
  obtain ⟨-, -, -, hfits⟩ := migrated_counts
  obtain ⟨db', hdb, hcounts⟩ := Option.bind_eq_some_iff.mp hfits
  obtain ⟨plan, conn, hplan, hok, rfl⟩ := exists_execute hdb
  have hopen : ({ committed := taskDb (countedSchema .integer false (by decide)) (.integer 5) } :
      DbConnection).transaction = none := rfl
  have hidentity : ∀ t ∈ (countedSchema .integer true (by decide)).tables, t.isUsersTable = true →
      ∀ f ∈ t.userFields, f.name ≠ "external_id" := by
    intro t ht hu
    rw [mem_singleton.mp ht] at hu
    exact absurd hu (by decide)
  exact ⟨plan, conn, hplan, migration_conforms_iff hopen hplan (by decide) (by decide) hidentity
    stored_taskDb hok, hcounts⟩

end Samples

end ZyncBase
