import ZyncBase.Migration.Results

/-! The rows of existing tables through a migration: they stay, under their ids, with the values of
the columns that stay. An execution that fails leaves the database as it was. -/
namespace ZyncBase

open Catalog List

variable {a : Affinity} {hash : HashOrder} {current target : Schema} {db db' : Db SqlValue} {t : Table}
  {r r' : Relation SqlValue} {row row' : String → SqlValue} {fs : List Field} {n : String}

/-- A stored table of the schema: it has the columns that every table has, its names are distinct, and
its values are converted to the affinity of their columns. -/
structure StoredTable (a : Affinity) (t : Table) (r : Relation SqlValue) : Prop where
  columns : (r.columnNames.map foldName).Nodup
  fixed : ∀ c ∈ t.fixedLeadingColumns ++ Table.fixedTrailingColumns,
    ∃ c' ∈ r.columns, c'.name = c.name ∧ c'.type = c.type
  values : ∀ row ∈ r.rows, ∀ c ∈ r.columns, a.convert c.type (row c.name) = row c.name
  outside : ∀ row ∈ r.rows, ∀ n ∉ r.columnNames, row n = .null

/-- The row keeps its id and the values of the columns that stay, converted to the affinity of a
column that is retyped. -/
structure RowKept (a : Affinity) (r r' : Relation SqlValue) (row row' : String → SqlValue) : Prop where
  id : row' "id" = row "id"
  retyped : ∀ c ∈ r.columns, ∀ c' ∈ r'.columns, c'.name = c.name → row' c.name = a.convert c'.type (row c.name)
  same : ∀ c ∈ r.columns, ∀ c' ∈ r'.columns, c'.name = c.name → c'.type = c.type → row' c.name = row c.name

namespace StoredTable

lemma id_mem (h : StoredTable a t r) : "id" ∈ r.columnNames := by
  obtain ⟨c, hc, hname, -⟩ := h.fixed { name := "id", type := "BLOB", notNull := true, length := some 16 }
    (mem_append_left _ (mem_append_left _ mem_cons_self))
  exact mem_map.mpr ⟨c, hc, hname⟩

lemma column_eq (h : StoredTable a t r) {c c' : Column} (hc : c ∈ r.columns) (hc' : c' ∈ r.columns)
    (he : c'.name = c.name) : c' = c := by
  have hnodup : (r.columns.map Column.name).Nodup := List.Nodup.of_map foldName h.columns
  exact inj_on_of_nodup_map hnodup hc' hc he

end StoredTable

lemma extendedAll_columns (d : Dialect SqlValue) (fs : List Field) (r : Relation SqlValue) :
    (extendedAll d fs r).columns =
      r.columns ++ fs.map fun f => { name := f.name, type := f.storageType.toSqlType } := by
  induction fs generalizing r with
  | nil => exact (append_nil _).symm
  | cons f fs ih => exact (ih _).trans (append_assoc r.columns [_] _)

lemma extendedAll_rows (d : Dialect SqlValue) (fs : List Field) (r : Relation SqlValue) :
    (extendedAll d fs r).rows = r.rows.map fun row n => if n ∈ fs.map Field.name then d.null else row n := by
  induction fs generalizing r with
  | nil => simp [extendedAll]
  | cons f fs ih =>
    refine (ih _).trans ?_
    change (r.rows.map fun row => Function.update row f.name d.null).map _ = _
    rw [map_map]
    refine map_congr_left fun row _ => ?_
    funext n
    rw [Function.comp_apply, map_cons]
    by_cases hn : n = f.name
    · simp [hn]
    · simp [hn]

lemma not_mem_of_allows_adds {d : Dialect SqlValue} (h : Allows d (adds t fs) r) :
    ∀ f ∈ fs, f.name ∉ r.columnNames := by
  induction fs generalizing r with
  | nil => exact fun f hf => absurd hf not_mem_nil
  | cons f fs ih =>
    rw [forall_mem_cons]
    refine ⟨fun hmem => h.1 (mem_map_of_mem hmem), fun g hg hmem => ih h.2 g hg ?_⟩
    change g.name ∈ (Table.extended d f r).columnNames
    rw [extended_columnNames]
    exact mem_append_left _ hmem

section Rebuilt

lemma carry_common (hnodup : (t.columnNames.map foldName).Nodup) {c : Column} (hc : c ∈ t.columns)
    (hmem : c.name ∈ buildCommonColumns t r.columnNames) :
    t.carry (sqlite a) r.columnNames row c.name = a.convert c.type (row c.name) := by
  have hnames : (t.columns.map Column.name).Nodup := List.Nodup.of_map foldName hnodup
  cases hfind : t.columns.find? (fun c' => c'.name = c.name) with
  | none =>
    have hnone := List.find?_eq_none.mp hfind c hc
    simp at hnone
  | some c' =>
    have hc' : c' = c := inj_on_of_nodup_map hnames (mem_of_find?_eq_some hfind) hc
      (by simpa using List.find?_some hfind)
    rw [carry_of_find hfind, if_pos hmem, hc']

lemma externalId_not_common (hnodup : (t.columnNames.map foldName).Nodup)
    (hu : t.isUsersTable = true) (old : List String) : "external_id" ∉ buildCommonColumns t old := by
  intro hmem
  rcases (mem_buildCommonColumns.mp hmem).2 with hs | ⟨f, hf, hname⟩
  · exact absurd hs (by decide)
  · -- a field of that name would be a second column of it
    have hnames : (t.columns.map Column.name).Nodup := List.Nodup.of_map foldName hnodup
    rw [Table.columns, map_append, map_append, append_assoc, nodup_append] at hnames
    refine hnames.2.2 "external_id" ?_ "external_id" ?_ rfl
    · rw [Table.fixedLeadingColumns, if_pos hu]
      exact mem_map_of_mem (f := Column.name) (mem_append_right _ mem_cons_self)
    · refine mem_append_left _ ?_
      rw [map_map]
      exact mem_map.mpr ⟨f, hf, hname.symm⟩

lemma rows_nil_of_rebuilt_users (hu : t.isUsersTable = true) (hnodup : (t.columnNames.map foldName).Nodup)
    (hvalid : (t.rebuilt (sqlite a) r).Valid (sqlite a)) : r.rows = [] := by
  rw [eq_nil_iff_forall_not_mem]
  intro row hrow
  have hmem : ({ name := "external_id", type := "TEXT", notNull := true } : Column) ∈ t.columns := by
    refine mem_append_left _ (mem_append_left _ ?_)
    rw [Table.fixedLeadingColumns, if_pos hu]
    exact mem_append_right _ mem_cons_self
  have hadmits := hvalid.admits _ (mem_map_of_mem (f := t.carry (sqlite a) r.columnNames) hrow)
  refine (hadmits _ hmem).1 rfl ?_
  cases hfind : t.columns.find? (fun c' => c'.name = "external_id") with
  | none => exact carry_of_find_none hfind
  | some c => exact (carry_of_find hfind).trans (if_neg (externalId_not_common hnodup hu _))

lemma rowKept_rebuilt (hs : StoredTable a t r) (hnodup : (t.columnNames.map foldName).Nodup)
    (hu : t.isUsersTable = false) (hrow : row ∈ r.rows) :
    RowKept a r (t.rebuilt (sqlite a) r) row (t.carry (sqlite a) r.columnNames row) := by
  have hcarry : ∀ c ∈ r.columns, ∀ c' ∈ t.columns, c'.name = c.name →
      t.carry (sqlite a) r.columnNames row c.name = a.convert c'.type (row c.name) := by
    intro c hc c' hc' he
    rw [← he]
    refine carry_common hnodup hc' (mem_buildCommonColumns.mpr ⟨?_, ?_⟩)
    · exact mem_map.mpr ⟨c, hc, he.symm⟩
    · have hmem : c'.name ∈ t.columnNames := mem_map_of_mem hc'
      rcases Table.mem_columnNames.mp hmem with hsys | hfield | ⟨husers, -⟩
      · exact .inl hsys
      · exact .inr hfield
      · rw [hu] at husers
        cases husers
  refine ⟨?_, hcarry, fun c hc c' hc' he ht => ?_⟩
  · obtain ⟨c, hc, hname⟩ := mem_map.mp hs.id_mem
    have hid := hcarry c hc { name := "id", type := "BLOB", notNull := true, length := some 16 }
      (mem_append_left _ (mem_append_left _ (mem_append_left _ mem_cons_self)))
      hname.symm
    rw [hname] at hid
    rw [hid, a.convert_blob]
  · rw [hcarry c hc c' hc' he, ht]
    exact hs.values row hrow c hc

end Rebuilt

lemma rowKept_unrebuilt (hs : StoredTable a t r) (hnew : ∀ f ∈ fs, f.name ∉ r.columnNames)
    (hcols : r'.columns = (extendedAll (sqlite a) fs r).columns) (hrow : row ∈ r.rows) :
    RowKept a r r' row fun n => if n ∈ fs.map Field.name then .null else row n := by
  have hold : ∀ n ∈ r.columnNames, n ∉ fs.map Field.name := by
    intro n hn hmem
    obtain ⟨f, hf, rfl⟩ := mem_map.mp hmem
    exact hnew f hf hn
  have hname : ∀ c ∈ r.columns, c.name ∉ fs.map Field.name := fun c hc =>
    hold _ (mem_map_of_mem hc)
  refine ⟨if_neg (hold _ hs.id_mem), fun c hc c' hc' he => ?_, fun c hc _ _ _ _ => if_neg (hname c hc)⟩
  rw [hcols, extendedAll_columns, mem_append] at hc'
  rw [if_neg (hname c hc)]
  rcases hc' with hc' | hc'
  · rw [hs.column_eq hc hc' he, hs.values row hrow c hc]
  · obtain ⟨f, hf, rfl⟩ := mem_map.mp hc'
    exact absurd (mem_map.mpr ⟨f, hf, he⟩) (hname c hc)

section Samples

/-- The number that a text of decimal digits stands for. -/
def asDecimal (text : Bytes) : Option ℤ :=
  if text = [] then none
  else text.foldlM (fun v c => if 48 ≤ c ∧ c ≤ 57 then some (v * 10 + (c.toNat - 48 : ℕ)) else none) 0

def decimalAffinity : Affinity where
  convert type v :=
    match v with
    | .text text =>
      if type = "INTEGER" then ((asDecimal text).map SqlValue.integer).getD v else v
    | _ => v
  length v :=
    match v with
    | .blob bytes => some bytes.length
    | _ => none
  convert_eq_null type v := by
    cases v with
    | text text =>
      by_cases h : type = "INTEGER"
      · cases hd : asDecimal text <;> simp [h, hd]
      · simp [h]
    | _ => simp
  convert_convert type v := by
    cases v with
    | text text =>
      by_cases h : type = "INTEGER"
      · cases hd : asDecimal text <;> simp [h, hd]
      · simp [h]
    | _ => rfl
  convert_blob v := by
    cases v <;> simp
  length_null := rfl

def rowOf (values : List (String × SqlValue)) : String → SqlValue := fun n =>
  ((values.find? fun v => v.1 = n).map Prod.snd).getD .null

lemma rowOf_of_not_mem {values : List (String × SqlValue)} (h : n ∉ values.map Prod.fst) :
    rowOf values n = .null := by
  have hnone : values.find? (fun v => v.1 = n) = none := by
    rw [List.find?_eq_none]
    intro v hv he
    exact h (mem_map.mpr ⟨v, hv, of_decide_eq_true he⟩)
  rw [rowOf, hnone]
  rfl

def countTable (type : FieldType) (h : type ≠ .docId ∧ type ≠ .array) : Table where
  name := "tasks"
  userFields := [.plain "count" type]
  fields_wellFormed := List.forall_mem_singleton.mpr (Field.plain_wellFormed h)
  names_nodup := by
    change ["id", "namespace_id", "owner_id", "count", "created_at", "updated_at"].Nodup
    decide

def countSchema (type : FieldType) (h : type ≠ .docId ∧ type ≠ .array) : Schema :=
  soloSchema (countTable type h) rfl (by simp [countTable])

def someId : Bytes := [0, 0, 0, 0, 0, 0, 0, 0, 0, 0, 0, 0, 0, 0, 0, 7]

def countRow : String → SqlValue :=
  rowOf [("id", .blob someId), ("namespace_id", .integer 0), ("owner_id", .blob someId),
    ("count", .text [53]), ("created_at", .integer 1), ("updated_at", .integer 1)]

def countDb : Db SqlValue :=
  Db.empty.set "tasks" ((countTable .text (by decide)).built [countRow])

def noHash : HashOrder := ⟨id, fun _ => List.Perm.refl _⟩

lemma stored_countDb : ∀ t ∈ (countSchema .integer (by decide)).tables, ∀ r,
    countDb.get (t.key (sqlite decimalAffinity)) = some r → StoredTable decimalAffinity t r := by
  intro t ht r hr
  rw [mem_singleton.mp ht] at hr ⊢
  have hkey : (countTable .integer (by decide)).key (sqlite decimalAffinity) = "tasks" := by decide
  rw [hkey, countDb, Db.get_set_self] at hr
  cases hr
  refine ⟨by decide, by decide, by decide, fun row hrow n hn => ?_⟩
  rw [mem_singleton.mp hrow]
  exact rowOf_of_not_mem hn

end Samples

section Migration

variable {config : MigrationConfig} {faults : ℕ → Bool} {conn : DbConnection} {plan : MigrationPlan}
  {version : Bytes} {now : ℤ}

/-- Every row of an existing table is kept. Tables outside the target are as they were. -/
structure RowsPreserved (a : Affinity) (target : Schema) (db db' : Db SqlValue) : Prop where
  tables : ∀ t ∈ target.tables, ∀ r, db.get (t.key (sqlite a)) = some r →
    ∃ r', db'.get (t.key (sqlite a)) = some r' ∧ List.Forall₂ (RowKept a r r') r.rows r'.rows
  others : ∀ k ∉ target.tables.map (Table.key (sqlite a)), k ≠ foldName "schema_meta" → db'.get k = db.get k

lemma forall₂_map {α β : Type*} {R : α → β → Prop} {as : List α} {f : α → β}
    (h : ∀ a ∈ as, R a (f a)) : List.Forall₂ R as (as.map f) := by
  rw [forall₂_map_right_iff, forall₂_same]
  exact h

lemma rowsKept_of_final {rebuilds : Bool} (hs : StoredTable a t r)
    (h : FinalTable a t r rebuilds r') : List.Forall₂ (RowKept a r r') r.rows r'.rows := by
  cases h with
  | rebuilt hnodup hvalid =>
    cases hu : t.isUsersTable with
    | true =>
      have hnil := rows_nil_of_rebuilt_users hu hnodup hvalid
      change List.Forall₂ _ r.rows (r.rows.map _)
      rw [hnil]
      exact .nil
    | false => exact forall₂_map fun row hrow => rowKept_rebuilt hs hnodup hu hrow
  | unrebuilt r' fs h =>
    have hnew := not_mem_of_allows_adds h.allows
    have hrows : r'.rows = (extendedAll (sqlite a) fs r).rows := by
      obtain ⟨rfl, -⟩ | ⟨rfl, -⟩ := h.indexes <;> rfl
    have hcols : r'.columns = (extendedAll (sqlite a) fs r).columns := by
      obtain ⟨rfl, -⟩ | ⟨rfl, -⟩ := h.indexes <;> rfl
    rw [hrows, extendedAll_rows]
    exact forall₂_map fun row hrow => rowKept_unrebuilt hs hnew hcols hrow

lemma rowsPreserved_of_migrated (hplan : detectChanges (sqlite a) hash current db target = .ok plan)
    (hkeys : (target.tables.map (Table.key (sqlite a))).Nodup)
    (hversion : ∀ t ∈ target.tables, t.key (sqlite a) ≠ foldName "schema_meta")
    (hstored : ∀ t ∈ target.tables, ∀ r, db.get (t.key (sqlite a)) = some r → StoredTable a t r)
    (h : migrated (sqlite a) plan version now db = some db') : RowsPreserved a target db db' := by
  obtain ⟨htables, hothers⟩ := tables_of_migrated hplan hkeys hversion
    (fun t ht r hr => (hstored t ht r hr).id_mem) h
  refine ⟨fun t ht r hr => ?_, hothers⟩
  obtain ⟨cs, -, -, hfinal⟩ := htables t ht
  obtain ⟨-, r', hr', hform⟩ := hfinal r hr
  exact ⟨r', hr', rowsKept_of_final (hstored t ht r hr) hform⟩

/-- A migration that succeeds keeps every row with its id and the values of the columns that stay,
a retyped column converting its values. A migration of which a step up to and including `COMMIT` fails leaves
the database as it was; one that fails behind it, where the enforcement of foreign keys comes back, is done. -/
theorem migration_preserves_rows (hopen : conn.transaction = none)
    (hplan : detectChanges (sqlite a) hash current conn.committed target = .ok plan)
    (hkeys : (target.tables.map (Table.key (sqlite a))).Nodup)
    (hversion : ∀ t ∈ target.tables, t.key (sqlite a) ≠ foldName "schema_meta")
    (hstored : ∀ t ∈ target.tables, ∀ r, conn.committed.get (t.key (sqlite a)) = some r →
      StoredTable a t r) :
    (match execute (sqlite a) config faults plan version now conn with
    | .ok _ conn' => RowsPreserved a target conn.committed conn'.committed
    | .error _ conn' =>
      match throughCommit (sqlite a) faults config plan version now conn with
      | .ok _ _ => RowsPreserved a target conn.committed conn'.committed
      | .error _ _ => conn'.committed = conn.committed) ∧
    ∀ e conn', throughCommit (sqlite a) faults config plan version now conn = .error e conn' →
      ∃ conn'', execute (sqlite a) config faults plan version now conn = .error e conn'' := by
  have hcases := @execute_cases (sqlite a) faults conn config plan version now hopen
  cases hthrough : throughCommit (sqlite a) faults config plan version now conn with
  | error e conn' =>
    rw [hthrough] at hcases
    obtain ⟨conn'', herr, hsame⟩ := hcases
    rw [herr]
    refine ⟨hsame, fun e' conn' h => ?_⟩
    cases h
    exact ⟨conn'', rfl⟩
  | ok _ conn' =>
    rw [hthrough] at hcases
    have hkept := rowsPreserved_of_migrated hplan hkeys hversion hstored hcases
    refine ⟨?_, nofun⟩
    cases hrun : execute (sqlite a) config faults plan version now conn with
    | ok _ conn'' => rwa [hrun] at hkept
    | error e conn'' => rwa [hrun] at hkept

def retypedCounts : Option (List SqlValue) :=
  match detectChanges (sqlite decimalAffinity) noHash (countSchema .text (by decide)) countDb
      (countSchema .integer (by decide)) with
  | .error _ => none
  | .ok plan =>
    match execute (sqlite decimalAffinity) { allowDestructive := true } (fun _ => false) plan
        [49, 46, 48, 46, 48] 0 { committed := countDb } with
    | .error _ _ => none
    | .ok _ conn => (conn.committed.get "tasks").map fun r => r.rows.map fun row => row "count"

lemma retypedCounts_eq : retypedCounts = some [.integer 5] := by decide +kernel

lemma detects_countDb : ∃ plan, detectChanges (sqlite decimalAffinity) noHash
    (countSchema .text (by decide)) countDb (countSchema .integer (by decide)) = .ok plan := by
  have hcounts := retypedCounts_eq
  unfold retypedCounts at hcounts
  split at hcounts
  · cases hcounts
  · rename_i plan hplan
    exact ⟨plan, hplan⟩

theorem countTasks_preserved : ∃ plan,
    match execute (sqlite decimalAffinity) { allowDestructive := true } (fun _ => false) plan
      [49, 46, 48, 46, 48] 0 { committed := countDb } with
    | .ok _ conn' => RowsPreserved decimalAffinity (countSchema .integer (by decide)) countDb conn'.committed
    | .error _ conn' =>
      match throughCommit (sqlite decimalAffinity) (fun _ => false) { allowDestructive := true } plan
        [49, 46, 48, 46, 48] 0 { committed := countDb } with
      | .ok _ _ => RowsPreserved decimalAffinity (countSchema .integer (by decide)) countDb conn'.committed
      | .error _ _ => conn'.committed = countDb := by
  obtain ⟨plan, hplan⟩ := detects_countDb
  have hkept := @migration_preserves_rows decimalAffinity noHash (countSchema .text (by decide))
    (countSchema .integer (by decide)) { allowDestructive := true } (fun _ => false) { committed := countDb } plan
    [49, 46, 48, 46, 48] 0 rfl hplan (by decide) (by decide) stored_countDb
  exact ⟨plan, hkept.1⟩

/-- The column stays, its value does not: the text `5` becomes the number. -/
theorem retyped_value_changes :
    (countDb.get "tasks").map (fun r => r.rows.map fun row => row "count") = some [.text [53]] ∧
      retypedCounts = some [.integer 5] :=
  ⟨by decide, retypedCounts_eq⟩

end Migration

end ZyncBase
