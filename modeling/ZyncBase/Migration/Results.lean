import ZyncBase.Migration.Commit

/-! The table that a plan which runs makes of an existing table: the old one with new columns, or
the new one with the rows carried over. -/
namespace ZyncBase

open Catalog Function List Outcome

variable {d : Dialect SqlValue} {hash : HashOrder} {current : Schema} {db : Db SqlValue} {t : Table}
  {r : Relation SqlValue} {cs : List Change}

section Detection

/-- The changes of removed columns: one for each column that the target lacks. -/
structure Removes (t : Table) (existing : List Column) (removed : List Change) : Prop where
  table : ∀ c ∈ removed, c.table = t ∧ c.kind = .removeColumn
  nil : removed = [] ↔ ∀ c ∈ existing, ∃ f ∈ t.userFields, f.name = c.name

lemma removes_of_detectRemovedColumn {c : Column} {changes : List Change}
    (h : detectRemovedColumn current t c = .ok changes) : Removes t [c] changes := by
  rw [detectRemovedColumn] at h
  split_ifs at h with hany
  · cases h
    exact ⟨fun _ h => absurd h not_mem_nil, by simpa using hany⟩
  · have hnone : ¬ ∃ f ∈ t.userFields, f.name = c.name := by simpa using hany
    cases hf : (current.table t.name).bind fun ct => ct.userFields.find? fun f => f.name = c.name with
    | none =>
      rw [hf] at h
      cases h
    | some f =>
      rw [hf] at h
      cases h
      exact ⟨by simp, by simpa using hnone⟩

lemma removes_of_detectRemovedColumns {existing : List Column} {removed : List Change}
    (h : detectRemovedColumns hash current t existing = .ok removed) : Removes t existing removed := by
  obtain ⟨changes, hmap, hflat⟩ := bind_eq_ok.mp h
  cases hflat
  -- the order of the hash map does not matter for what is said of the changes
  have hgeneral : ∀ {columns : List Column} {changes : List (List Change)},
      List.Forall₂ (fun c x => detectRemovedColumn current t c = .ok x) columns changes →
        Removes t columns changes.flatten := by
    intro columns changes hall
    induction hall with
    | nil => exact ⟨fun _ h => absurd h not_mem_nil, by simp⟩
    | @cons c x columns changes hc _ ih =>
      have hone := removes_of_detectRemovedColumn hc
      rw [flatten_cons]
      constructor
      · intro y hy
        exact (mem_append.mp hy).elim (hone.table y) (ih.table y)
      · rw [append_eq_nil_iff, hone.nil, ih.nil, ← forall_mem_append, singleton_append]
  have horder := hgeneral (mapM_eq_ok.mp hmap)
  refine ⟨horder.table, horder.nil.trans ?_⟩
  exact forall_congr' fun c => by rw [(hash.perm existing).mem_iff]

/-- The columns that the schema decides on. -/
def userColumns (t : Table) (r : Relation SqlValue) : List Column :=
  r.columns.filter fun c => !isManagedColumn t c.name

/-- What the table's keys and indexes still ask for when its columns ask for no rebuild. -/
def keyChanges (t : Table) (r : Relation SqlValue) : List Change :=
  if !foreignKeysMatch t.userFields (r.foreignKeys.reverse.flatMap ForeignKey.listed) then
    [{ kind := .changeForeignKeys, table := t, field := none }]
  else if !managedIndexesMatch t.name (t.managedIndexes.map (ManagedIndex.toIndex t)) r.indexes then
    [{ kind := .changeIndexes, table := t, field := none }]
  else []

lemma changes_of_missing (hr : db.get (t.key d) = none) (h : appendTableChanges d hash current db t = .ok cs) :
    cs = [{ kind := .createTable, table := t, field := none }] := by
  obtain ⟨⟨existing, tableExists⟩, hquery, h⟩ := bind_eq_ok.mp h
  rw [queryExistingColumns] at hquery
  split_ifs at hquery with hword
  have hinfo : tableInfo d db t.name = [] := by
    rw [tableInfo, show db.get (d.fold t.name) = none from hr]
    rfl
  rw [hinfo] at hquery
  cases hquery
  cases h
  rfl

/-- The changes found for an existing table: those of its columns, then of its keys unless the
columns already ask for a rebuild. -/
lemma changes_of_existing (hr : db.get (t.key d) = some r) (hne : r.columns ≠ [])
    (h : appendTableChanges d hash current db t = .ok cs) :
    ∃ removed, Removes t (userColumns t r) removed ∧
      cs = (detectColumnChanges t (userColumns t r) ++ removed) ++
        if hasScheduledRebuild (detectColumnChanges t (userColumns t r) ++ removed) then []
        else keyChanges t r := by
  obtain ⟨⟨existing, tableExists⟩, hquery, h⟩ := bind_eq_ok.mp h
  rw [queryExistingColumns] at hquery
  split_ifs at hquery with hword
  have hinfo : tableInfo d db t.name = r.columns := by
    rw [tableInfo, show db.get (d.fold t.name) = some r from hr]
    rfl
  have hempty : r.columns.isEmpty = false := isEmpty_eq_false_iff.mpr hne
  rw [hinfo] at hquery
  dsimp only at hquery
  rw [hempty] at hquery
  cases hquery
  obtain ⟨removed, hremoved, h⟩ := bind_eq_ok.mp h
  refine ⟨removed, removes_of_detectRemovedColumns hremoved, ?_⟩
  have hkeys : foreignKeyList d db t.name = r.foreignKeys.reverse.flatMap ForeignKey.listed := by
    rw [foreignKeyList, show db.get (d.fold t.name) = some r from hr]
    rfl
  have hindexes : indexList d db t.name = r.indexes := by
    rw [indexList, show db.get (d.fold t.name) = some r from hr]
    rfl
  rw [hkeys, hindexes] at h
  change (if hasScheduledRebuild (detectColumnChanges t (userColumns t r) ++ removed) = true then
    pure (detectColumnChanges t (userColumns t r) ++ removed) else _) = _ at h
  rw [keyChanges]
  split_ifs at h ⊢ with hrebuild hfk hidx
  · cases h
    exact (append_nil _).symm
  · cases h
    rfl
  · cases h
    rfl
  · cases h
    exact (append_nil _).symm

end Detection

section Carry

variable {a : Affinity} {n : String} {old : List String} {row : String → SqlValue}

lemma carry_of_find_none (h : t.columns.find? (fun c => c.name = n) = none) :
    t.carry (sqlite a) old row n = .null := by
  rw [Table.carry, Relation.place, show (t.created : Relation SqlValue).columns.find? _ = none from h]
  rfl

lemma carry_of_find {c : Column} (h : t.columns.find? (fun c => c.name = n) = some c) :
    t.carry (sqlite a) old row n =
      if n ∈ buildCommonColumns t old then a.convert c.type (row n) else .null := by
  rw [Table.carry, Relation.place, show (t.created : Relation SqlValue).columns.find? _ = some c from h]
  rfl

lemma carry_carry : t.carry (sqlite a) t.columnNames (t.carry (sqlite a) old row) =
    t.carry (sqlite a) old row := by
  funext n
  cases hc : t.columns.find? (fun c => c.name = n) with
  | none => rw [carry_of_find_none hc, carry_of_find_none hc]
  | some c =>
    rw [carry_of_find hc, carry_of_find hc]
    have hmem : n ∈ t.columnNames :=
      mem_map.mpr ⟨c, mem_of_find?_eq_some hc, by simpa using List.find?_some hc⟩
    by_cases hold : n ∈ buildCommonColumns t old
    · have hnew : n ∈ buildCommonColumns t t.columnNames :=
        mem_buildCommonColumns.mpr ⟨hmem, (mem_buildCommonColumns.mp hold).2⟩
      rw [if_pos hnew, if_pos hold, a.convert_convert]
    · rw [if_neg hold, a.convert_null, ite_self]

lemma carry_extended {f : Field} (hf : f.name ∉ old) :
    t.carry (sqlite a) (old ++ [f.name]) (update row f.name .null) = t.carry (sqlite a) old row := by
  funext n
  cases hc : t.columns.find? (fun c => c.name = n) with
  | none => rw [carry_of_find_none hc, carry_of_find_none hc]
  | some c =>
    rw [carry_of_find hc, carry_of_find hc]
    by_cases hn : n = f.name
    · have hno : n ∉ buildCommonColumns t old := fun h => hf (hn ▸ (mem_buildCommonColumns.mp h).1)
      rw [if_neg hno, hn, update_self, a.convert_null, ite_self]
    · have hiff : n ∈ buildCommonColumns t (old ++ [f.name]) ↔ n ∈ buildCommonColumns t old := by
        simp [mem_buildCommonColumns, hn]
      rw [update_of_ne hn]
      simp only [hiff]

lemma rebuilt_rebuilt : t.rebuilt (sqlite a) (t.rebuilt (sqlite a) r) = t.rebuilt (sqlite a) r := by
  have hrows : (t.rebuilt (sqlite a) r).rows.map (t.carry (sqlite a) t.columnNames) =
      (t.rebuilt (sqlite a) r).rows := by
    change (r.rows.map _).map _ = r.rows.map _
    rw [map_map]
    exact map_congr_left fun row _ => carry_carry
  exact congrArg t.built hrows

lemma extended_columnNames (f : Field) (r : Relation SqlValue) :
    (Table.extended d f r).columnNames = r.columnNames ++ [f.name] := by
  rw [Relation.columnNames, Relation.columnNames, Table.extended, map_append]
  rfl

lemma rebuilt_extended {f : Field} (hf : f.name ∉ r.columnNames) :
    t.rebuilt (sqlite a) (Table.extended (sqlite a) f r) = t.rebuilt (sqlite a) r := by
  have hrows : (Table.extended (sqlite a) f r).rows.map
      (t.carry (sqlite a) (Table.extended (sqlite a) f r).columnNames) =
        r.rows.map (t.carry (sqlite a) r.columnNames) := by
    rw [extended_columnNames]
    change (r.rows.map _).map _ = r.rows.map _
    rw [map_map]
    exact map_congr_left fun row _ => carry_extended hf
  exact congrArg t.built hrows

end Carry

section Normal

variable {a : Affinity} {fs : List Field}

def adds (t : Table) (fs : List Field) : List Change :=
  fs.map fun f => { kind := .addColumn, table := t, field := some f }

def extendedAll (d : Dialect SqlValue) (fs : List Field) (r : Relation SqlValue) :
    Relation SqlValue := fs.foldl (fun r f => Table.extended d f r) r

lemma effects_adds (fs : List Field) (r : Relation SqlValue) :
    effects d (adds t fs) r = extendedAll d fs r := by
  induction fs generalizing r with
  | nil => rfl
  | cons f fs ih => exact ih _

lemma effect_rebuilds {c : Change} (h : c.kind.rebuilds = true) : c.effect d r = c.table.rebuilt d r := by
  obtain ⟨kind, t, field⟩ := c
  cases kind <;> first | rfl | cases h

lemma allowed_rebuilds {c : Change} (h : c.kind.rebuilds = true) :
    c.Allowed d r ↔ (c.table.columnNames.map d.fold).Nodup ∧ (c.table.rebuilt d r).Valid d := by
  obtain ⟨kind, t, field⟩ := c
  cases kind <;> first | rfl | cases h

def FrontChange (t : Table) (c : Change) : Prop :=
  c.table = t ∧ ((c.kind = .addColumn ∧ ∃ f ∈ t.userFields, c.field = some f) ∨ c.kind.rebuilds = true)

lemma rebuilds_of_allows (hcs : ∀ c ∈ cs, FrontChange t c) (hcols : t.columnNames ⊆ r.columnNames)
    (h : Allows d cs r) : ∀ c ∈ cs, c.kind.rebuilds = true := by
  induction cs generalizing r with
  | nil => exact fun c hc => absurd hc not_mem_nil
  | cons c cs ih =>
    rw [forall_mem_cons] at hcs ⊢
    obtain ⟨⟨htable, ⟨hkind, f, hf, hfield⟩ | hrebuild⟩, hcs⟩ := hcs
    · obtain ⟨kind, u, field⟩ := c
      cases hkind
      cases hfield
      refine absurd ?_ h.1
      exact mem_map_of_mem (hcols (Table.mem_columnNames.mpr (.inr (.inl ⟨f, hf, rfl⟩))))
    · refine ⟨hrebuild, ih hcs ?_ h.2⟩
      rw [effect_rebuilds hrebuild, htable]
      exact List.Subset.refl _

lemma split_of_allows (hcs : ∀ c ∈ cs, FrontChange t c) (h : Allows d cs r) :
    ∃ fs rs, cs = adds t fs ++ rs ∧ (∀ f ∈ fs, f ∈ t.userFields) ∧
      ∀ c ∈ rs, c.table = t ∧ c.kind.rebuilds = true := by
  induction cs generalizing r with
  | nil => exact ⟨[], [], rfl, fun f hf => absurd hf not_mem_nil, fun c hc => absurd hc not_mem_nil⟩
  | cons c cs ih =>
    rw [forall_mem_cons] at hcs
    obtain ⟨⟨htable, ⟨hkind, f, hf, hfield⟩ | hrebuild⟩, hcs⟩ := hcs
    · obtain ⟨fs, rs, rfl, hfs, hrs⟩ := ih hcs h.2
      obtain ⟨kind, u, field⟩ := c
      cases hkind
      cases hfield
      cases htable
      exact ⟨f :: fs, rs, rfl, forall_mem_cons.mpr ⟨hf, hfs⟩, hrs⟩
    · refine ⟨[], c :: cs, rfl, fun f hf => absurd hf not_mem_nil, ?_⟩
      rw [forall_mem_cons]
      have hrest := h.2
      rw [effect_rebuilds hrebuild, htable] at hrest
      exact ⟨⟨htable, hrebuild⟩, fun x hx =>
        ⟨(hcs x hx).1, rebuilds_of_allows hcs (List.Subset.refl _) hrest x hx⟩⟩

lemma effects_rebuilds (hcs : ∀ c ∈ cs, c.table = t ∧ c.kind.rebuilds = true) (hne : cs ≠ []) :
    effects (sqlite a) cs r = t.rebuilt (sqlite a) r := by
  induction cs generalizing r with
  | nil => exact absurd rfl hne
  | cons c cs ih =>
    rw [forall_mem_cons] at hcs
    have hhead : effects (sqlite a) (c :: cs) r = effects (sqlite a) cs (t.rebuilt (sqlite a) r) := by
      change effects (sqlite a) cs (c.effect (sqlite a) r) = _
      rw [effect_rebuilds hcs.1.2, hcs.1.1]
    rw [hhead]
    cases cs with
    | nil => rfl
    | cons c' cs => rw [ih hcs.2 (cons_ne_nil _ _), rebuilt_rebuilt]

lemma rebuilt_extendedAll (h : Allows (sqlite a) (adds t fs) r) :
    t.rebuilt (sqlite a) (extendedAll (sqlite a) fs r) = t.rebuilt (sqlite a) r := by
  induction fs generalizing r with
  | nil => rfl
  | cons f fs ih =>
    have hnew : f.name ∉ r.columnNames := fun hmem => h.1 (mem_map_of_mem hmem)
    exact (ih h.2).trans (rebuilt_extended hnew)

lemma front_detectColumnChanges {existing : List Column} {c : Change}
    (hc : c ∈ detectColumnChanges t existing) : FrontChange t c := by
  obtain ⟨f, hf, hsome⟩ := mem_filterMap.mp hc
  split_ifs at hsome with hmanaged
  split at hsome
  · split_ifs at hsome
    cases hsome
    exact ⟨rfl, .inr rfl⟩
  · cases hsome
    exact ⟨rfl, .inl ⟨rfl, f, hf, rfl⟩⟩

lemma rebuilds_append (cs cs' : List Change) :
    hasScheduledRebuild (cs ++ cs') = (hasScheduledRebuild cs || hasScheduledRebuild cs') :=
  any_append

lemma rebuilds_adds (fs : List Field) : hasScheduledRebuild (adds t fs) = false := by
  rw [hasScheduledRebuild, adds, any_map, any_eq_false]
  exact fun f _ => Bool.false_ne_true

/-- How the table ends when nothing asks for a rebuild: with new columns, and with its managed
indexes anew unless they match. -/
structure Unrebuilt (a : Affinity) (t : Table) (r r' : Relation SqlValue) (fs : List Field) : Prop where
  added : detectColumnChanges t (userColumns t r) = adds t fs
  allows : Allows (sqlite a) (adds t fs) r
  kept : ∀ c ∈ userColumns t r, ∃ f ∈ t.userFields, f.name = c.name
  foreignKeys : foreignKeysMatch t.userFields (r.foreignKeys.reverse.flatMap ForeignKey.listed) = true
  indexes : (r' = extendedAll (sqlite a) fs r ∧
      managedIndexesMatch t.name (t.managedIndexes.map (ManagedIndex.toIndex t)) r.indexes = true) ∨
    (r' = t.reindexed (sqlite a) (extendedAll (sqlite a) fs r) ∧
      ∀ i ∈ t.indexes, (extendedAll (sqlite a) fs r).CanIndex (sqlite a) i)

/-- A table whose changes were all allowed is rebuilt once, or keeps its rows and gets columns. -/
lemma final_of_allows (hr : db.get (t.key (sqlite a)) = some r) (hne : r.columns ≠ [])
    (hcs : appendTableChanges (sqlite a) hash current db t = .ok cs) (h : Allows (sqlite a) cs r) :
    (hasScheduledRebuild cs = true ∧ effects (sqlite a) cs r = t.rebuilt (sqlite a) r ∧
        (t.columnNames.map foldName).Nodup ∧ (t.rebuilt (sqlite a) r).Valid (sqlite a)) ∨
      (hasScheduledRebuild cs = false ∧ ∃ fs, Unrebuilt a t r (effects (sqlite a) cs r) fs) := by
  obtain ⟨removed, hremoved, rfl⟩ := changes_of_existing hr hne hcs
  have hfront : ∀ c ∈ detectColumnChanges t (userColumns t r) ++ removed, FrontChange t c := by
    intro c hc
    rcases mem_append.mp hc with hc | hc
    · exact front_detectColumnChanges hc
    · have hkind := hremoved.table c hc
      exact ⟨hkind.1, .inr (by rw [hkind.2]; rfl)⟩
  obtain ⟨hallow, htail⟩ := allows_append.mp h
  obtain ⟨fs, rs, hsplit, hfs, hrs⟩ := split_of_allows hfront hallow
  have hadds : Allows (sqlite a) (adds t fs) r := by
    rw [hsplit] at hallow
    exact (allows_append.mp hallow).1
  -- a nonempty list of rebuilds after the added fields is one rebuild of the old table
  have hone : ∀ cs, (∀ c ∈ cs, c.table = t ∧ c.kind.rebuilds = true) → cs ≠ [] →
      Allows (sqlite a) (adds t fs ++ cs) r → effects (sqlite a) (adds t fs ++ cs) r =
        t.rebuilt (sqlite a) r ∧ (t.columnNames.map foldName).Nodup ∧
          (t.rebuilt (sqlite a) r).Valid (sqlite a) := by
    intro cs hcs hne hall
    have heffects : effects (sqlite a) (adds t fs ++ cs) r = t.rebuilt (sqlite a) r := by
      rw [effects_append, effects_adds, effects_rebuilds hcs hne, rebuilt_extendedAll hadds]
    refine ⟨heffects, ?_⟩
    cases cs with
    | nil => exact absurd rfl hne
    | cons c cs =>
      have hfirst := (allows_append.mp hall).2.1
      rw [effects_adds, allowed_rebuilds (hcs c mem_cons_self).2,
        (hcs c mem_cons_self).1, rebuilt_extendedAll hadds] at hfirst
      exact hfirst
  cases rs with
  | cons c rs =>
    have hrebuild : hasScheduledRebuild (detectColumnChanges t (userColumns t r) ++ removed) = true := by
      rw [hsplit, rebuilds_append, Bool.or_eq_true]
      exact .inr (any_eq_true.mpr ⟨c, mem_cons_self, (hrs c mem_cons_self).2⟩)
    rw [hrebuild, if_pos rfl, append_nil, hsplit]
    rw [hsplit] at hallow hrebuild
    exact .inl ⟨hrebuild, hone _ hrs (cons_ne_nil _ _) hallow⟩
  | nil =>
    rw [append_nil] at hsplit
    have hnone : hasScheduledRebuild (detectColumnChanges t (userColumns t r) ++ removed) = false := by
      rw [hsplit, rebuilds_adds]
    have hremoved' : removed = [] := by
      rw [eq_nil_iff_forall_not_mem]
      intro c hc
      have hfalse := any_eq_false.mp hnone c (mem_append_right _ hc)
      rw [(hremoved.table c hc).2] at hfalse
      exact hfalse rfl
    subst hremoved'
    rw [append_nil] at hsplit hnone htail ⊢
    rw [hnone, if_neg Bool.false_ne_true] at htail ⊢
    rw [hsplit] at htail ⊢
    have hkept := hremoved.nil.mp rfl
    rw [keyChanges] at htail ⊢
    split_ifs at htail ⊢ with hfk hidx
    · refine .inl ⟨?_, hone _ ?_ (cons_ne_nil _ _) (allows_append.mpr ⟨hadds, htail⟩)⟩
      · rw [rebuilds_append, rebuilds_adds]
        rfl
      · exact forall_mem_singleton.mpr ⟨rfl, rfl⟩
    · refine .inr ⟨?_, fs, hsplit, hadds, hkept, by simpa using hfk, .inr ?_⟩
      · rw [rebuilds_append, rebuilds_adds]
        rfl
      · rw [effects_adds] at htail
        rw [effects_append, effects_adds]
        exact ⟨rfl, htail.1⟩
    · rw [append_nil]
      exact .inr ⟨rebuilds_adds fs, fs, hsplit, hadds, hkept, by simpa using hfk,
        .inl ⟨effects_adds fs r, by simpa using hidx⟩⟩

end Normal

section Plan

variable {target : Schema} {plan : MigrationPlan} {css : List (List Change)}

lemma changes_of_detectChanges (h : detectChanges d hash current db target = .ok plan) :
    ∃ css, List.Forall₂ (fun t cs => appendTableChanges d hash current db t = .ok cs) target.tables css ∧
      plan.changes = css.flatten ∧ plan.isDestructive = hasScheduledRebuild css.flatten := by
  obtain ⟨css, hmap, hplan⟩ := bind_eq_ok.mp h
  cases hplan
  exact ⟨css, mapM_eq_ok.mp hmap, rfl, rfl⟩

lemma changesOf_of_append (hne : ∀ r, db.get (t.key d) = some r → r.columns ≠ [])
    (h : appendTableChanges d hash current db t = .ok cs) : ChangesOf d db t cs := by
  cases hr : db.get (t.key d) with
  | none =>
    have hcreate := changes_of_missing hr h
    refine ⟨fun _ => hcreate, fun c hc => ?_⟩
    rw [hcreate] at hc
    rw [mem_singleton.mp hc]
  | some r =>
    obtain ⟨removed, hremoved, rfl⟩ := changes_of_existing hr (hne r hr) h
    refine ⟨fun hnone => ?_, fun c hc => ?_⟩
    · cases hr.symm.trans hnone
    · rcases mem_append.mp hc with hc | hc
      · rcases mem_append.mp hc with hc | hc
        · exact (front_detectColumnChanges hc).1
        · exact (hremoved.table c hc).1
      · split_ifs at hc
        · cases hc
        · rw [keyChanges] at hc
          split_ifs at hc
          · rw [mem_singleton.mp hc]
          · rw [mem_singleton.mp hc]
          · cases hc

lemma get_of_persistVersion {version : Bytes} {now : ℤ} {db' : Db SqlValue}
    (h : runStatements (persistVersion d version now) db = some db') {k : String}
    (hk : d.fold "schema_meta" ≠ k) : db'.get k = db.get k := by
  obtain ⟨m₁, hcreate, h⟩ := runStatements_cons_eq_some.mp h
  obtain ⟨m₂, hdelete, h⟩ := runStatements_cons_eq_some.mp h
  obtain ⟨m₃, hinsert, h⟩ := runStatements_cons_eq_some.mp h
  cases h
  have h₁ : m₁.get k = db.get k := by
    rw [createTableIfNotExists] at hcreate
    split_ifs at hcreate
    · cases hcreate
      rfl
    · obtain ⟨-, -, -, rfl⟩ := createTable_eq_some.mp hcreate
      exact Db.get_set_of_ne hk
  have h₂ : m₂.get k = m₁.get k := by
    obtain ⟨r, -, hset⟩ := Option.bind_eq_some_iff.mp hdelete
    cases hset
    exact Db.get_set_of_ne hk
  have h₃ : db'.get k = m₂.get k := by
    obtain ⟨r, -, hset⟩ := Option.bind_eq_some_iff.mp hinsert
    change (if _ then _ else _) = _ at hset
    split_ifs at hset
    obtain ⟨r', -, rfl⟩ := Option.map_eq_some_iff.mp hset
    exact Db.get_set_of_ne hk
  rw [h₃, h₂, h₁]

/-- What becomes of an existing table of the target. -/
inductive FinalTable (a : Affinity) (t : Table) (r : Relation SqlValue) :
    Bool → Relation SqlValue → Prop where
  | rebuilt (nodup : (t.columnNames.map foldName).Nodup)
    (valid : (t.rebuilt (sqlite a) r).Valid (sqlite a)) : FinalTable a t r true (t.rebuilt (sqlite a) r)
  | unrebuilt (r' : Relation SqlValue) (fs : List Field) (h : Unrebuilt a t r r' fs) : FinalTable a t r false r'

variable {a : Affinity}

/-- What a migration that goes through leaves: each table of the target is new or has its final form,
and the other tables but the one of the version are as they were. -/
lemma tables_of_migrated {version : Bytes} {now : ℤ} {db' : Db SqlValue}
    (hplan : detectChanges (sqlite a) hash current db target = .ok plan)
    (hkeys : (target.tables.map (Table.key (sqlite a))).Nodup)
    (hversion : ∀ t ∈ target.tables, t.key (sqlite a) ≠ foldName "schema_meta")
    (hid : ∀ t ∈ target.tables, ∀ r, db.get (t.key (sqlite a)) = some r → "id" ∈ r.columnNames)
    (h : migrated (sqlite a) plan version now db = some db') :
    (∀ t ∈ target.tables, ∃ cs, appendTableChanges (sqlite a) hash current db t = .ok cs ∧
      (db.get (t.key (sqlite a)) = none → db'.get (t.key (sqlite a)) = some (t.built [])) ∧
      ∀ r, db.get (t.key (sqlite a)) = some r → Allows (sqlite a) cs r ∧
        ∃ r', db'.get (t.key (sqlite a)) = some r' ∧ FinalTable a t r (hasScheduledRebuild cs) r') ∧
    ∀ k ∉ target.tables.map (Table.key (sqlite a)), k ≠ foldName "schema_meta" → db'.get k = db.get k := by
  obtain ⟨css, hcss, hchanges, -⟩ := changes_of_detectChanges hplan
  obtain ⟨m, hrun, hrest⟩ := Option.bind_eq_some_iff.mp h
  rw [hchanges] at hrun
  have hlast : runStatements (persistVersion (sqlite a) version now) m = some db' := by
    split_ifs at hrest
    exact hrest
  have hne : ∀ t ∈ target.tables, ∀ r, db.get (t.key (sqlite a)) = some r → r.columns ≠ [] := by
    intro t ht r hr hnil
    have hmem := hid t ht r hr
    rw [Relation.columnNames, hnil] at hmem
    cases hmem
  have hof := forall₂_imp_mem hcss fun t ht cs hcs => changesOf_of_append (hne t ht) hcs
  obtain ⟨hresults, hframe⟩ := results_of_runChanges hkeys hof hid hrun
  constructor
  · intro t ht
    obtain ⟨cs, -, hcs, htable⟩ := exists_of_forall₂ hcss hresults t ht
    have hkeep := get_of_persistVersion hlast (Ne.symm (hversion t ht))
    rw [TableResult] at htable
    refine ⟨cs, hcs, fun hnone => ?_, fun r hr => ?_⟩
    · rw [hnone] at htable
      rw [hkeep, htable]
    · rw [hr] at htable
      refine ⟨htable.1, effects (sqlite a) cs r, by rw [hkeep, htable.2], ?_⟩
      obtain ⟨hbuild, heffects, hnodup, hvalid⟩ | ⟨hbuild, fs, hfs⟩ :=
        final_of_allows hr (hne t ht r hr) hcs htable.1
      · rw [hbuild, heffects]
        exact .rebuilt hnodup hvalid
      · rw [hbuild]
        exact .unrebuilt _ fs hfs
  · intro k hk hversion
    rw [get_of_persistVersion hlast (Ne.symm hversion), hframe k hk]

end Plan
end ZyncBase
