import ZyncBase.Schema.FormatTable

/-! A schema that is written and read again is the same exactly when no field's name has three
underscores in a row and each double among its constraints can be printed. -/
namespace ZyncBase

open FieldPath List Outcome SchemaParse DoubledSeparator

variable {segment : String}

namespace FieldTree

variable {compiles : Bytes → Bool} {ctx : StoreFieldContext} {pre : String}

lemma toList_joinSegment (hpre : pre ≠ "") :
    (joinSegment pre segment).toList = pre.toList ++ '_' :: '_' :: segment.toList := by
  rw [joinSegment, if_neg hpre]
  simp

lemma getLast?_joinSegment (hallows : ctx.AllowsSegment segment) :
    (joinSegment pre segment).toList.getLast? = segment.toList.getLast? := by
  by_cases hempty : pre = ""
  · rw [joinSegment, if_pos hempty]
  · obtain ⟨first, rest, hlist, -⟩ := hallows.exists_alpha
    rw [toList_joinSegment hempty, hlist, List.getLast?_append_of_ne_nil _ (cons_ne_nil _ _),
      List.getLast?_cons_cons, List.getLast?_cons_cons]

/-- A prefix below which a segment brings no third underscore. -/
def GoodPrefix (pre : String) : Prop :=
  ¬['_', '_', '_'] <:+: pre.toList ∧ pre.toList.getLast? ≠ some '_'

lemma not_triple_joinSegment (hpre : GoodPrefix pre) (hallows : ctx.AllowsSegment segment) :
    ¬['_', '_', '_'] <:+: (joinSegment pre segment).toList := by
  have hsegment := not_triple_of_not_double hallows.hasDouble_eq_false
  by_cases hempty : pre = ""
  · rw [joinSegment, if_pos hempty]
    exact hsegment
  · rw [toList_joinSegment hempty]
    refine not_triple_append hpre.1 hsegment hpre.2 ?_
    obtain ⟨first, rest, hlist, halpha⟩ := hallows.exists_alpha
    rw [hlist, List.head?_cons]
    rintro ⟨⟩
    exact absurd halpha (by decide)

lemma goodPrefix_joinSegment (hpre : GoodPrefix pre)
    (hallows : ctx.AllowsSegment segment) (hlast : segment.toList.getLast? ≠ some '_') :
    GoodPrefix (joinSegment pre segment) :=
  ⟨not_triple_joinSegment hpre hallows, by rw [getLast?_joinSegment hallows]; exact hlast⟩

lemma exists_joinSegment {tree : FieldTree} (hfits : tree.Fits compiles ctx pre) :
    ∀ f ∈ tree.flat, ∃ rem, f.name = joinSegment pre rem := by
  induction tree generalizing pre with
  | nil => exact fun f hf => absurd hf not_mem_nil
  | leaf segment g rest ih =>
    obtain ⟨-, hname, -, -, hrest⟩ := hfits
    exact forall_mem_cons.mpr ⟨⟨segment, hname⟩, ih hrest⟩
  | object segment inner rest ihi ihr =>
    obtain ⟨hallows, -, -, hinner, -, hrest⟩ := hfits
    refine forall_mem_append.mpr ⟨fun f hf => ?_, ihr hrest⟩
    obtain ⟨rem, hrem⟩ := ihi hinner f hf
    exact ⟨_, hrem.trans (joinSegment_assoc hallows.ne_empty rem)⟩

lemma clean_of_names {tree : FieldTree} (hfits : tree.Fits compiles ctx pre)
    (hnames : ∀ f ∈ tree.flat, ¬['_', '_', '_'] <:+: f.name.toList) : tree.Clean := by
  induction tree generalizing pre with
  | nil => trivial
  | leaf segment f rest ih => exact ih hfits.2.2.2.2 (forall_mem_cons.mp hnames).2
  | object segment inner rest ihi ihr =>
    obtain ⟨hallows, -, hne, hinner, -, hrest⟩ := hfits
    obtain ⟨hnamesInner, hnamesRest⟩ := forall_mem_append.mp hnames
    refine ⟨fun hlast => ?_, ihi hinner hnamesInner, ihr hrest hnamesRest⟩
    obtain ⟨f, hf⟩ := exists_mem_of_ne_nil _ hne
    obtain ⟨rem, hrem⟩ := exists_joinSegment hinner f hf
    refine hnamesInner f hf ?_
    rw [hrem, toList_joinSegment (joinSegment_ne_empty hallows.ne_empty)]
    exact triple_append ((getLast?_joinSegment hallows).trans hlast)

lemma names_of_clean {tree : FieldTree} (hfits : tree.Fits compiles ctx pre)
    (hpre : GoodPrefix pre) (hclean : tree.Clean) : ∀ f ∈ tree.flat, ¬['_', '_', '_'] <:+: f.name.toList := by
  induction tree generalizing pre with
  | nil => exact fun f hf => absurd hf not_mem_nil
  | leaf segment g rest ih =>
    obtain ⟨hallows, hname, -, -, hrest⟩ := hfits
    exact forall_mem_cons.mpr ⟨hname ▸ not_triple_joinSegment hpre hallows, ih hrest hpre hclean⟩
  | object segment inner rest ihi ihr =>
    obtain ⟨hallows, -, -, hinner, -, hrest⟩ := hfits
    obtain ⟨hlast, hcleanInner, hcleanRest⟩ := hclean
    exact forall_mem_append.mpr ⟨ihi hinner (goodPrefix_joinSegment hpre hallows hlast) hcleanInner,
        ihr hrest hpre hcleanRest⟩

end FieldTree

variable {obj : JsonObject}

namespace SchemaFormat

variable {compiles : Bytes → Bool} {width : Real64 → ℕ}

/-- Fields that are read from an object get no third underscore in a row. -/
def ReadsClean (compiles : Bytes → Bool) (obj : JsonObject) : Prop :=
  ∀ (ctx : StoreFieldContext) (pre : String) (fields out : List DeclaredField),
    FieldTree.GoodPrefix pre → parseObjectFields compiles ctx pre fields obj = .ok out →
      (∀ f ∈ fields, ¬['_', '_', '_'] <:+: f.name.toList) → ∀ f ∈ out, ¬['_', '_', '_'] <:+: f.name.toList

lemma readsClean_nil : ReadsClean compiles [] := by
  intro ctx pre fields out _ h hfields
  rw [parseObjectFields] at h
  cases h
  exact hfields

lemma readsClean_leaf {f : DeclaredField} {rest : JsonObject} (hrest : ReadsClean compiles rest) :
    ReadsClean compiles ((segment, .object f.json) :: rest) := by
  intro ctx pre fields out hpre h hfields
  obtain ⟨hallows, type, mid, -, hheader, hmid, h⟩ := parseObjectFields_object h
  rw [fieldHeader_json hallows] at hheader
  cases hheader
  rw [if_neg (schemaName_ne_object f.declaredType)] at hmid
  obtain ⟨-, g, rfl, hname, -⟩ := emitField_eq_ok hmid
  refine hrest ctx pre _ out hpre h (forall_mem_append.mpr ⟨hfields, ?_⟩)
  rw [forall_mem_singleton, hname]
  exact FieldTree.not_triple_joinSegment hpre hallows

lemma readsClean_object {nested rest : JsonObject}
    (hlast : segment.toList.getLast? ≠ some '_') (hnested : ReadsClean compiles nested)
    (hrest : ReadsClean compiles rest) :
    ReadsClean compiles ((segment, .object [("type", stringValue "object"),
      ("fields", .object nested)]) :: rest) := by
  intro ctx pre fields out hpre h hfields
  obtain ⟨hallows, type, mid, -, hheader, hmid, h⟩ := parseObjectFields_object h
  rw [object_header hallows] at hheader
  cases hheader
  rw [if_pos rfl] at hmid
  obtain ⟨⟨⟩, -, hmid⟩ := bind_eq_ok.mp hmid
  rw [parseNestedFields, if_neg (by decide), parseNestedFields, if_pos rfl, parseNestedValue] at hmid
  exact hrest ctx pre mid out hpre h (hnested ctx _ fields mid
    (FieldTree.goodPrefix_joinSegment hpre hallows hlast) hmid hfields)

lemma readsClean_writeGroups {child : String → Except FormatError JsonObject} {pre : String}
    {seen : List String} {fields : List DeclaredField}
    (hchild : ∀ {p : String} {nested : JsonObject}, child p = .ok nested →
      ReadsClean compiles nested)
    (h : writeGroups width child pre seen fields = .ok obj) : ReadsClean compiles obj := by
  induction fields generalizing seen obj with
  | nil =>
    cases h
    exact readsClean_nil
  | cons f rest ih =>
    rw [writeGroups] at h
    cases hrem : remainder f.name pre with
    | none =>
      rw [hrem] at h
      exact ih h
    | some rem =>
      rw [hrem] at h
      by_cases hseen : (FieldPath.splitFirst rem).1 ∈ seen
      · simp only [if_pos hseen] at h
        exact ih h
      simp only [if_neg hseen] at h
      by_cases hmore : (FieldPath.splitFirst rem).2.isSome
      · simp only [if_pos hmore] at h
        obtain ⟨nested, hnested, h⟩ := bind_eq_ok.mp h
        rw [pure_bind] at h
        obtain ⟨members, hmembers, h⟩ := bind_eq_ok.mp h
        cases h
        refine readsClean_object ?_ (hchild hnested) (ih hmembers)
        simp only [FieldPath.splitFirst, Option.isSome_map] at hmore ⊢
        rw [String.toList_ofList]
        exact splitFirst_getLast hmore
      · simp only [if_neg hmore] at h
        obtain ⟨value, hvalue, h⟩ := bind_eq_ok.mp h
        obtain ⟨members, hmembers, h⟩ := bind_eq_ok.mp h
        cases h
        obtain ⟨-, rfl⟩ := writeFieldDefinition_eq_ok.mp hvalue
        exact readsClean_leaf (ih hmembers)

lemma readsClean_writeFieldsForPrefix {fields : List DeclaredField} {depth : ℕ} {pre : String}
    (h : writeFieldsForPrefix width fields depth pre = .ok obj) : ReadsClean compiles obj := by
  induction depth generalizing pre obj with
  | zero =>
    cases h
    exact readsClean_nil
  | succ depth ih => exact readsClean_writeGroups ih h

end SchemaFormat

/-- What holds of a schema that was read. -/
structure DeclaredSchema.Accepted (compiles : Bytes → Bool) (s : DeclaredSchema)
    (users : DeclaredTable) (others : List DeclaredTable) : Prop where
  metadata : ∀ value ∈ s.metadata, (∃ entries, value = .object entries) ∧ hasUniqueKeys value = true
  tables : s.tables = users :: others
  usersName : users.name = "users"
  users : ∃ required tree, users.Accepted compiles true required tree
  othersName : ∀ t ∈ others, t.name ≠ "users"
  others : ∀ t ∈ others, ∃ required tree, t.Accepted compiles false required tree
  init : initFromTables s.version s.metadata s.tables = .ok s

variable {store : JsonObject} {tables : List DeclaredTable} {s : DeclaredSchema} {json : JsonValue}

namespace SchemaParse

variable {compiles : Bytes → Bool}

lemma hasUniqueKeys_of_mem {entries : JsonObject} (h : entriesHaveUniqueKeys entries = true) :
    ∀ entry ∈ entries, hasUniqueKeys entry.2 = true := by
  induction entries with
  | nil => exact fun entry hentry => absurd hentry not_mem_nil
  | cons e rest ih =>
    rw [entriesHaveUniqueKeys, Bool.and_eq_true] at h
    exact forall_mem_cons.mpr ⟨h.1, ih h.2⟩

lemma implicitUsersTable_accepted : implicitUsersTable.Accepted compiles true [] .nil where
  name := by decide
  usersRequired _ := rfl
  fits := trivial
  fields := rfl
  count := Nat.zero_le _
  metadata _ h := nomatch h
  unique _ h := absurd h not_mem_nil
  distinct := List.Pairwise.nil

lemma parseUsersTable_eq_ok {users : DeclaredTable} (hunique : entriesHaveUniqueKeys store = true)
    (h : parseUsersTable compiles store = .ok users) :
    users.name = "users" ∧ ∃ required tree, users.Accepted compiles true required tree ∧
      tree.paths = ((store.lookup "users").map definitionPaths).getD [] := by
  unfold parseUsersTable at h
  split at h
  · rename_i table hlookup
    rw [hlookup]
    exact parseTable_eq_ok (hasUniqueKeys_of_lookup hunique hlookup) h
  · rename_i hlookup
    rw [hlookup]
    cases h
    exact ⟨rfl, [], .nil, implicitUsersTable_accepted, rfl⟩

lemma collectTables_eq_ok (h : collectTables compiles store = .ok tables) :
    ∃ users others, tables = users :: others ∧ parseUsersTable compiles store = .ok users ∧
      (store.filter fun entry => entry.1 ≠ "users").mapM (fun entry =>
        parseTable compiles entry.1 entry.2 false) = .ok others := by
  obtain ⟨users, husers, h⟩ := bind_eq_ok.mp h
  obtain ⟨others, hothers, h⟩ := bind_eq_ok.mp h
  cases h
  exact ⟨users, others, rfl, husers, hothers⟩

lemma initFromTables_eq_ok {version : Bytes} {metadata : Option JsonValue}
        (h : initFromTables version metadata tables = .ok s) :
    s = { version, metadata, tables } ∧ (∀ t ∈ tables, (runtimeNames t).Nodup) ∧
      (tables.map DeclaredTable.name).Nodup := by
  unfold initFromTables at h
  by_cases hnames : ¬∀ t ∈ tables, (runtimeNames t).Nodup
  · rw [if_pos hnames] at h
    cases h
  rw [if_neg hnames] at h
  by_cases htables : ¬(tables.map DeclaredTable.name).Nodup
  · simp only [if_pos htables] at h
    cases h
  simp only [if_neg htables] at h
  obtain ⟨⟨⟩, -, h⟩ := bind_eq_ok.mp h
  cases h
  exact ⟨rfl, not_not.mp hnames, not_not.mp htables⟩

lemma parseTable_fields {name : String} {isUsersTable : Bool}
    {t : DeclaredTable} (h : parseTable compiles name (.object obj) isUsersTable = .ok t) :
    ∃ ctx entries, obj.lookup "fields" = some (.object entries) ∧
      parseObjectFields compiles ctx "" [] entries = .ok t.fields := by
  unfold parseTable at h
  split at h
  · cases h
  obtain ⟨⟨⟩, -, h⟩ := bind_eq_ok.mp h
  obtain ⟨metadata, -, h⟩ := bind_eq_ok.mp h
  obtain ⟨namespaced, -, h⟩ := bind_eq_ok.mp h
  obtain ⟨required, -, h⟩ := bind_eq_ok.mp h
  obtain ⟨found, hfound, h⟩ := bind_eq_ok.mp h
  obtain ⟨entries, hentries, h⟩ := bind_eq_ok.mp h
  obtain ⟨fields, hfields, h⟩ := bind_eq_ok.mp h
  obtain ⟨⟨⟩, -, h⟩ := bind_eq_ok.mp h
  obtain ⟨constraints, -, h⟩ := bind_eq_ok.mp h
  cases h
  have hsome := orMissing_eq_ok.mp hentries
  subst hsome
  exact ⟨_, entries, getObject_eq_ok hfound, hfields⟩

lemma initFromJson_eq_ok (h : initFromJson compiles json = .ok s) :
    ∃ root store, json = .object root ∧ hasUniqueKeys json = true ∧
      root.lookup "store" = some (.object store) ∧ getMetadata root = .ok s.metadata ∧
      collectTables compiles store = .ok s.tables ∧ initFromTables s.version s.metadata s.tables = .ok s := by
  unfold initFromJson at h
  split_ifs at h with hunique
  split at h
  · rename_i root
    obtain ⟨⟨⟩, -, h⟩ := bind_eq_ok.mp h
    obtain ⟨text, -, h⟩ := bind_eq_ok.mp h
    obtain ⟨version, -, h⟩ := bind_eq_ok.mp h
    obtain ⟨found, hfound, h⟩ := bind_eq_ok.mp h
    obtain ⟨store, hstore, h⟩ := bind_eq_ok.mp h
    obtain ⟨metadata, hmetadata, h⟩ := bind_eq_ok.mp h
    obtain ⟨tables, htables, h⟩ := bind_eq_ok.mp h
    obtain ⟨rfl, -⟩ := initFromTables_eq_ok h
    have hinit := h
    have hsome := orMissing_eq_ok.mp hstore
    subst hsome
    exact ⟨root, store, rfl, by simpa using hunique, getObject_eq_ok hfound, hmetadata, htables, hinit⟩
  · cases h

lemma initFromJson_accepted
    (h : initFromJson compiles json = .ok s) : ∃ users others, s.Accepted compiles users others := by
  obtain ⟨root, store, rfl, hunique, hstore, hmetadata, htables, hinit⟩ := initFromJson_eq_ok h
  obtain ⟨users, others, hs, husers, hothers⟩ := collectTables_eq_ok htables
  rw [hasUniqueKeys, Bool.and_eq_true] at hunique
  have hstoreUnique := hasUniqueKeys_of_lookup hunique.2 hstore
  rw [hasUniqueKeys, Bool.and_eq_true] at hstoreUnique
  obtain ⟨husersName, required, tree, haccepted, -⟩ := parseUsersTable_eq_ok hstoreUnique.2 husers
  refine ⟨users, others, getMetadata_accepted hunique.2 hmetadata, hs, husersName,
    ⟨required, tree, haccepted⟩, fun t ht => ?_, fun t ht => ?_, hinit⟩
  · obtain ⟨entry, hentry, hparse⟩ := of_mem_mapM hothers ht
    obtain ⟨hmem, hname⟩ := mem_filter.mp hentry
    rw [(parseTable_eq_ok (hasUniqueKeys_of_mem hstoreUnique.2 entry hmem) hparse).1]
    exact of_decide_eq_true hname
  · obtain ⟨entry, hentry, hparse⟩ := of_mem_mapM hothers ht
    obtain ⟨-, required, tree, haccepted, -⟩ := parseTable_eq_ok
      (hasUniqueKeys_of_mem hstoreUnique.2 entry (mem_of_mem_filter hentry)) hparse
    exact ⟨required, tree, haccepted⟩

lemma lookup_of_mem {entries : JsonObject} (hkeys : (entries.map Prod.fst).Nodup)
    {entry : String × JsonValue} (h : entry ∈ entries) : entries.lookup entry.1 = some entry.2 := by
  induction entries with
  | nil => exact absurd h not_mem_nil
  | cons e rest ih =>
    rw [map_cons, nodup_cons] at hkeys
    obtain rfl | h := mem_cons.mp h
    · exact lookup_cons_self
    · have hne : (entry.1 == e.1) = false := by
        refine beq_eq_false_iff_ne.mpr fun heq => hkeys.1 (heq ▸ mem_map_of_mem h)
      rw [lookup_cons, hne]
      exact ih hkeys.2 h

lemma initFromJson_tree (h : initFromJson compiles json = .ok s) : ∀ t ∈ s.tables, ∃ isUsersTable required tree,
    t.Accepted compiles isUsersTable required tree ∧ tree.paths = tablePaths json t.name := by
  obtain ⟨root, store, rfl, hunique, hstore, -, htables, -⟩ := initFromJson_eq_ok h
  obtain ⟨users, others, hs, husers, hothers⟩ := collectTables_eq_ok htables
  rw [hasUniqueKeys, Bool.and_eq_true] at hunique
  have hstoreUnique := hasUniqueKeys_of_lookup hunique.2 hstore
  rw [hasUniqueKeys, Bool.and_eq_true, decide_eq_true_eq] at hstoreUnique
  have hpaths : ∀ name, tablePaths (.object root) name = ((store.lookup name).map definitionPaths).getD [] := by
    intro name
    rw [tablePaths, hstore]
  rw [hs]
  refine forall_mem_cons.mpr ⟨?_, fun t ht => ?_⟩
  · obtain ⟨hname, required, tree, haccepted, htree⟩ :=
      parseUsersTable_eq_ok hstoreUnique.2 husers
    exact ⟨true, required, tree, haccepted, by rw [hpaths, hname, htree]⟩
  · obtain ⟨entry, hentry, hparse⟩ := of_mem_mapM hothers ht
    have hmem := mem_of_mem_filter hentry
    obtain ⟨hname, required, tree, haccepted, htree⟩ :=
      parseTable_eq_ok (hasUniqueKeys_of_mem hstoreUnique.2 entry hmem) hparse
    refine ⟨false, required, tree, haccepted, ?_⟩
    rw [hpaths, hname, lookup_of_mem hstoreUnique.1 hmem, htree]
    rfl

end SchemaParse

namespace SchemaFormat

variable {compiles : Bytes → Bool} {width : Real64 → ℕ}

/-- Fields whose names can be split again and whose doubles can be printed. -/
def Faithful (width : Real64 → ℕ) (fields : List DeclaredField) : Prop :=
  ∀ f ∈ fields, ¬['_', '_', '_'] <:+: f.name.toList ∧ f.Printable width

section Table

variable {t : DeclaredTable} {isUsersTable : Bool} {required : List String} {tree : FieldTree}

lemma goodPrefix_empty : FieldTree.GoodPrefix "" :=
  ⟨not_triple_of_not_double rfl, by simp⟩

lemma writeTable_reads (h : t.Accepted compiles isUsersTable required tree)
    (hnames : (t.fields.map DeclaredField.name).Nodup) (hfaithful : Faithful width t.fields) :
    ∃ obj, writeTable width t = .ok obj ∧ hasUniqueKeys (.object obj) = true ∧
      parseTable compiles t.name (.object obj) isUsersTable = .ok t := by
  have hclean : tree.Clean :=
    FieldTree.clean_of_names h.fits fun f hf => (hfaithful f (h.fields ▸ hf)).1
  exact ⟨tableJson t tree, (writeTable_eq_ok h hclean).mpr ⟨fun f hf => (hfaithful f hf).2, rfl⟩,
    hasUniqueKeys_tableJson h, parseTable_json h hnames⟩

lemma faithful_of_reads (h : t.Accepted compiles isUsersTable required tree)
    {name : String} (hwrite : writeTable width t = .ok obj)
    (hread : parseTable compiles name (.object obj) isUsersTable = .ok t) : Faithful width t.fields := by
  have hnames : ∀ f ∈ t.fields, ¬['_', '_', '_'] <:+: f.name.toList := by
    obtain ⟨fields, hfields, hobj⟩ := bind_eq_ok.mp hwrite
    obtain ⟨ctx, entries, hlookup, hparse⟩ := parseTable_fields hread
    cases hobj
    rw [lookup_members _ (by simp only [map_cons, map_nil]; decide)] at hlookup
    cases hlookup
    exact readsClean_writeFieldsForPrefix hfields ctx "" [] t.fields goodPrefix_empty hparse
      fun f hf => absurd hf not_mem_nil
  have hclean : tree.Clean := FieldTree.clean_of_names h.fits fun f hf => hnames f (h.fields ▸ hf)
  have hprint := ((writeTable_eq_ok h hclean).mp hwrite).1
  exact fun f hf => ⟨hnames f hf, hprint f hf⟩

end Table

section Schema

variable {s : DeclaredSchema} {users : DeclaredTable} {others : List DeclaredTable}

lemma accepted_of_mem (h : s.Accepted compiles users others) : ∀ t ∈ s.tables, ∃ required tree,
    t.Accepted compiles (decide (t.name = "users")) required tree := by
  rw [h.tables, forall_mem_cons]
  constructor
  · rw [decide_eq_true h.usersName]
    exact h.users
  · intro t ht
    rw [decide_eq_false (h.othersName t ht)]
    exact h.others t ht

lemma fieldNames_nodup (h : s.Accepted compiles users others) :
    ∀ t ∈ s.tables, (t.fields.map DeclaredField.name).Nodup := by
  intro t ht
  have hnames := (initFromTables_eq_ok h.init).2.1 t ht
  exact (nodup_append.mp (nodup_append.mp hnames).1).2.1

/-- The tables of a store stand for those of the schema. -/
def ReadsTable (compiles : Bytes → Bool) (t : DeclaredTable) (entry : String × JsonValue) : Prop :=
  entry.1 = t.name ∧ hasUniqueKeys entry.2 = true ∧
    parseTable compiles t.name entry.2 (decide (t.name = "users")) = .ok t

lemma keys_of_reads (h : List.Forall₂ (ReadsTable compiles) tables store) :
    store.map Prod.fst = tables.map DeclaredTable.name ∧ entriesHaveUniqueKeys store = true := by
  induction h with
  | nil => exact ⟨rfl, rfl⟩
  | cons hread _ ih =>
    obtain ⟨hname, hunique, -⟩ := hread
    refine ⟨by rw [map_cons, map_cons, hname, ih.1], ?_⟩
    rw [entriesHaveUniqueKeys, hunique, ih.2]
    rfl

lemma parseTables_of_reads (h : List.Forall₂ (ReadsTable compiles) tables store)
    (hnames : ∀ t ∈ tables, t.name ≠ "users") :
    (store.filter fun entry => entry.1 ≠ "users").mapM (fun entry =>
      parseTable compiles entry.1 entry.2 false) = .ok tables := by
  induction h with
  | nil => rfl
  | @cons t entry tables store hread _ ih =>
    obtain ⟨hname, hrest⟩ := forall_mem_cons.mp hnames
    obtain ⟨hentry, -, hparse⟩ := hread
    rw [decide_eq_false hname] at hparse
    rw [filter_cons_of_pos (by simpa [hentry] using hname), mapM_cons, hentry, hparse, ok_bind, ih hrest]
    rfl

lemma collectTables_of_reads (h : s.Accepted compiles users others)
    (hreads : List.Forall₂ (ReadsTable compiles) s.tables store) :
    collectTables compiles store = .ok s.tables := by
  rw [h.tables] at hreads
  obtain ⟨⟨name, table⟩, rest, hread, hrest, rfl⟩ := forall₂_cons_left_iff.mp hreads
  obtain ⟨rfl, -, hparse⟩ := hread
  rw [decide_eq_true h.usersName] at hparse
  have husers : parseUsersTable compiles ((users.name, table) :: rest) = .ok users := by
    rw [parseUsersTable, h.usersName, lookup_cons_self]
    rw [h.usersName] at hparse
    exact hparse
  unfold collectTables
  rw [husers, ok_bind, filter_cons_of_neg (by simp [h.usersName]),
    parseTables_of_reads hrest h.othersName, h.tables]
  rfl

def rootTable (s : DeclaredSchema) (store : JsonObject) : List (String × Option JsonValue) :=
  [("version", some (.string s.version)), ("metadata", s.metadata), ("store", some (.object store))]

lemma initFromJson_root (h : s.Accepted compiles users others)
    (hreads : List.Forall₂ (ReadsTable compiles) s.tables store) :
    initFromJson compiles (.object (members (rootTable s store))) = .ok s := by
  have hlookup := fun key => lookup_members (rootTable s store) (by
    simp only [rootTable, map_cons, map_nil]; decide) key
  obtain ⟨hnames, hstore⟩ := keys_of_reads hreads
  have hunique : hasUniqueKeys (.object (members (rootTable s store))) = true := by
    have hkeys : ((members (rootTable s store)).map Prod.fst).Nodup :=
      (members_keys _).nodup (by simp only [rootTable, map_cons, map_nil]; decide)
    rw [hasUniqueKeys, decide_eq_true hkeys, Bool.true_and]
    refine entriesHaveUniqueKeys_members _ ?_
    simp only [rootTable, forall_mem_cons]
    refine ⟨?_, fun value hvalue => (h.metadata value hvalue).2, ?_, fun _ hmem => absurd hmem not_mem_nil⟩
    · rintro _ ⟨⟩
      rfl
    · rintro _ ⟨⟩
      rw [hasUniqueKeys, hnames, hstore, decide_eq_true (initFromTables_eq_ok h.init).2.2]
      rfl
  have hversion : getString (members (rootTable s store)) "version" .invalidVersion = .ok (some s.version) := by
    rw [getString, hlookup]; rfl
  have hobject : getObject (members (rootTable s store)) "store" .invalidStore = .ok (some store) := by
    rw [getObject, hlookup]; rfl
  have hmetadata : getMetadata (members (rootTable s store)) = .ok s.metadata :=
    getMetadata_json ((hlookup _).trans rfl) fun value hvalue => (h.metadata value hvalue).1
  have hallowed : rejectUnknownKeys ["version", "store", "metadata", "presence", "actions"]
      (members (rootTable s store)) = .ok () := by
    refine if_pos (all_eq_true.mpr fun e he => contains_iff_mem.mpr ?_)
    have hkey := (members_keys _).subset (mem_map_of_mem he)
    exact (by decide : ["version", "metadata", "store"] ⊆
      ["version", "store", "metadata", "presence", "actions"]) hkey
  unfold initFromJson
  rw [if_neg (by simp [hunique])]
  simp only [hallowed, hversion, hobject, hmetadata, orMissing, ok_bind, collectTables_of_reads h hreads]
  exact h.init

lemma format_reads (h : s.Accepted compiles users others)
    (hfaithful : ∀ t ∈ s.tables, Faithful width t.fields) :
    ∃ json, format width s = .ok json ∧ initFromJson compiles json = .ok s := by
  have htable : ∀ t ∈ s.tables, ∃ entry : String × JsonValue,
      (do return (t.name, .object (← writeTable width t)) : Except FormatError _) = .ok entry ∧
        ReadsTable compiles t entry := by
    intro t ht
    obtain ⟨required, tree, haccepted⟩ := accepted_of_mem h t ht
    obtain ⟨obj, hwrite, hunique, hparse⟩ :=
      writeTable_reads haccepted (fieldNames_nodup h t ht) (hfaithful t ht)
    exact ⟨(t.name, .object obj), by rw [hwrite]; rfl, rfl, hunique, hparse⟩
  obtain ⟨store, hstore, hreads⟩ := mapM_exists htable
  refine ⟨.object (members (rootTable s store)), ?_, initFromJson_root h hreads⟩
  unfold format
  rw [hstore]
  rfl

lemma faithful_of_format (h : s.Accepted compiles users others)
    (hformat : format width s = .ok json) (hread : initFromJson compiles json = .ok s) :
    ∀ t ∈ s.tables, Faithful width t.fields := by
  obtain ⟨store, hstore, hjson⟩ := bind_eq_ok.mp hformat
  cases hjson
  obtain ⟨root, found, hroot, -, hlookup, -, htables, -⟩ := initFromJson_eq_ok hread
  cases hroot
  rw [lookup_members _ (by simp only [map_cons, map_nil]; decide)] at hlookup
  cases hlookup
  obtain ⟨users', others', hboth, husers, hothers⟩ := collectTables_eq_ok htables
  rw [h.tables] at hboth hstore ⊢
  cases hboth
  rw [mapM_cons] at hstore
  obtain ⟨entry, hentry, hstore⟩ := bind_eq_ok.mp hstore
  obtain ⟨rest, hrest, hstore⟩ := bind_eq_ok.mp hstore
  cases hstore
  obtain ⟨obj, hobj, hentry⟩ := bind_eq_ok.mp hentry
  cases hentry
  have hnames : ∀ e ∈ rest, e.1 ≠ "users" := by
    intro e he
    obtain ⟨t, ht, hte⟩ := of_mem_mapM hrest he
    obtain ⟨tobj, -, hte⟩ := bind_eq_ok.mp hte
    cases hte
    exact h.othersName t ht
  rw [parseUsersTable, h.usersName, lookup_cons_self] at husers
  rw [filter_cons_of_neg (by simp [h.usersName]),
    filter_eq_self.mpr fun e he => decide_eq_true (hnames e he)] at hothers
  rw [forall_mem_cons]
  constructor
  · obtain ⟨required, tree, haccepted⟩ := h.users
    exact faithful_of_reads haccepted hobj husers
  · intro t ht
    obtain ⟨required, tree, haccepted⟩ := h.others t ht
    obtain ⟨e, hwrite, hparse⟩ := mapM_mapM hrest hothers t ht
    obtain ⟨tobj, htobj, he⟩ := bind_eq_ok.mp hwrite
    cases he
    exact faithful_of_reads haccepted htobj hparse

/-- A schema that was read is written and read again as it was exactly when no name in it has three
underscores in a row and all its doubles can be printed. -/
theorem format_initFromJson_iff {json : JsonValue} (h : initFromJson compiles json = .ok s) :
    (∃ text, format width s = .ok text ∧ initFromJson compiles text = .ok s) ↔
      ∀ t ∈ s.tables, ∀ f ∈ t.fields, ¬['_', '_', '_'] <:+: f.name.toList ∧ f.Printable width := by
  obtain ⟨users, others, haccepted⟩ := initFromJson_accepted h
  constructor
  · rintro ⟨text, hformat, hread⟩
    exact faithful_of_format haccepted hformat hread
  · exact format_reads haccepted

end Schema

end SchemaFormat

namespace SchemaRoundTripExample

open SchemaFormat

def textField : JsonValue := .object [("type", stringValue "string")]

/-- A schema with one table, whose fields are given. -/
def schemaOf (fields : JsonObject) : JsonValue :=
  .object [("version", stringValue "1.0.0"),
    ("store", .object [("notes", .object [("fields", .object fields)])])]

def noteField (name : String) : DeclaredField where
  name := name
  declaredType := .text
  storageType := .text
  itemsType := none
  required := false
  indexed := false
  references := none
  onDelete := none
  metadata := none
  constraints := none

def noteSchema (name : String) : DeclaredSchema where
  version := bytesOfName "1.0.0"
  metadata := none
  tables := [implicitUsersTable, { name := "notes", fields := [noteField name], namespaced := true }]

def trailingUnderscore : JsonValue :=
  schemaOf [("a_", .object [("type", stringValue "object"), ("fields", .object [("b", textField)])])]

/-- The name is split after its first two underscores, and the rest is no name. -/
theorem trailingUnderscore_lost : ∃ text,
    initFromJson (fun _ => true) trailingUnderscore = .ok (noteSchema "a___b") ∧
      format (fun _ => 1) (noteSchema "a___b") = .ok text ∧
        initFromJson (fun _ => true) text = .error .invalidFieldName :=
  ⟨_, rfl, rfl, rfl⟩

def nested : JsonValue :=
  schemaOf [("a", .object [("type", stringValue "object"), ("fields", .object [("b", textField)])])]

theorem format_initFromJson_iff_nested :
    (∃ text, format (fun _ => 1) (noteSchema "a__b") = .ok text ∧
      initFromJson (fun _ => true) text = .ok (noteSchema "a__b")) ↔
        ∀ t ∈ (noteSchema "a__b").tables, ∀ f ∈ t.fields,
          ¬['_', '_', '_'] <:+: f.name.toList ∧ f.Printable fun _ => 1 :=
  @format_initFromJson_iff _ _ _ nested rfl

end SchemaRoundTripExample
end ZyncBase
