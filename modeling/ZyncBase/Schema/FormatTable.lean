import ZyncBase.Schema.FormatTree

/-! A table is read back from what is written for it. -/
namespace ZyncBase

open FieldPath List Outcome SchemaFormat SchemaParse

/-- A unique constraint that names different fields, none of them bytes. -/
structure UniqueIndexes (fields : List DeclaredField) (indexes : List ℕ) : Prop where
  ne_nil : indexes ≠ []
  inRange : ∀ i ∈ indexes, i < fields.length
  notBytes : (indexes.any fun i => fields[i]?.any fun f => f.declaredType = .bytes) = false
  nodup : indexes.Nodup

/-- What holds of a table that was read. -/
structure DeclaredTable.Accepted (compiles : Bytes → Bool) (isUsersTable : Bool)
    (required : List String) (tree : FieldTree) (t : DeclaredTable) : Prop where
  name : isValidTableIdentifier t.name = true
  usersRequired : isUsersTable → required = []
  fits : tree.Fits compiles ⟨required, isUsersTable⟩ ""
  fields : t.fields = tree.flat
  count : t.fields.length ≤ maxDeclaredFields
  metadata : ∀ value ∈ t.metadata, (∃ entries, value = .object entries) ∧ hasUniqueKeys value = true
  unique : ∀ indexes ∈ t.uniqueConstraints, UniqueIndexes t.fields indexes
  distinct : t.uniqueConstraints.Pairwise fun a b => sameFieldSet a b = false

namespace SchemaParse

variable {compiles : Bytes → Bool} {fields : List DeclaredField}

section Read

lemma parseUniqueConstraint_eq_ok {value : JsonValue} {indexes : List ℕ}
    (h : parseUniqueConstraint fields value = .ok indexes) : UniqueIndexes fields indexes := by
  unfold parseUniqueConstraint at h
  split at h
  · rename_i item items
    obtain ⟨names, hnames, h⟩ := bind_eq_ok.mp h
    obtain ⟨found, hfound, h⟩ := bind_eq_ok.mp h
    by_cases hbad : (found.any fun i => fields[i]?.any fun f => f.declaredType = .bytes) = true ∨ ¬found.Nodup
    · rw [if_pos hbad] at h
      cases h
    rw [if_neg hbad] at h
    cases h
    rw [not_or, not_not, Bool.not_eq_true] at hbad
    refine ⟨?_, fun i hi => ?_, hbad.1, hbad.2⟩
    · rintro rfl
      have hlen := (mapM_eq_ok.mp hnames).length_eq.trans (mapM_eq_ok.mp hfound).length_eq
      simp at hlen
    · obtain ⟨name, -, hname⟩ := of_mem_mapM hfound hi
      obtain ⟨hlt, -⟩ := findIdx?_eq_some_iff_getElem.mp (orMissing_eq_ok.mp hname)
      exact hlt
  · cases h

lemma parseUniqueItems_eq_ok {items : List JsonValue} {built out : List (List ℕ)}
    (hbuilt : ∀ indexes ∈ built, UniqueIndexes fields indexes)
    (hdistinct : built.Pairwise fun a b => sameFieldSet a b = false)
    (h : parseUniqueItems fields built items = .ok out) :
    (∀ indexes ∈ out, UniqueIndexes fields indexes) ∧ out.Pairwise fun a b => sameFieldSet a b = false := by
  induction items generalizing built with
  | nil =>
    cases h
    exact ⟨hbuilt, hdistinct⟩
  | cons value rest ih =>
    obtain ⟨constraint, hconstraint, h⟩ := bind_eq_ok.mp h
    by_cases hsame : (built.any fun existing => sameFieldSet existing constraint) = true
    · rw [if_pos hsame] at h
      cases h
    rw [if_neg hsame] at h
    refine ih ?_ ?_ h
    · intro indexes hmem
      obtain hmem | hmem := mem_append.mp hmem
      · exact hbuilt indexes hmem
      · rw [mem_singleton.mp hmem]
        exact parseUniqueConstraint_eq_ok hconstraint
    · refine pairwise_append.mpr ⟨hdistinct, pairwise_singleton _ _, ?_⟩
      intro a ha b hb
      rw [mem_singleton.mp hb]
      exact Bool.eq_false_of_not_eq_true fun heq => hsame (any_eq_true.mpr ⟨a, ha, heq⟩)

lemma getObject_eq_ok {obj entries : JsonObject} {key : String} {e : SchemaError}
    (h : getObject obj key e = .ok (some entries)) : obj.lookup key = some (.object entries) := by
  unfold getObject at h
  split at h
  · cases h
  · cases h
  · rename_i hlookup
    cases h
    exact hlookup
  · cases h

lemma parseTable_eq_ok {name : String} {table : JsonValue} {isUsersTable : Bool}
    {t : DeclaredTable} (hunique : hasUniqueKeys table = true)
    (h : parseTable compiles name table isUsersTable = .ok t) :
    t.name = name ∧ ∃ required tree, t.Accepted compiles isUsersTable required tree ∧
      tree.paths = definitionPaths table := by
  unfold parseTable at h
  split at h
  · cases h
  rename_i hname
  split at h
  · rename_i obj
    rw [hasUniqueKeys, Bool.and_eq_true] at hunique
    obtain ⟨⟨⟩, -, h⟩ := bind_eq_ok.mp h
    obtain ⟨metadata, hmetadata, h⟩ := bind_eq_ok.mp h
    obtain ⟨namespaced, -, h⟩ := bind_eq_ok.mp h
    obtain ⟨required, hrequired, h⟩ := bind_eq_ok.mp h
    obtain ⟨found, hfound, h⟩ := bind_eq_ok.mp h
    obtain ⟨entries, hentries, h⟩ := bind_eq_ok.mp h
    obtain ⟨fields, hfields, h⟩ := bind_eq_ok.mp h
    obtain ⟨⟨⟩, -, h⟩ := bind_eq_ok.mp h
    obtain ⟨constraints, hconstraints, h⟩ := bind_eq_ok.mp h
    cases h
    obtain ⟨items, -, hitems⟩ := bind_eq_ok.mp hconstraints
    have hsome := orMissing_eq_ok.mp hentries
    subst hsome
    have hobject := hasUniqueKeys_of_lookup hunique.2 (getObject_eq_ok hfound)
    rw [hasUniqueKeys, Bool.and_eq_true, decide_eq_true_eq] at hobject
    obtain ⟨tree, ⟨hfits, hflat, hcount⟩, -, hpaths⟩ :=
      parseObjectFields_tree entries hobject.1 hobject.2 hfields
    obtain ⟨haccepted, hdistinct⟩ := parseUniqueItems_eq_ok
      (fun _ hmem => absurd hmem not_mem_nil) List.Pairwise.nil hitems
    refine ⟨rfl, required, tree, ⟨by simpa using hname, fun husers => ?_, hfits,
      hflat.trans (nil_append _), ?_, getMetadata_accepted hunique.2 hmetadata, haccepted,
      hdistinct⟩, ?_⟩
    · obtain ⟨value, -, hrequired⟩ := bind_eq_ok.mp hrequired
      cases value with
      | none => exact (pure_eq_ok.mp hrequired).symm
      | some items =>
        dsimp only at hrequired
        rw [if_pos husers] at hrequired
        cases hrequired
    · by_cases hempty : tree.flat = []
      · simp [hflat, hempty]
      · exact hcount hempty
    · rw [hpaths, definitionPaths, getObject_eq_ok hfound]
  · cases h

end Read

section Names

lemma joinSegment_chars {pre segment : String} (hpre : ∀ ch ∈ pre.toList, ch.isAlphanum = true ∨ ch = '_')
    (hsegment : ∀ ch ∈ segment.toList, ch.isAlphanum = true ∨ ch = '_') :
    ∀ ch ∈ (joinSegment pre segment).toList, ch.isAlphanum = true ∨ ch = '_' := by
  intro ch hch
  have hsep : "__".toList = ['_', '_'] := rfl
  unfold joinSegment at hch
  split_ifs at hch
  · exact hsegment ch hch
  · simp only [String.toList_append, mem_append, hsep] at hch
    obtain (hch | hch) | hch := hch
    · exact hpre ch hch
    · exact .inr (by simpa using hch)
    · exact hsegment ch hch

lemma name_chars {ctx : StoreFieldContext} {tree : FieldTree} {pre : String}
    (hfits : tree.Fits compiles ctx pre)
    (hpre : ∀ ch ∈ pre.toList, ch.isAlphanum = true ∨ ch = '_') :
    ∀ f ∈ tree.flat, ∀ ch ∈ f.name.toList, ch.isAlphanum = true ∨ ch = '_' := by
  induction tree generalizing pre with
  | nil => exact fun f hf => absurd hf not_mem_nil
  | leaf segment g rest ih =>
    obtain ⟨hallows, hname, -, -, hrest⟩ := hfits
    rw [FieldTree.flat, forall_mem_cons, hname]
    exact ⟨joinSegment_chars hpre (isValidSchemaIdentifier_chars hallows.valid), ih hrest hpre⟩
  | object segment inner rest ihi ihr =>
    obtain ⟨hallows, -, -, hinner, -, hrest⟩ := hfits
    rw [FieldTree.flat, forall_mem_append]
    exact ⟨ihi hinner (joinSegment_chars hpre (isValidSchemaIdentifier_chars hallows.valid)), ihr hrest hpre⟩

lemma parseName_dottedValue (e : SchemaError) {f : DeclaredField}
    (h : ∀ ch ∈ f.name.toList, ch.isAlphanum = true ∨ ch = '_') :
    (match dottedValue f with
      | .string text => .ok (String.ofList (normalizeDots (nameOfBytes text).toList))
      | _ => .error e : Except SchemaError String) = .ok f.name := by
  have hdot : '.' ∉ f.name.toList := fun hmem => by
    obtain h | h := h '.' hmem
    · exact absurd h (by decide)
    · exact absurd h (by decide)
  have hbytes : nameOfBytes (bytesOfName (String.ofList (toDotted f.name.toList))) =
      String.ofList (toDotted f.name.toList) := by
    refine nameOfBytes_bytesOfName fun ch hch => ?_
    rw [String.toList_ofList] at hch
    obtain hch | rfl := mem_toDotted hch
    · exact toNat_lt_of_identifier (h ch hch)
    · decide
  simp only [dottedValue, stringValue]
  rw [hbytes, String.toList_ofList, normalizeDots_toDotted hdot, String.ofList_toList]

lemma parseNames_dottedValue {e : SchemaError}
    (h : ∀ f ∈ fields, ∀ ch ∈ f.name.toList, ch.isAlphanum = true ∨ ch = '_') :
    parseNames e (fields.map dottedValue) = .ok (fields.map DeclaredField.name) := by
  refine mapM_eq_ok.mpr ?_
  rw [forall₂_map_left_iff, forall₂_map_right_iff, forall₂_same]
  exact fun f hf => parseName_dottedValue e (h f hf)

end Names

section Write

variable {t : DeclaredTable} {width : Real64 → ℕ}

lemma findIdx?_name (hnames : (fields.map DeclaredField.name).Nodup) {i : ℕ} (hi : i < fields.length) :
    fields.findIdx? (fun f => f.name = fields[i].name) = some i := by
  refine findIdx?_eq_some_iff_getElem.mpr ⟨hi, by simp, fun j hj heq => ?_⟩
  have hdistinct := pairwise_iff_getElem.mp (pairwise_map.mp hnames) j i (hj.trans hi) hi hj
  exact hdistinct (by simpa using heq)

lemma parseUniqueConstraint_json {indexes : List ℕ} (h : UniqueIndexes fields indexes)
    (hnames : (fields.map DeclaredField.name).Nodup)
    (hchars : ∀ f ∈ fields, ∀ ch ∈ f.name.toList, ch.isAlphanum = true ∨ ch = '_') :
    parseUniqueConstraint fields (.array
      ((indexes.filterMap fun i => fields[i]?).map dottedValue)) = .ok indexes := by
  have hfind : ∀ is : List ℕ, (∀ i ∈ is, i < fields.length) →
      ((is.filterMap fun i => fields[i]?).map DeclaredField.name).mapM (fun name =>
        orMissing .invalidUniqueConstraint (fields.findIdx? fun f => f.name = name)) =
          (.ok is : Except SchemaError (List ℕ)) := by
    intro is his
    induction is with
    | nil => rfl
    | cons i rest ih =>
      obtain ⟨hi, hrest⟩ := forall_mem_cons.mp his
      rw [filterMap_cons_some (getElem?_eq_getElem hi), map_cons, mapM_cons,
        findIdx?_name hnames hi, ih hrest]
      rfl
  have hmem : ∀ f ∈ indexes.filterMap fun i => fields[i]?, f ∈ fields := by
    intro f hf
    obtain ⟨i, -, hi⟩ := mem_filterMap.mp hf
    exact mem_of_getElem? hi
  have hparse : parseNames .invalidUniqueConstraint
      ((indexes.filterMap fun i => fields[i]?).map dottedValue) =
        .ok ((indexes.filterMap fun i => fields[i]?).map DeclaredField.name) :=
    parseNames_dottedValue fun f hf => hchars f (hmem f hf)
  have hgood : ¬((indexes.any fun i => fields[i]?.any fun f => f.declaredType = .bytes) = true ∨
      ¬indexes.Nodup) := by
    rw [h.notBytes]
    simp [h.nodup]
  obtain ⟨i, rest, rfl⟩ := exists_cons_of_ne_nil h.ne_nil
  have hi := h.inRange i mem_cons_self
  rw [filterMap_cons_some (getElem?_eq_getElem hi), map_cons] at hparse ⊢
  unfold parseUniqueConstraint
  simp only [hparse, ok_bind]
  rw [← filterMap_cons_some (getElem?_eq_getElem hi), hfind _ h.inRange, ok_bind, if_neg hgood]
  rfl

lemma parseUniqueItems_json {built constraints : List (List ℕ)}
    (h : ∀ indexes ∈ constraints, UniqueIndexes fields indexes)
    (hdistinct : (built ++ constraints).Pairwise fun a b => sameFieldSet a b = false)
    (hnames : (fields.map DeclaredField.name).Nodup)
    (hchars : ∀ f ∈ fields, ∀ ch ∈ f.name.toList, ch.isAlphanum = true ∨ ch = '_') :
    parseUniqueItems fields built (constraints.map fun indexes =>
      .array ((indexes.filterMap fun i => fields[i]?).map dottedValue)) = .ok (built ++ constraints) := by
  induction constraints generalizing built with
  | nil => rw [map_nil, parseUniqueItems, append_nil]
  | cons constraint rest ih =>
    obtain ⟨hconstraint, hrest⟩ := forall_mem_cons.mp h
    have hsame : ¬(built.any fun existing => sameFieldSet existing constraint) = true := by
      rw [any_eq_true]
      rintro ⟨existing, hmem, heq⟩
      have hne := (pairwise_append.mp hdistinct).2.2 existing hmem constraint mem_cons_self
      exact Bool.false_ne_true (hne.symm.trans heq)
    rw [append_cons] at hdistinct ⊢
    rw [map_cons, parseUniqueItems, parseUniqueConstraint_json hconstraint hnames hchars,
      ok_bind, if_neg hsame]
    exact ih hrest hdistinct

def tableJson (t : DeclaredTable) (tree : FieldTree) : JsonObject :=
  members [("namespaced", some (.bool t.namespaced)), ("metadata", t.metadata),
    ("required", SchemaFormat.writeRequiredFields t.fields),
    ("unique", SchemaFormat.writeUniqueConstraints t), ("fields", some (.object tree.json))]

variable {isUsersTable : Bool} {required : List String} {tree : FieldTree}

lemma writeTable_eq_ok (h : t.Accepted compiles isUsersTable required tree)
    (hclean : tree.Clean) {obj : JsonObject} :
    writeTable width t = .ok obj ↔ (∀ f ∈ t.fields, f.Printable width) ∧ obj = tableJson t tree := by
  have hwrite : ∀ members, writeFieldsForPrefix width t.fields
      (namesDepth t.fields) "" = .ok members ↔
        (∀ f ∈ t.fields, f.Printable width) ∧ members = tree.json :=
    h.fields ▸ writeFieldsForPrefix_tree h.fits hclean
  unfold writeTable
  rw [bind_eq_ok]
  constructor
  · rintro ⟨written, hwritten, hobj⟩
    obtain ⟨hall, rfl⟩ := (hwrite written).mp hwritten
    exact ⟨hall, (pure_eq_ok.mp hobj).symm⟩
  · rintro ⟨hall, rfl⟩
    exact ⟨tree.json, (hwrite _).mpr ⟨hall, rfl⟩, rfl⟩

lemma lookup_tableJson (key : String) : (tableJson t tree).lookup key =
    (List.lookup key [("namespaced", some (.bool t.namespaced)), ("metadata", t.metadata),
      ("required", writeRequiredFields t.fields),
      ("unique", writeUniqueConstraints t), ("fields", some (.object tree.json))]).join :=
  lookup_members _ (by simp only [map_cons, map_nil]; decide) key

/-- The required fields, as they are read back. -/
def requiredNames (fields : List DeclaredField) : List String :=
  (fields.filter DeclaredField.required).map DeclaredField.name

lemma parseRequiredSet_json (h : t.Accepted compiles isUsersTable required tree)
    (hchars : ∀ f ∈ t.fields, ∀ ch ∈ f.name.toList, ch.isAlphanum = true ∨ ch = '_')
    (hrequired : ∀ f ∈ t.fields, f.required = required.contains f.name) :
    parseRequiredSet (tableJson t tree) isUsersTable = .ok (requiredNames t.fields) := by
  have hlookup : (tableJson t tree).lookup "required" = writeRequiredFields t.fields := by
    rw [lookup_tableJson]; rfl
  unfold parseRequiredSet getArray
  rw [hlookup, writeRequiredFields]
  by_cases hany : t.fields.any DeclaredField.required = true
  · have husers : ¬isUsersTable = true := fun husers => by
      obtain ⟨f, hf, hrequiredField⟩ := any_eq_true.mp hany
      rw [hrequired f hf, h.usersRequired husers] at hrequiredField
      cases hrequiredField
    simp only [if_pos hany, ok_bind, if_neg husers]
    exact parseNames_dottedValue fun f hf => hchars f (mem_of_mem_filter hf)
  · have hnone : t.fields.filter DeclaredField.required = [] := by
      refine filter_eq_nil_iff.mpr fun f hf hr => hany (any_eq_true.mpr ⟨f, hf, hr⟩)
    simp only [if_neg hany, ok_bind, requiredNames, hnone]
    rfl

lemma required_of_mem {ctx : StoreFieldContext} {pre : String} (hfits : tree.Fits compiles ctx pre) :
    ∀ f ∈ tree.flat, f.required = ctx.required.contains f.name := by
  induction tree generalizing pre with
  | nil => exact fun f hf => absurd hf not_mem_nil
  | leaf segment g rest ih =>
    obtain ⟨-, -, haccepted, -, hrest⟩ := hfits
    exact forall_mem_cons.mpr ⟨haccepted.required, ih hrest⟩
  | object segment inner rest ihi ihr =>
    obtain ⟨-, -, -, hinner, -, hrest⟩ := hfits
    exact forall_mem_append.mpr ⟨ihi hinner, ihr hrest⟩

lemma parseTable_json (h : t.Accepted compiles isUsersTable required tree)
    (hnames : (t.fields.map DeclaredField.name).Nodup) :
    parseTable compiles t.name (.object (tableJson t tree)) isUsersTable = .ok t := by
  have hchars : ∀ f ∈ t.fields, ∀ ch ∈ f.name.toList, ch.isAlphanum = true ∨ ch = '_' :=
    h.fields ▸ name_chars h.fits fun ch hch => absurd hch not_mem_nil
  have hrequired : ∀ f ∈ t.fields, f.required = required.contains f.name :=
    h.fields ▸ required_of_mem h.fits
  have hkeys : rejectUnknownKeys ["fields", "required", "namespaced", "metadata", "unique"]
      (tableJson t tree) = .ok () := by
    refine if_pos (all_eq_true.mpr fun e he => contains_iff_mem.mpr ?_)
    have hkey := (members_keys _).subset (mem_map_of_mem he)
    exact (by decide : ["namespaced", "metadata", "required", "unique", "fields"] ⊆
      ["fields", "required", "namespaced", "metadata", "unique"]) hkey
  have hmetadata : (tableJson t tree).lookup "metadata" = t.metadata := by
    rw [lookup_tableJson]; rfl
  have hnamespaced : getBool (tableJson t tree) "namespaced" .invalidTableDefinition =
      .ok (some t.namespaced) := by
    rw [getBool, lookup_tableJson]; rfl
  have hobject : getObject (tableJson t tree) "fields" .invalidSchema = .ok (some tree.json) := by
    rw [getObject, lookup_tableJson]; rfl
  have hcontains : ∀ name, (requiredNames t.fields).contains name = true ↔
      ∃ f ∈ t.fields, f.required = true ∧ f.name = name := by
    intro name
    simp [requiredNames, and_assoc]
  have hfields : parseObjectFields compiles ⟨requiredNames t.fields, isUsersTable⟩ "" []
      tree.json = .ok t.fields := by
    rw [h.fields]
    refine parseObjectFields_json h.fits (fun f hf => ?_) (fun name hname => ?_) ?_
    · rw [Bool.eq_iff_iff, ← h.fields, hcontains]
      refine ⟨?_, fun hf' => ⟨f, h.fields ▸ hf, hf', rfl⟩⟩
      rintro ⟨g, hg, hgr, hname⟩
      rw [hrequired f (h.fields ▸ hf), ← hname, ← hrequired g hg]
      exact hgr
    · refine Bool.eq_false_of_not_eq_true fun hmem => ?_
      rw [← h.fields] at hmem
      obtain ⟨g, hg, hgr, rfl⟩ := (hcontains name).mp hmem
      exact Bool.false_ne_true (hname.symm.trans ((hrequired g hg).symm.trans hgr))
    · rw [length_nil, Nat.zero_add, ← h.fields]
      exact h.count
  have hresolved : ensureRequiredFieldsResolved (requiredNames t.fields) t.fields = .ok () := by
    refine if_pos (all_eq_true.mpr fun name hname => ?_)
    obtain ⟨f, hf, rfl⟩ := mem_map.mp hname
    exact any_eq_true.mpr ⟨f, mem_of_mem_filter hf, decide_eq_true rfl⟩
  have hunique : parseUniqueConstraints (tableJson t tree) t.fields = .ok t.uniqueConstraints := by
    have hitems : parseUniqueItems t.fields [] (t.uniqueConstraints.map fun indexes =>
        .array ((indexes.filterMap fun i => t.fields[i]?).map dottedValue)) =
          .ok t.uniqueConstraints :=
      parseUniqueItems_json h.unique h.distinct hnames hchars
    have hlookup : (tableJson t tree).lookup "unique" = writeUniqueConstraints t := by
      rw [lookup_tableJson]; rfl
    unfold parseUniqueConstraints getArray
    rw [hlookup, writeUniqueConstraints]
    by_cases hnone : t.uniqueConstraints = []
    · rw [if_pos hnone, hnone]
      rfl
    · rw [if_neg hnone]
      exact hitems
  unfold parseTable
  rw [if_neg (by simp [h.name])]
  simp only [hkeys, ok_bind, getMetadata_json hmetadata fun v hv => (h.metadata v hv).1,
    hnamespaced, parseRequiredSet_json h hchars hrequired, hobject, orMissing, hfields, hresolved,
    hunique]
  rfl

lemma hasUniqueKeys_tableJson (h : t.Accepted compiles isUsersTable required tree) :
    hasUniqueKeys (.object (tableJson t tree)) = true := by
  have hnames : ∀ fields : List DeclaredField,
      itemsHaveUniqueKeys (fields.map dottedValue) = true := by
    intro fields
    refine itemsHaveUniqueKeys_of_forall fun item hitem => ?_
    obtain ⟨f, -, rfl⟩ := mem_map.mp hitem
    rfl
  have hentries : entriesHaveUniqueKeys (tableJson t tree) = true := by
    refine entriesHaveUniqueKeys_members _ ?_
    simp only [forall_mem_cons]
    refine ⟨?_, fun value hvalue => (h.metadata value hvalue).2, ?_, ?_, ?_,
      fun _ hmem => absurd hmem not_mem_nil⟩
    · rintro _ ⟨⟩
      rfl
    · rintro value hvalue
      rw [writeRequiredFields] at hvalue
      split_ifs at hvalue
      · cases hvalue
        exact hnames _
      · cases hvalue
    · rintro value hvalue
      rw [writeUniqueConstraints] at hvalue
      split_ifs at hvalue
      · cases hvalue
      · cases hvalue
        refine itemsHaveUniqueKeys_of_forall fun item hitem => ?_
        obtain ⟨indexes, -, rfl⟩ := mem_map.mp hitem
        exact hnames _
    · rintro _ ⟨⟩
      exact FieldTree.hasUniqueKeys_json h.fits
  have hnodup : ((tableJson t tree).map Prod.fst).Nodup :=
    (members_keys _).nodup (by simp only [map_cons, map_nil]; decide)
  rw [hasUniqueKeys, hentries, decide_eq_true hnodup]
  rfl

end Write

end SchemaParse
end ZyncBase
