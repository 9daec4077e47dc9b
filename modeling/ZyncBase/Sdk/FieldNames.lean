import ZyncBase.Schema.RoundTrip
import ZyncBase.Sdk.Path

/-! The client's flat keys and the server's field names: which schemas they agree on. -/
namespace ZyncBase

open List SchemaParse

variable {tree : FieldTree}

namespace FieldTree

variable {compiles : Bytes → Bool} {ctx : StoreFieldContext} {pre : String}

lemma flat_names (hfits : tree.Fits compiles ctx pre) :
    tree.flat.map DeclaredField.name = tree.paths.map (Sdk.leafKey pre) := by
  induction tree generalizing pre with
  | nil => rfl
  | leaf segment f rest ih =>
    obtain ⟨-, hname, -, -, hrest⟩ := hfits
    rw [flat, paths, map_cons, map_cons, ih hrest, hname]
    rfl
  | object segment inner rest ihi ihr =>
    obtain ⟨-, -, -, hinner, -, hrest⟩ := hfits
    rw [flat, paths, map_append, map_append, ihi hinner, ihr hrest, map_map]
    rfl

lemma path_segments (hfits : tree.Fits compiles ctx pre) :
    ∀ path ∈ tree.paths, (∃ segment ∈ tree.segments, ∃ rest, path = segment :: rest) ∧
      ∀ segment ∈ path, ctx.AllowsSegment segment := by
  induction tree generalizing pre with
  | nil => exact fun path hpath => absurd hpath not_mem_nil
  | leaf segment f rest ih =>
    obtain ⟨hallows, -, -, -, hrest⟩ := hfits
    refine forall_mem_cons.mpr ⟨⟨⟨segment, mem_cons_self, [], rfl⟩, ?_⟩, ?_⟩
    · exact forall_mem_singleton.mpr hallows
    · intro path hpath
      obtain ⟨⟨head, hhead, tail, hpath⟩, hall⟩ := ih hrest path hpath
      exact ⟨⟨head, mem_cons_of_mem _ hhead, tail, hpath⟩, hall⟩
  | object segment inner rest ihi ihr =>
    obtain ⟨hallows, -, -, hinner, -, hrest⟩ := hfits
    refine forall_mem_append.mpr ⟨forall_mem_map.mpr fun path hpath => ?_, ?_⟩
    · refine ⟨⟨segment, mem_cons_self, path, rfl⟩, forall_mem_cons.mpr ⟨hallows, ?_⟩⟩
      exact (ihi hinner path hpath).2
    · intro path hpath
      obtain ⟨⟨head, hhead, tail, hpath⟩, hall⟩ := ihr hrest path hpath
      exact ⟨⟨head, mem_cons_of_mem _ hhead, tail, hpath⟩, hall⟩

lemma incomparable_of_head_ne {a b : String} (h : a ≠ b) (p q : List String) :
    Sdk.Incomparable (a :: p) (b :: q) :=
  ⟨fun hp => h (cons_prefix_cons.mp hp).1, fun hp => h (cons_prefix_cons.mp hp).1.symm⟩

lemma paths_incomparable (hfits : tree.Fits compiles ctx pre) : tree.paths.Pairwise Sdk.Incomparable := by
  induction tree generalizing pre with
  | nil => exact List.Pairwise.nil
  | leaf segment f rest ih =>
    obtain ⟨-, -, -, hmem, hrest⟩ := hfits
    refine pairwise_cons.mpr ⟨fun path hpath => ?_, ih hrest⟩
    obtain ⟨⟨head, hhead, tail, rfl⟩, -⟩ := path_segments hrest path hpath
    exact incomparable_of_head_ne (ne_of_mem_of_not_mem hhead hmem).symm [] tail
  | object segment inner rest ihi ihr =>
    obtain ⟨-, -, -, hinner, hmem, hrest⟩ := hfits
    refine pairwise_append.mpr ⟨?_, ihr hrest, ?_⟩
    · refine pairwise_map.mpr ((ihi hinner).imp fun {p q} hpq => ?_)
      exact ⟨fun h => hpq.1 (cons_prefix_cons.mp h).2, fun h => hpq.2 (cons_prefix_cons.mp h).2⟩
    · intro p hp q hq
      obtain ⟨tail, -, rfl⟩ := mem_map.mp hp
      obtain ⟨⟨head, hhead, rest', rfl⟩, -⟩ := path_segments hrest q hq
      exact incomparable_of_head_ne (ne_of_mem_of_not_mem hhead hmem).symm tail rest'

lemma clean_iff_paths (hfits : tree.Fits compiles ctx pre) :
    tree.Clean ↔ ∀ path ∈ tree.paths, ∀ segment ∈ path.dropLast, segment.toList.getLast? ≠ some '_' := by
  induction tree generalizing pre with
  | nil => exact ⟨fun _ path hpath => absurd hpath not_mem_nil, fun _ => trivial⟩
  | leaf segment f rest ih =>
    rw [Clean, paths, forall_mem_cons, ih hfits.2.2.2.2]
    simp
  | object segment inner rest ihi ihr =>
    obtain ⟨-, -, hne, hinner, -, hrest⟩ := hfits
    have hpaths : inner.paths ≠ [] := by
      intro hnil
      have hnames := flat_names hinner
      rw [hnil, map_nil, map_eq_nil_iff] at hnames
      exact hne hnames
    have hcons : ∀ path ∈ inner.paths, (segment :: path).dropLast = segment :: path.dropLast := by
      intro path hpath
      obtain ⟨⟨head, -, tail, rfl⟩, -⟩ := path_segments hinner path hpath
      exact dropLast_cons_of_ne_nil (cons_ne_nil _ _)
    rw [Clean, paths, forall_mem_append, forall_mem_map, ihi hinner, ihr hrest]
    constructor
    · rintro ⟨hlast, hbelow, hafter⟩
      refine ⟨fun path hpath => ?_, hafter⟩
      rw [hcons path hpath]
      exact forall_mem_cons.mpr ⟨hlast, hbelow path hpath⟩
    · rintro ⟨hbelow, hafter⟩
      obtain ⟨path, hpath⟩ := exists_mem_of_ne_nil _ hpaths
      refine ⟨hbelow path hpath segment ?_, fun path hpath other hother =>
        hbelow path hpath other ?_, hafter⟩
      · rw [hcons path hpath]
        exact mem_cons_self
      · rw [hcons path hpath]
        exact mem_cons_of_mem _ hother

lemma path_clean (hfits : tree.Fits compiles ctx pre) : ∀ path ∈ tree.paths, path ≠ [] ∧ "" ∉ path ∧
    ∀ segment ∈ path, DoubledSeparator.hasDouble '_' segment.toList = false := by
  intro path hpath
  obtain ⟨⟨head, -, tail, rfl⟩, hall⟩ := path_segments hfits path hpath
  exact ⟨cons_ne_nil _ _, fun hmem => (hall "" hmem).ne_empty rfl,
    fun segment hmem => (hall segment hmem).hasDouble_eq_false⟩

lemma names_eq_join (hfits : tree.Fits compiles ctx "") :
    tree.flat.map DeclaredField.name = tree.paths.map Sdk.joinFieldPath := by
  rw [flat_names hfits]
  exact map_congr_left fun path hpath =>
    Sdk.leafKey_eq_joinFieldPath (path_clean hfits path hpath).2.1

lemma splits_iff_clean (hfits : tree.Fits compiles ctx pre) :
    (∀ path ∈ tree.paths, Sdk.splitFieldPath (Sdk.joinFieldPath path) = path) ↔ tree.Clean := by
  rw [clean_iff_paths hfits]
  exact forall₂_congr fun path hpath =>
    Sdk.splitFieldPath_joinFieldPath_iff (path_clean hfits path hpath).1 (path_clean hfits path hpath).2.2

lemma split_names (hfits : tree.Fits compiles ctx "")
    (hnames : ∀ f ∈ tree.flat, ¬['_', '_', '_'] <:+: f.name.toList) :
    (tree.flat.map fun f => Sdk.splitFieldPath f.name) = tree.paths := by
  have hsplit := (splits_iff_clean hfits).mpr (clean_of_names hfits hnames)
  have hmap := congrArg (List.map Sdk.splitFieldPath) (names_eq_join hfits)
  rw [map_map, map_map] at hmap
  exact hmap.trans ((map_congr_left hsplit).trans (map_id _))

end FieldTree

namespace Sdk

variable {compiles : Bytes → Bool} {json : ZyncBase.JsonValue} {s : DeclaredSchema}

/-- The client finds the fields of a table under the names that the server gives them. -/
structure FieldNamesAgree (t : DeclaredTable) (paths : List (List String)) : Prop where
  split : (t.fields.map fun f => splitFieldPath f.name) = paths
  record : ∀ flat : Entries, (flat.map Prod.fst).Nodup →
    (∀ e ∈ flat, e.1 ∈ t.fields.map DeclaredField.name ∧ isObject e.2 = false) →
      (flatten (unflatten flat)).Perm flat
  nested : ∀ obj : Entries, hasDistinctKeys (.object obj) = true →
    (∀ leaf ∈ entriesLeaves obj, leaf.1 ∈ paths ∧ isObject leaf.2 = false) → unflatten (flatten obj) = obj

/-- They agree exactly when no name has three underscores in a row. -/
theorem fieldNamesAgree_iff (h : initFromJson compiles json = .ok s) :
    (∀ t ∈ s.tables, FieldNamesAgree t (tablePaths json t.name)) ↔
      ∀ t ∈ s.tables, ∀ f ∈ t.fields, ¬['_', '_', '_'] <:+: f.name.toList := by
  refine forall₂_congr fun t ht => ?_
  obtain ⟨isUsersTable, required, tree, haccepted, hpaths⟩ := initFromJson_tree h t ht
  have hfits := haccepted.fits
  have hsegments := FieldTree.path_clean hfits
  have hnames : t.fields.map DeclaredField.name = tree.paths.map joinFieldPath := by
    rw [haccepted.fields, FieldTree.names_eq_join hfits]
  have hsplit := FieldTree.splits_iff_clean hfits
  have hmap : (t.fields.map fun f => splitFieldPath f.name) =
      tree.paths.map fun path => splitFieldPath (joinFieldPath path) := by
    have := congrArg (List.map splitFieldPath) hnames
    simpa only [List.map_map, Function.comp_def] using this
  have hself : (tree.paths.map fun path => splitFieldPath (joinFieldPath path)) = tree.paths ↔
      ∀ path ∈ tree.paths, splitFieldPath (joinFieldPath path) = path := by
    rw [← List.map_inj_left, List.map_id']
  rw [← hpaths]
  constructor
  · rintro ⟨hall, -, -⟩
    rw [hmap] at hall
    have hclean := hsplit.mp (hself.mp hall)
    rw [haccepted.fields]
    exact FieldTree.names_of_clean hfits SchemaFormat.goodPrefix_empty hclean
  · intro hall
    rw [haccepted.fields] at hall
    have hpath := hsplit.mpr (FieldTree.clean_of_names hfits hall)
    have hfield : FieldPaths tree.paths :=
      ⟨FieldTree.paths_incomparable hfits, fun path hp =>
        ⟨(hsegments path hp).1, (hsegments path hp).2.1⟩, hpath⟩
    exact ⟨hmap.trans (hself.mpr hpath),
      fun flat hkeys hflat => flatten_unflatten hfield hkeys (hnames ▸ hflat),
      fun obj hdistinct hleaf => unflatten_flatten hfield hdistinct hleaf⟩

namespace FieldNamesExample

open SchemaRoundTripExample

theorem fieldNamesAgree_iff_nested :
    (∀ t ∈ (noteSchema "a__b").tables, FieldNamesAgree t (tablePaths nested t.name)) ↔
      ∀ t ∈ (noteSchema "a__b").tables, ∀ f ∈ t.fields, ¬['_', '_', '_'] <:+: f.name.toList :=
  @fieldNamesAgree_iff (fun _ => true) _ _ rfl

/-- The object and its field both come back under other names. -/
theorem trailingUnderscore_renamed :
    initFromJson (fun _ => true) trailingUnderscore = .ok (noteSchema "a___b") ∧
      tablePaths trailingUnderscore "notes" = [["a_", "b"]] ∧
        splitFieldPath "a___b" = ["a", "_b"] ∧ unflatten (flatten [("a_", .object [("b", .boolean true)])]) =
            [("a", .object [("_b", .boolean true)])] :=
  ⟨rfl, rfl, by decide, by rfl⟩

end FieldNamesExample

end Sdk
end ZyncBase
