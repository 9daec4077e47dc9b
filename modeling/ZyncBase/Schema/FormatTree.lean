import ZyncBase.Schema.FormatField

/-! The fields of a table are written as their tree, when no object's name ends in an underscore. -/
namespace ZyncBase

open FieldPath List Outcome SchemaParse FieldTree

namespace FieldTree

/-- No object's name ends in an underscore. -/
def Clean : FieldTree → Prop
  | nil => True
  | leaf _ _ rest => rest.Clean
  | object segment inner rest =>
    segment.toList.getLast? ≠ some '_' ∧ inner.Clean ∧ rest.Clean

def height : FieldTree → ℕ
  | nil => 0
  | leaf _ _ rest => rest.height
  | object _ inner rest => max (inner.height + 1) rest.height

def json : FieldTree → JsonObject
  | nil => []
  | leaf segment f rest => (segment, .object f.json) :: rest.json
  | object segment inner rest =>
    (segment, .object [("type", SchemaFormat.stringValue "object"),
      ("fields", .object inner.json)]) :: rest.json

def Within (fields : List DeclaredField) (pre : String) : FieldTree → Prop
  | nil => True
  | leaf _ _ rest => rest.Within fields pre
  | object segment inner rest =>
    (fields.filter fun f => (remainder f.name (joinSegment pre segment)).isSome) = inner.flat ∧
      inner.Within fields (joinSegment pre segment) ∧ rest.Within fields pre

end FieldTree

namespace SchemaParse.StoreFieldContext.AllowsSegment

variable {ctx : StoreFieldContext} {segment : String} (h : ctx.AllowsSegment segment)
include h

lemma ne_empty : segment ≠ "" := by
  rintro rfl
  exact absurd h.valid (by decide)

lemma hasDouble_eq_false : DoubledSeparator.hasDouble '_' segment.toList = false := by
  have hvalid := h.valid
  unfold isValidSchemaIdentifier at hvalid
  split at hvalid
  · cases hvalid
  · rename_i first rest hlist
    simp only [Bool.and_eq_true, Bool.not_eq_true'] at hvalid
    rw [hlist]
    exact hvalid.1.2

lemma exists_alpha : ∃ first rest, segment.toList = first :: rest ∧ first.isAlpha = true := by
  have hvalid := h.valid
  unfold isValidSchemaIdentifier at hvalid
  split at hvalid
  · cases hvalid
  · rename_i first rest hlist
    simp only [Bool.and_eq_true] at hvalid
    exact ⟨first, rest, hlist, hvalid.1.1⟩

end SchemaParse.StoreFieldContext.AllowsSegment

variable {tree : FieldTree} {segment : String} {fields : List DeclaredField}

namespace FieldTree

variable {compiles : Bytes → Bool} {ctx : StoreFieldContext} {pre : String}

lemma remainder_of_mem (hfits : tree.Fits compiles ctx pre)
    (hclean : tree.Clean) {f : DeclaredField} (hf : f ∈ tree.flat) :
    ∃ rem, remainder f.name pre = some rem ∧ (splitFirst rem).1 ∈ tree.segments := by
  induction tree generalizing pre with
  | nil => exact absurd hf not_mem_nil
  | leaf segment g rest ih =>
    obtain ⟨hallows, hname, -, -, hrest⟩ := hfits
    obtain rfl | hf := mem_cons.mp hf
    · refine ⟨segment, hname ▸ remainder_joinSegment hallows.ne_empty, ?_⟩
      rw [splitFirst_segment hallows.hasDouble_eq_false]
      exact mem_cons_self
    · obtain ⟨rem, hrem, hmem⟩ := ih hrest hclean hf
      exact ⟨rem, hrem, mem_cons_of_mem _ hmem⟩
  | object segment inner rest ihi ihr =>
    obtain ⟨hallows, -, -, hinner, -, hrest⟩ := hfits
    obtain ⟨hlast, hcleanInner, hcleanRest⟩ := hclean
    obtain hf | hf := mem_append.mp hf
    · obtain ⟨rem, hrem, -⟩ := ihi hinner hcleanInner hf
      refine ⟨_, remainder_of_child hallows.ne_empty hrem, ?_⟩
      rw [splitFirst_joined hallows.hasDouble_eq_false hlast]
      exact mem_cons_self
    · obtain ⟨rem, hrem, hmem⟩ := ihr hrest hcleanRest hf
      exact ⟨rem, hrem, mem_cons_of_mem _ hmem⟩

lemma filter_eq_nil (hfits : tree.Fits compiles ctx pre)
    (hclean : tree.Clean) (hallows : ctx.AllowsSegment segment)
    (hlast : segment.toList.getLast? ≠ some '_') (hmem : segment ∉ tree.segments) :
    (tree.flat.filter fun f => (remainder f.name (joinSegment pre segment)).isSome) = [] := by
  refine filter_eq_nil_iff.mpr fun f hf hsome => hmem ?_
  obtain ⟨rem, hrem⟩ := Option.isSome_iff_exists.mp hsome
  obtain ⟨rem', hrem', hseg⟩ := remainder_of_mem hfits hclean hf
  rw [remainder_of_child hallows.ne_empty hrem] at hrem'
  rw [← Option.some.inj hrem', splitFirst_joined hallows.hasDouble_eq_false hlast] at hseg
  exact hseg

lemma filter_eq_self (hfits : tree.Fits compiles ctx pre) (hclean : tree.Clean) :
    (tree.flat.filter fun f => (remainder f.name pre).isSome) = tree.flat := by
  refine List.filter_eq_self.mpr fun f hf => ?_
  obtain ⟨rem, hrem, -⟩ := remainder_of_mem hfits hclean hf
  rw [hrem]
  rfl

lemma filter_child (hne : segment ≠ "") :
    (fields.filter fun f => (remainder f.name (joinSegment pre segment)).isSome) =
      (fields.filter fun f => (remainder f.name pre).isSome).filter fun f =>
        (remainder f.name (joinSegment pre segment)).isSome := by
  rw [filter_filter]
  refine filter_congr fun f _ => ?_
  cases h : remainder f.name (joinSegment pre segment) with
  | none => rfl
  | some rem => rw [remainder_of_child hne h]; rfl

lemma within (hfits : tree.Fits compiles ctx pre) (hclean : tree.Clean)
    (hfields : ∀ segment, ctx.AllowsSegment segment → segment.toList.getLast? ≠ some '_' →
      segment ∈ tree.segments →
      (fields.filter fun f => (remainder f.name (joinSegment pre segment)).isSome) =
        tree.flat.filter fun f => (remainder f.name (joinSegment pre segment)).isSome) :
    tree.Within fields pre := by
  induction tree generalizing pre with
  | nil => trivial
  | leaf segment g rest ih =>
    obtain ⟨hallows, hname, -, hmem, hrest⟩ := hfits
    refine ih hrest hclean fun other hother hlast hin => ?_
    rw [hfields other hother hlast (mem_cons_of_mem _ hin), flat]
    have hnone : remainder g.name (joinSegment pre other) = none := by
      refine Option.eq_none_iff_forall_ne_some.mpr fun rem hrem => ?_
      have hrem' := remainder_of_child hother.ne_empty hrem
      rw [hname, remainder_joinSegment hallows.ne_empty] at hrem'
      have hsplit := splitFirst_joined hother.hasDouble_eq_false hlast rem
      rw [← Option.some.inj hrem', splitFirst_segment hallows.hasDouble_eq_false] at hsplit
      cases hsplit
    simp [hnone]
  | object segment inner rest ihi ihr =>
    obtain ⟨hallows, -, -, hinner, hmem, hrest⟩ := hfits
    obtain ⟨hlast, hcleanInner, hcleanRest⟩ := hclean
    have hfilter : (fields.filter fun f =>
        (remainder f.name (joinSegment pre segment)).isSome) = inner.flat := by
      rw [hfields segment hallows hlast mem_cons_self, flat, filter_append, filter_eq_self hinner hcleanInner,
        filter_eq_nil hrest hcleanRest hallows hlast hmem, append_nil]
    refine ⟨hfilter, ihi hinner hcleanInner fun other hother _ _ => ?_,
      ihr hrest hcleanRest fun other hother hlast' hin => ?_⟩
    · rw [filter_child hother.ne_empty, hfilter]
    · rw [hfields other hother hlast' (mem_cons_of_mem _ hin), flat, filter_append]
      have hnil : (inner.flat.filter fun f =>
          (remainder f.name (joinSegment pre other)).isSome) = [] := by
        refine filter_eq_nil_iff.mpr fun f hf hsome => hmem ?_
        obtain ⟨rem, hrem⟩ := Option.isSome_iff_exists.mp hsome
        obtain ⟨rem', hrem', -⟩ := remainder_of_mem hinner hcleanInner hf
        have hboth := (remainder_of_child hother.ne_empty hrem).symm.trans
          (remainder_of_child hallows.ne_empty hrem')
        have hsplit := splitFirst_joined hother.hasDouble_eq_false hlast' rem
        rw [Option.some.inj hboth, splitFirst_joined hallows.hasDouble_eq_false hlast] at hsplit
        exact (Prod.mk.inj hsplit).1 ▸ hin
      rw [hnil, nil_append]

end FieldTree

variable {pre : String}

namespace SchemaFormat

variable {compiles : Bytes → Bool} {ctx : StoreFieldContext} {width : Real64 → ℕ}

section Groups

variable {child : String → Except FormatError JsonObject} {pre : String} {seen : List String}

lemma writeGroups_filter (fields : List DeclaredField) : writeGroups width child pre seen fields =
    writeGroups width child pre seen (fields.filter fun f => (remainder f.name pre).isSome) := by
  induction fields generalizing seen with
  | nil => rfl
  | cons f rest ih =>
    cases h : remainder f.name pre with
    | none => simp only [writeGroups, h, filter_cons, Option.isSome_none, Bool.false_eq_true, if_false, ih]
    | some rem =>
      simp only [writeGroups, h, filter_cons, Option.isSome_some, if_true]
      split_ifs
      · exact ih
      · simp only [ih]
      · simp only [ih]

lemma writeGroups_seen {rest : List DeclaredField}
    (h : ∀ f ∈ fields, ∃ rem, remainder f.name pre = some rem ∧ (splitFirst rem).1 ∈ seen) :
    writeGroups width child pre seen (fields ++ rest) = writeGroups width child pre seen rest := by
  induction fields with
  | nil => rfl
  | cons f fields ih =>
    obtain ⟨⟨rem, hrem, hseen⟩, hrest⟩ := forall_mem_cons.mp h
    rw [cons_append, writeGroups]
    simp only [hrem, if_pos hseen]
    exact ih hrest

end Groups

lemma not_seen_cons {segments seen : List String} (hmem : segment ∉ segments)
    (hseen : ∀ other ∈ segments, other ∉ seen) : ∀ other ∈ segments, other ∉ segment :: seen := by
  intro other hother h
  obtain rfl | h := mem_cons.mp h
  · exact hmem hother
  · exact hseen other hother h

lemma writeGroups_tree {depth : ℕ}
    {seen : List String} (hfits : tree.Fits compiles ctx pre) (hclean : tree.Clean)
    (hwithin : tree.Within fields pre) (hheight : tree.height ≤ depth)
    (hseen : ∀ segment ∈ tree.segments, segment ∉ seen) (obj : JsonObject) :
    writeGroups width (writeFieldsForPrefix width fields depth) pre seen tree.flat = .ok obj ↔
      (∀ f ∈ tree.flat, f.Printable width) ∧ obj = tree.json := by
  induction tree generalizing pre depth seen obj with
  | nil =>
    rw [flat, writeGroups, json]
    simp [eq_comm]
  | leaf segment f rest ih =>
    obtain ⟨hallows, hname, -, hmem, hrest⟩ := hfits
    obtain ⟨hsegment, hseen⟩ := forall_mem_cons.mp hseen
    have hrem : remainder f.name pre = some segment :=
      hname ▸ remainder_joinSegment hallows.ne_empty
    have hih : ∀ members, writeGroups width (writeFieldsForPrefix width fields depth) pre
        (segment :: seen) rest.flat = .ok members ↔
          (∀ f ∈ rest.flat, f.Printable width) ∧ members = rest.json :=
      ih hrest hclean hwithin hheight (not_seen_cons hmem hseen)
    rw [flat, writeGroups, json, forall_mem_cons]
    simp only [hrem, splitFirst_segment hallows.hasDouble_eq_false, if_neg hsegment,
      Option.isSome_none, Bool.false_eq_true, if_false]
    constructor
    · intro h
      obtain ⟨value, hvalue, h⟩ := bind_eq_ok.mp h
      obtain ⟨members, hmembers, h⟩ := bind_eq_ok.mp h
      obtain ⟨hf, rfl⟩ := writeFieldDefinition_eq_ok.mp hvalue
      obtain ⟨hall, rfl⟩ := (hih members).mp hmembers
      exact ⟨⟨hf, hall⟩, (pure_eq_ok.mp h).symm⟩
    · rintro ⟨⟨hf, hall⟩, rfl⟩
      rw [writeFieldDefinition_eq_ok.mpr ⟨hf, rfl⟩, (hih _).mpr ⟨hall, rfl⟩]
      rfl
  | object segment inner rest ihi ihr =>
    obtain ⟨hallows, -, hne, hinner, hmem, hrest⟩ := hfits
    obtain ⟨hlast, hcleanInner, hcleanRest⟩ := hclean
    obtain ⟨hfilter, hwithinInner, hwithinRest⟩ := hwithin
    obtain ⟨hsegment, hseen⟩ := forall_mem_cons.mp hseen
    obtain ⟨hdeep, hshallow⟩ := Nat.max_le.mp hheight
    have hrem : ∀ f ∈ inner.flat, ∃ rem, remainder f.name pre = some (segment ++ "__" ++ rem) := by
      intro f hf
      obtain ⟨rem, hrem, -⟩ := remainder_of_mem hinner hcleanInner hf
      exact ⟨rem, remainder_of_child hallows.ne_empty hrem⟩
    have hsplit := splitFirst_joined hallows.hasDouble_eq_false hlast
    obtain ⟨depth, rfl⟩ : ∃ d, depth = d + 1 := ⟨depth - 1, by omega⟩
    have hchild : ∀ nested, writeFieldsForPrefix width fields (depth + 1)
        (joinSegment pre segment) = .ok nested ↔
          (∀ f ∈ inner.flat, f.Printable width) ∧ nested = inner.json := by
      intro nested
      rw [writeFieldsForPrefix, writeGroups_filter, hfilter]
      exact ihi hinner hcleanInner hwithinInner (Nat.le_of_succ_le_succ hdeep)
        (fun _ _ => not_mem_nil) nested
    have hih : ∀ members, writeGroups width (writeFieldsForPrefix width fields (depth + 1)) pre
        (segment :: seen) rest.flat = .ok members ↔
          (∀ f ∈ rest.flat, f.Printable width) ∧ members = rest.json :=
      ihr hrest hcleanRest hwithinRest hshallow (not_seen_cons hmem hseen)
    have hskip : ∀ f ∈ inner.flat, ∃ rem, remainder f.name pre = some rem ∧
        (splitFirst rem).1 ∈ segment :: seen := by
      intro f hf
      obtain ⟨rem, hf⟩ := hrem f hf
      exact ⟨_, hf, by rw [hsplit]; exact mem_cons_self⟩
    rw [flat, json, forall_mem_append]
    cases hflat : inner.flat with
    | nil => exact absurd hflat hne
    | cons f more =>
      rw [hflat] at hskip hchild
      obtain ⟨rem, hf⟩ := hrem f (hflat ▸ mem_cons_self)
      rw [cons_append, writeGroups]
      simp only [hf, hsplit, if_neg hsegment, Option.isSome_some, if_true,
        writeGroups_seen (forall_mem_cons.mp hskip).2]
      constructor
      · intro h
        obtain ⟨nested, hnested, h⟩ := bind_eq_ok.mp h
        simp only [pure_bind] at h
        obtain ⟨members, hmembers, h⟩ := bind_eq_ok.mp h
        obtain ⟨hall, rfl⟩ := (hchild nested).mp hnested
        obtain ⟨hall', rfl⟩ := (hih members).mp hmembers
        exact ⟨⟨hall, hall'⟩, (pure_eq_ok.mp h).symm⟩
      · rintro ⟨⟨hall, hall'⟩, rfl⟩
        rw [(hchild _).mpr ⟨hall, rfl⟩, ok_bind, pure_bind, (hih _).mpr ⟨hall', rfl⟩]
        rfl

lemma exists_long_name (hfits : tree.Fits compiles ctx pre)
    (hne : tree.flat ≠ []) : ∃ f ∈ tree.flat, pre.length + tree.height ≤ f.name.length := by
  have hjoin : ∀ (pre : String) {segment : String}, segment ≠ "" →
      pre.length + 1 ≤ (joinSegment pre segment).length := by
    intro pre segment hsegment
    have hpos : segment.length ≠ 0 := by simpa using hsegment
    have hlen : "__".length = 2 := rfl
    unfold joinSegment
    split_ifs with hpre
    · simp [hpre]
      omega
    · simp only [String.length_append, hlen]
      omega
  induction tree generalizing pre with
  | nil => exact absurd rfl hne
  | leaf segment f rest ih =>
    obtain ⟨hallows, hname, -, -, hrest⟩ := hfits
    by_cases hflat : rest.flat = []
    · refine ⟨f, mem_cons_self, ?_⟩
      have hlong := hjoin pre hallows.ne_empty
      rw [height, eq_nil hrest hflat, height, hname]
      omega
    · obtain ⟨g, hg, hlong⟩ := ih hrest hflat
      exact ⟨g, mem_cons_of_mem f hg, hlong⟩
  | object segment inner rest ihi ihr =>
    obtain ⟨hallows, -, hinnerNe, hinner, -, hrest⟩ := hfits
    have hlonger := hjoin pre hallows.ne_empty
    obtain ⟨f, hf, hlong⟩ := ihi hinner hinnerNe
    by_cases hheight : rest.height ≤ inner.height + 1
    · refine ⟨f, mem_append_left _ hf, ?_⟩
      rw [height, max_eq_left hheight]
      omega
    · have hflat : rest.flat ≠ [] := fun hflat => by
        rw [eq_nil hrest hflat, height] at hheight
        omega
      obtain ⟨g, hg, hlong⟩ := ihr hrest hflat
      refine ⟨g, mem_append_right _ hg, ?_⟩
      rw [height, max_eq_right (by omega)]
      exact hlong

lemma length_le_namesDepth {f : DeclaredField} (hf : f ∈ fields) : f.name.length < namesDepth fields := by
  induction fields with
  | nil => exact absurd hf not_mem_nil
  | cons g rest ih =>
    obtain rfl | hf := mem_cons.mp hf
    · exact Nat.lt_succ_of_le (le_max_left _ _)
    · exact lt_of_lt_of_le (ih hf) (Nat.succ_le_succ (le_max_right _ _))

lemma writeFieldsForPrefix_tree (hfits : tree.Fits compiles ctx "") (hclean : tree.Clean) (obj : JsonObject) :
    writeFieldsForPrefix width tree.flat (namesDepth tree.flat) "" = .ok obj ↔
      (∀ f ∈ tree.flat, f.Printable width) ∧ obj = tree.json := by
  have hheight : tree.height < namesDepth tree.flat := by
    by_cases hflat : tree.flat = []
    · rw [eq_nil hfits hflat]
      exact Nat.zero_lt_one
    · obtain ⟨f, hf, hlong⟩ := exists_long_name hfits hflat
      have hdepth := length_le_namesDepth hf
      omega
  obtain ⟨depth, hdepth⟩ : ∃ d, namesDepth tree.flat = d + 1 := ⟨_, rfl⟩
  rw [hdepth] at hheight ⊢
  rw [writeFieldsForPrefix]
  exact writeGroups_tree hfits hclean (tree.within hfits hclean fun _ _ _ _ => rfl)
    (Nat.le_of_lt_succ hheight) (fun _ _ => not_mem_nil) obj

end SchemaFormat

section Unique

variable {compiles : Bytes → Bool} {ctx : StoreFieldContext}

lemma DeclaredConstraints.hasUniqueKeys_table (c : DeclaredConstraints) :
    ∀ entry ∈ c.table, ∀ value ∈ entry.2, hasUniqueKeys value = true := by
  have henum : ∀ values : List EnumValue, hasUniqueKeys (.array (values.map EnumValue.json)) = true := by
    intro values
    rw [hasUniqueKeys]
    refine itemsHaveUniqueKeys_of_forall fun item hitem => ?_
    obtain ⟨v, -, rfl⟩ := mem_map.mp hitem
    cases v <;> rfl
  have hbound : ∀ b : Bound, hasUniqueKeys b.json = true := by
    rintro (_ | _) <;> rfl
  simp only [DeclaredConstraints.table, forall_mem_cons, Option.mem_map, forall_exists_index,
    and_imp, forall_apply_eq_imp_iff₂]
  exact ⟨fun values _ => henum values, fun _ _ => rfl, fun _ _ => rfl, fun _ _ => rfl,
    fun _ _ => rfl, fun b _ => hbound b, fun b _ => hbound b, fun _ h => nomatch h⟩

lemma DeclaredField.hasUniqueKeys_json {f : DeclaredField} {required : List String}
    (hf : f.Accepted compiles required) : hasUniqueKeys (.object f.json) = true := by
  have htable : ∀ entry ∈ f.table, ∀ value ∈ entry.2, hasUniqueKeys value = true := by
    rw [DeclaredField.table, forall_mem_append]
    constructor
    · simp only [forall_mem_cons, Option.mem_map, forall_exists_index, and_imp, forall_apply_eq_imp_iff₂]
      refine ⟨?_, ?_, ?_, fun _ _ => rfl, fun _ _ => rfl, fun value hvalue =>
        (hf.metadata value hvalue).2, fun _ h => absurd h not_mem_nil⟩
      · rintro _ ⟨⟩
        rfl
      · intro value hvalue
        split_ifs at hvalue
        · cases hvalue
          rfl
        · cases hvalue
      · intro value hvalue
        split_ifs at hvalue
        · cases hvalue
          rfl
        · cases hvalue
    · cases f.constraints with
      | none => exact fun _ h => absurd h not_mem_nil
      | some c => exact c.hasUniqueKeys_table
  rw [hasUniqueKeys, decide_eq_true f.json_keys_nodup, Bool.true_and]
  exact entriesHaveUniqueKeys_members f.table htable

lemma FieldTree.json_keys (tree : FieldTree) : tree.json.map Prod.fst = tree.segments := by
  induction tree with
  | nil => rfl
  | leaf segment f rest ih => rw [json, map_cons, ih, segments]
  | object segment inner rest _ ih => rw [json, map_cons, ih, segments]

lemma FieldTree.segments_nodup (hfits : tree.Fits compiles ctx pre) : tree.segments.Nodup := by
  induction tree with
  | nil => exact nodup_nil
  | leaf segment f rest ih =>
    obtain ⟨-, -, -, hmem, hrest⟩ := hfits
    exact nodup_cons.mpr ⟨hmem, ih hrest⟩
  | object segment inner rest _ ih =>
    obtain ⟨-, -, -, -, hmem, hrest⟩ := hfits
    exact nodup_cons.mpr ⟨hmem, ih hrest⟩

lemma FieldTree.hasUniqueKeys_json
    (hfits : tree.Fits compiles ctx pre) : hasUniqueKeys (.object tree.json) = true := by
  have hentries : entriesHaveUniqueKeys tree.json = true := by
    induction tree generalizing pre with
    | nil => rfl
    | leaf segment f rest ih =>
      obtain ⟨-, -, haccepted, -, hrest⟩ := hfits
      rw [json, entriesHaveUniqueKeys, DeclaredField.hasUniqueKeys_json haccepted, ih hrest]
      rfl
    | object segment inner rest ihi ihr =>
      obtain ⟨-, -, -, hinner, -, hrest⟩ := hfits
      have hnodup : (inner.json.map Prod.fst).Nodup :=
        inner.json_keys ▸ segments_nodup hinner
      rw [json, entriesHaveUniqueKeys, ihr hrest, hasUniqueKeys, entriesHaveUniqueKeys,
        entriesHaveUniqueKeys, entriesHaveUniqueKeys, hasUniqueKeys, ihi hinner, decide_eq_true hnodup]
      rfl
  have hnodup : (tree.json.map Prod.fst).Nodup :=
    tree.json_keys ▸ segments_nodup hfits
  rw [hasUniqueKeys, hentries, decide_eq_true hnodup]
  rfl

end Unique

namespace SchemaParse

variable {compiles : Bytes → Bool} {ctx : StoreFieldContext} {required : List String}

lemma object_header {entries : JsonObject} (h : ctx.AllowsSegment segment) :
    fieldHeader ctx pre segment [("type", SchemaFormat.stringValue "object"),
      ("fields", .object entries)] = .ok (joinSegment pre segment, "object") := by
  have hname : nameOfBytes (bytesOfName "object") = "object" := by decide
  unfold fieldHeader
  simp only [getString, lookup_cons, beq_self_eq_true, SchemaFormat.stringValue, ok_bind, orMissing,
    h.notSystem, Bool.false_eq_true, if_false, if_neg h.notReserved, hname]
  rfl

lemma parseObjectFields_json (hfits : tree.Fits compiles ctx pre)
    (hleaf : ∀ f ∈ tree.flat, required.contains f.name = f.required)
    (hobject : ∀ name, ctx.required.contains name = false → required.contains name = false)
    (hcount : fields.length + tree.flat.length ≤ maxDeclaredFields) :
    parseObjectFields compiles ⟨required, ctx.reserveExternalId⟩ pre fields tree.json =
      .ok (fields ++ tree.flat) := by
  induction tree generalizing pre fields with
  | nil => rw [json, parseObjectFields, flat, append_nil]
  | leaf segment f rest ih =>
    obtain ⟨hallows, hname, haccepted, -, hrest⟩ := hfits
    rw [flat, forall_mem_cons] at hleaf
    rw [flat, length_cons] at hcount
    have hallows' : StoreFieldContext.AllowsSegment ⟨required, ctx.reserveExternalId⟩ segment :=
      ⟨hallows.valid, hallows.notSystem, hallows.notReserved⟩
    have hemit : emitField compiles ⟨required, ctx.reserveExternalId⟩ f.name
        (nameOfBytes (bytesOfName (SchemaFormat.schemaName f.declaredType))) f.json fields =
          .ok (fields ++ [f]) :=
      emitField_json haccepted hleaf.1 (by omega)
    have hread : parseObjectFields compiles ⟨required, ctx.reserveExternalId⟩ pre (fields ++ [f])
        rest.json = .ok (fields ++ [f] ++ rest.flat) :=
      ih hrest hleaf.2 (by rw [length_append, length_singleton]; omega)
    rw [json, parseObjectFields, if_neg (by simp [hallows.valid]), fieldHeader_json hallows']
    simp only [ok_bind, if_neg (schemaName_ne_object f.declaredType)]
    rw [← hname, hemit, ok_bind, hread, flat, append_assoc]
    rfl
  | object segment inner rest ihi ihr =>
    obtain ⟨hallows, hrequired, -, hinner, -, hrest⟩ := hfits
    rw [flat, forall_mem_append] at hleaf
    rw [flat, length_append] at hcount
    have hallows' : StoreFieldContext.AllowsSegment ⟨required, ctx.reserveExternalId⟩ segment :=
      ⟨hallows.valid, hallows.notSystem, hallows.notReserved⟩
    have hinnerRead : parseObjectFields compiles ⟨required, ctx.reserveExternalId⟩
        (joinSegment pre segment) fields inner.json = .ok (fields ++ inner.flat) :=
      ihi hinner hleaf.1 (by omega)
    have hread : parseObjectFields compiles ⟨required, ctx.reserveExternalId⟩ pre
        (fields ++ inner.flat) rest.json = .ok (fields ++ inner.flat ++ rest.flat) :=
      ihr hrest hleaf.2 (by rw [length_append]; omega)
    have hvalidate : preObjectValidate ⟨required, ctx.reserveExternalId⟩ (joinSegment pre segment)
        [("type", SchemaFormat.stringValue "object"), ("fields", .object inner.json)] = .ok () := by
      have hkeys : hasConstraintKeys [("type", SchemaFormat.stringValue "object"),
          ("fields", .object inner.json)] = false := rfl
      simp only [preObjectValidate, hkeys, hobject _ hrequired, Bool.false_eq_true, if_false]
    rw [json, parseObjectFields, if_neg (by simp [hallows.valid]), object_header hallows']
    simp only [ok_bind, if_true, hvalidate]
    rw [parseNestedFields, if_neg (by decide), parseNestedFields, if_pos rfl, parseNestedValue,
      hinnerRead, ok_bind, hread, flat, append_assoc]

end SchemaParse
end ZyncBase
