import ZyncBase.Schema.Declared

/-! The fields of a table as a tree of objects. -/
namespace ZyncBase

open FieldPath Outcome SchemaParse List

/-- Fields and objects one after another; an object has its own. -/
inductive FieldTree where
  | nil
  | leaf (segment : String) (field : DeclaredField) (rest : FieldTree)
  | object (segment : String) (inner rest : FieldTree)

/-- A name that a field or an object may have. -/
structure SchemaParse.StoreFieldContext.AllowsSegment (ctx : StoreFieldContext) (segment : String) :
    Prop where
  valid : isValidSchemaIdentifier segment = true
  notSystem : isSystemColumn segment = false
  notReserved : ¬(ctx.reserveExternalId ∧ segment = "external_id")

namespace FieldTree

def segments : FieldTree → List String
  | nil => []
  | leaf segment _ rest => segment :: rest.segments
  | object segment _ rest => segment :: rest.segments

def flat : FieldTree → List DeclaredField
  | nil => []
  | leaf _ f rest => f :: rest.flat
  | object _ inner rest => inner.flat ++ rest.flat

def paths : FieldTree → List (List String)
  | nil => []
  | leaf segment _ rest => [segment] :: rest.paths
  | object segment inner rest => inner.paths.map (segment :: ·) ++ rest.paths

/-- Every field has the name of its place below the prefix; no object is empty. -/
def Fits (compiles : Bytes → Bool) (ctx : StoreFieldContext) (pre : String) : FieldTree → Prop
  | nil => True
  | leaf segment f rest => ctx.AllowsSegment segment ∧ f.name = joinSegment pre segment ∧
      f.Accepted compiles ctx.required ∧ segment ∉ rest.segments ∧ rest.Fits compiles ctx pre
  | object segment inner rest => ctx.AllowsSegment segment ∧
      ctx.required.contains (joinSegment pre segment) = false ∧ inner.flat ≠ [] ∧
      inner.Fits compiles ctx (joinSegment pre segment) ∧ segment ∉ rest.segments ∧
      rest.Fits compiles ctx pre

lemma eq_nil {compiles : Bytes → Bool} {ctx : StoreFieldContext} {pre : String}
    {tree : FieldTree} (hfits : tree.Fits compiles ctx pre) (h : tree.flat = []) : tree = .nil := by
  cases tree with
  | nil => rfl
  | leaf => cases h
  | object segment inner rest => exact absurd (append_eq_nil_iff.mp h).1 hfits.2.2.1

end FieldTree

namespace SchemaParse

section Paths

/-- A definition that has fields of its own. -/
def isObjectField (field : JsonObject) : Bool :=
  match field.lookup "type" with
  | some (.string type) => nameOfBytes type = "object"
  | _ => false

mutual

/-- The segments on the way to each field that an object of a schema file declares. -/
def objectPaths : JsonObject → List (List String)
  | [] => []
  | (name, .object field) :: rest =>
    (if isObjectField field then (nestedPaths field).map (name :: ·) else [[name]]) ++ objectPaths rest
  | _ :: rest => objectPaths rest

def nestedPaths : JsonObject → List (List String)
  | [] => []
  | (key, value) :: rest => if key = "fields" then valuePaths value else nestedPaths rest

def valuePaths : JsonValue → List (List String)
  | .object nested => objectPaths nested
  | _ => []

end

def definitionPaths : JsonValue → List (List String)
  | .object definition =>
    match definition.lookup "fields" with
    | some (.object fields) => objectPaths fields
    | _ => []
  | _ => []

/-- The segments on the way to each field of a table of a schema file. -/
def tablePaths (json : JsonValue) (table : String) : List (List String) :=
  match json with
  | .object root =>
    match root.lookup "store" with
    | some (.object store) => ((store.lookup table).map definitionPaths).getD []
    | _ => []
  | _ => []

end Paths

variable {compiles : Bytes → Bool} {ctx : StoreFieldContext}

lemma getString_eq_ok {obj : JsonObject} {key : String} {e : SchemaError} {text : Bytes}
    (h : getString obj key e = .ok (some text)) : obj.lookup key = some (.string text) := by
  unfold getString at h
  split at h
  · cases h
  · cases h
  · rename_i hlookup
    cases h
    exact hlookup
  · cases h

variable {field : JsonObject}

lemma fieldHeader_eq_ok {pre name fullName type : String}
    (h : fieldHeader ctx pre name field = .ok (fullName, type)) :
    isSystemColumn name = false ∧ ¬(ctx.reserveExternalId ∧ name = "external_id") ∧
      fullName = joinSegment pre name ∧ isObjectField field = decide (type = "object") := by
  obtain ⟨found, hfound, h⟩ := bind_eq_ok.mp h
  obtain ⟨text, htext, h⟩ := bind_eq_ok.mp h
  by_cases hsystem : isSystemColumn name
  · rw [if_pos hsystem] at h
    cases h
  rw [if_neg hsystem] at h
  by_cases hreserved : ctx.reserveExternalId ∧ name = "external_id"
  · rw [if_pos hreserved] at h
    cases h
  rw [if_neg hreserved] at h
  obtain ⟨⟨⟩, -, h⟩ := bind_eq_ok.mp h
  cases h
  refine ⟨Bool.eq_false_of_not_eq_true hsystem, hreserved, rfl, ?_⟩
  rw [orMissing_eq_ok.mp htext] at hfound
  rw [isObjectField, getString_eq_ok hfound]

/-- The fields that were read after the first ones are those of a tree. -/
def ReadsTree (compiles : Bytes → Bool) (ctx : StoreFieldContext) (pre : String)
    (fields out : List DeclaredField) (tree : FieldTree) : Prop :=
  tree.Fits compiles ctx pre ∧ out = fields ++ tree.flat ∧ (tree.flat ≠ [] → out.length ≤ maxDeclaredFields)

section Members

variable {pre name : String} {fields out : List DeclaredField} {rest : JsonObject}

lemma parseObjectFields_cons {value : JsonValue}
    (h : parseObjectFields compiles ctx pre fields ((name, value) :: rest) = .ok out) :
    ∃ field, value = .object field := by
  cases value with
  | object field => exact ⟨field, rfl⟩
  | _ =>
    rw [parseObjectFields] at h
    · split_ifs at h
    · exact fun _ heq => nomatch heq

lemma parseObjectFields_object
    (h : parseObjectFields compiles ctx pre fields ((name, .object field) :: rest) = .ok out) :
    ctx.AllowsSegment name ∧ ∃ type mid, isObjectField field = decide (type = "object") ∧
      fieldHeader ctx pre name field = .ok (joinSegment pre name, type) ∧
      (if type = "object" then do
          preObjectValidate ctx (joinSegment pre name) field
          parseNestedFields compiles ctx (joinSegment pre name) fields field
        else emitField compiles ctx (joinSegment pre name) type field fields) = .ok mid ∧
      parseObjectFields compiles ctx pre mid rest = .ok out := by
  rw [parseObjectFields] at h
  split_ifs at h with hvalid
  obtain ⟨⟨fullName, type⟩, hheader, h⟩ := bind_eq_ok.mp h
  obtain ⟨hsystem, hreserved, rfl, hobject⟩ := fieldHeader_eq_ok hheader
  refine ⟨⟨by simpa using hvalid, hsystem, hreserved⟩, type, ?_⟩
  by_cases htype : type = "object"
  · simp only [if_pos htype] at h ⊢
    obtain ⟨⟨⟩, hpre, h⟩ := bind_eq_ok.mp h
    obtain ⟨mid, hmid, h⟩ := bind_eq_ok.mp h
    exact ⟨mid, hobject, hheader, by rw [hpre]; exact hmid, h⟩
  · simp only [if_neg htype] at h ⊢
    obtain ⟨mid, hmid, h⟩ := bind_eq_ok.mp h
    exact ⟨mid, hobject, hheader, hmid, h⟩

lemma ReadsTree.leaf {type : String} {mid : List DeclaredField}
    {tree : FieldTree} (hallows : ctx.AllowsSegment name) (hunique : entriesHaveUniqueKeys field = true)
    (hemit : emitField compiles ctx (joinSegment pre name) type field fields = .ok mid)
    (hrest : ReadsTree compiles ctx pre mid out tree) (hname : name ∉ tree.segments) :
    ∃ f, ReadsTree compiles ctx pre fields out (.leaf name f tree) := by
  obtain ⟨hcount, f, rfl, hf, haccepted⟩ := emitField_eq_ok hemit
  obtain ⟨hfits, hout, hlength⟩ := hrest
  refine ⟨f, ⟨hallows, hf, haccepted hunique, hname, hfits⟩, ?_, fun _ => ?_⟩
  · rw [hout, FieldTree.flat, List.append_assoc, singleton_append]
  · by_cases hflat : tree.flat = []
    · rw [hout, hflat, append_nil, length_append, length_singleton]
      exact hcount
    · exact hlength hflat

lemma ReadsTree.object {mid : List DeclaredField} {inner tree : FieldTree} (hallows : ctx.AllowsSegment name)
    (hrequired : ctx.required.contains (joinSegment pre name) = false)
    (hinner : ReadsTree compiles ctx (joinSegment pre name) fields mid inner)
    (hrest : ReadsTree compiles ctx pre mid out tree) (hname : name ∉ tree.segments) :
    ∃ t : FieldTree, ReadsTree compiles ctx pre fields out t ∧
      (∀ segment ∈ t.segments, segment = name ∨ segment ∈ tree.segments) ∧
        t.paths = inner.paths.map (name :: ·) ++ tree.paths := by
  obtain ⟨hfits, hmid, hcount⟩ := hinner
  obtain ⟨hfits', hout, hcount'⟩ := hrest
  by_cases hempty : inner.flat = []
  · refine ⟨tree, ⟨hfits', ?_, hcount'⟩, fun segment => .inr, ?_⟩
    · rw [hout, hmid, hempty, append_nil]
    · rw [FieldTree.eq_nil hfits hempty]
      rfl
  · refine ⟨.object name inner tree, ⟨⟨hallows, hrequired, hempty, hfits, hname, hfits'⟩, ?_,
      fun _ => ?_⟩, fun segment => mem_cons.mp, rfl⟩
    · rw [hout, hmid, FieldTree.flat, List.append_assoc]
    · by_cases hflat : tree.flat = []
      · rw [hout, hflat, append_nil]
        exact hcount hempty
      · exact hcount' hflat

end Members

lemma preObjectValidate_eq_ok {name : String}
    (h : preObjectValidate ctx name field = .ok ()) : ctx.required.contains name = false := by
  unfold preObjectValidate at h
  split_ifs at h with hkeys hrequired
  exact Bool.eq_false_of_not_eq_true hrequired

mutual

theorem parseObjectFields_tree {pre : String} {fields out : List DeclaredField} (obj : JsonObject)
    (hkeys : (obj.map Prod.fst).Nodup) (hunique : entriesHaveUniqueKeys obj = true)
    (h : parseObjectFields compiles ctx pre fields obj = .ok out) :
    ∃ tree, ReadsTree compiles ctx pre fields out tree ∧
      (∀ segment ∈ tree.segments, segment ∈ obj.map Prod.fst) ∧ tree.paths = objectPaths obj := by
  match obj with
  | [] =>
    rw [parseObjectFields] at h
    cases h
    refine ⟨.nil, ⟨trivial, (append_nil fields).symm, fun hne => absurd rfl hne⟩,
      fun _ hmem => absurd hmem not_mem_nil, ?_⟩
    rw [objectPaths, FieldTree.paths]
  | (name, value) :: rest =>
    obtain ⟨field, rfl⟩ := parseObjectFields_cons h
    obtain ⟨hallows, type, mid, hobject, -, hmid, hrest⟩ := parseObjectFields_object h
    rw [map_cons, nodup_cons] at hkeys
    rw [entriesHaveUniqueKeys, hasUniqueKeys, Bool.and_eq_true, Bool.and_eq_true] at hunique
    obtain ⟨tree, htree, hsegments, hpaths⟩ := parseObjectFields_tree rest hkeys.2 hunique.2 hrest
    have hname : name ∉ tree.segments := fun hmem => hkeys.1 (hsegments name hmem)
    rw [objectPaths, hobject, ← hpaths]
    by_cases htype : type = "object"
    · rw [if_pos htype] at hmid
      rw [if_pos (decide_eq_true htype)]
      obtain ⟨⟨⟩, hpre, hmid⟩ := Outcome.bind_eq_ok.mp hmid
      obtain ⟨inner, hinner, hinnerPaths⟩ := parseNestedFields_tree field hunique.1.2 hmid
      obtain ⟨t, ht, hcovers, htPaths⟩ :=
        ReadsTree.object hallows (preObjectValidate_eq_ok hpre) hinner htree hname
      refine ⟨t, ht, fun segment hsegment => ?_, by rw [htPaths, hinnerPaths]⟩
      obtain rfl | hmem := hcovers segment hsegment
      · exact mem_cons_self
      · exact mem_cons_of_mem _ (hsegments segment hmem)
    · rw [if_neg htype] at hmid
      rw [if_neg (by simp [htype])]
      obtain ⟨f, hf⟩ := ReadsTree.leaf hallows hunique.1.2 hmid htree hname
      refine ⟨_, hf, fun segment hsegment => ?_, rfl⟩
      obtain rfl | hmem := mem_cons.mp hsegment
      · exact mem_cons_self
      · exact mem_cons_of_mem _ (hsegments segment hmem)

theorem parseNestedFields_tree {pre : String} {fields out : List DeclaredField} (obj : JsonObject)
    (hunique : entriesHaveUniqueKeys obj = true)
    (h : parseNestedFields compiles ctx pre fields obj = .ok out) :
    ∃ tree, ReadsTree compiles ctx pre fields out tree ∧ tree.paths = nestedPaths obj := by
  match obj with
  | [] =>
    rw [parseNestedFields] at h
    cases h
  | (key, value) :: rest =>
    rw [entriesHaveUniqueKeys, Bool.and_eq_true] at hunique
    rw [parseNestedFields] at h
    rw [nestedPaths]
    split_ifs at h ⊢ with hkey
    · exact parseNestedValue_tree value hunique.1 h
    · exact parseNestedFields_tree rest hunique.2 h

theorem parseNestedValue_tree {pre : String} {fields out : List DeclaredField} (value : JsonValue)
    (hunique : hasUniqueKeys value = true)
    (h : parseNestedValue compiles ctx pre fields value = .ok out) :
    ∃ tree, ReadsTree compiles ctx pre fields out tree ∧ tree.paths = valuePaths value := by
  match value with
  | .object nested =>
    rw [hasUniqueKeys, Bool.and_eq_true, decide_eq_true_eq] at hunique
    rw [parseNestedValue] at h
    rw [valuePaths]
    obtain ⟨tree, htree, -, hpaths⟩ := parseObjectFields_tree nested hunique.1 hunique.2 h
    exact ⟨tree, htree, hpaths⟩
  | .null => cases h
  | .bool _ => cases h
  | .integer _ => cases h
  | .float _ => cases h
  | .numberString _ => cases h
  | .string _ => cases h
  | .array _ => cases h

end

end SchemaParse
end ZyncBase
