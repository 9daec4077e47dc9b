import ZyncBase.Lib.AssocMap
import ZyncBase.Lib.DoubledSeparator
import ZyncBase.Typed.Codec

/-! Values of the client, and its records with nested objects and with flat keys. -/
namespace ZyncBase.Sdk

open List

/-- A JavaScript string is a list of UTF-16 code units. -/
abbrev JsString := List UInt16

/-- The keys of an object come in the order of their insertion. -/
inductive JsonValue where
  | null
  | boolean (value : Bool)
  | number (value : Real64)
  | string (value : JsString)
  | bytes (value : Bytes)
  | array (items : List JsonValue)
  | object (entries : List (String × JsonValue))

/-- The double nearest to a natural number, or zero where that is infinite. -/
def numberOfNat (n : ℕ) : Real64 :=
  match Payload.finiteReal false (Payload.magnitudeOfNat n) with
  | .ok r => r
  | .error _ => ⟨false, 0, by decide⟩

/-- The single authority for the delimiter of field names. -/
def joinFieldPath : List String → String
  | [] => ""
  | [segment] => segment
  | segment :: segments => segment ++ "__" ++ joinFieldPath segments

/-- The name of a field below a prefix, where no prefix is the empty one. -/
def fieldKey (pre key : String) : String := if pre = "" then key else joinFieldPath [pre, key]

open AssocMap
abbrev Entries := List (String × JsonValue)

section Split

/-- The pieces of a flat key between two underscores, from the left. -/
def splitFieldPath (flat : String) : List String :=
  (DoubledSeparator.split '_' flat.toList).map String.ofList

lemma joinFieldPath_cons {segment : String} {rest : List String} (h : rest ≠ []) :
    joinFieldPath (segment :: rest) = segment ++ "__" ++ joinFieldPath rest := by
  cases rest with
  | nil => exact absurd rfl h
  | cons next more => rfl

lemma toList_joinFieldPath (path : List String) :
    (joinFieldPath path).toList = DoubledSeparator.join '_' (path.map String.toList) := by
  induction path with
  | nil => rfl
  | cons segment rest ih =>
    cases rest with
    | nil => rfl
    | cons next more =>
      rw [joinFieldPath_cons (cons_ne_nil _ _), String.toList_append, String.toList_append, ih]
      simp [DoubledSeparator.join]

/-- A joined path is split again exactly if none of its segments but the last ends in an
underscore. -/
lemma splitFieldPath_joinFieldPath_iff {path : List String} (hne : path ≠ [])
    (h : ∀ segment ∈ path, DoubledSeparator.hasDouble '_' segment.toList = false) :
    splitFieldPath (joinFieldPath path) = path ↔
      ∀ segment ∈ path.dropLast, segment.toList.getLast? ≠ some '_' := by
  have hmap : splitFieldPath (joinFieldPath path) = path ↔
      DoubledSeparator.split '_' (DoubledSeparator.join '_' (path.map String.toList)) =
        path.map String.toList := by
    rw [splitFieldPath, toList_joinFieldPath]
    constructor
    · intro heq
      have hlist := congrArg (List.map String.toList) heq
      rw [map_map] at hlist
      refine Eq.trans ?_ hlist
      refine (map_id _).symm.trans (map_congr_left fun w _ => ?_)
      exact String.toList_ofList.symm
    · intro heq
      rw [heq, map_map]
      exact (map_congr_left fun w _ => String.ofList_toList).trans (map_id _)
  rw [hmap, DoubledSeparator.split_join_iff (by simpa using hne) (by simpa using h),
    ← map_dropLast, forall_mem_map]

end Split

section Flatten

mutual

/-- One member of a record, which may be an object, under its full key. -/
def flattenValue (fullKey : String) (result : Entries) : JsonValue → Entries
  | .object value =>
    (flattenEntries fullKey [] value).foldl (fun r e => put eqKey e.1 e.2 r) result
  | value => put eqKey fullKey value result

def flattenEntries (pre : String) (result : Entries) : Entries → Entries
  | [] => result
  | (key, value) :: rest =>
    flattenEntries pre (flattenValue (fieldKey pre key) result value) rest

end

def flatten (obj : Entries) : Entries := flattenEntries "" [] obj

/-- Bytes are an object as well, and take no further member that counts. -/
def setDeepProperty (obj : Entries) : List String → JsonValue → Entries
  | [], _ => obj
  | [part], value => put eqKey part value obj
  | part :: next :: parts, value =>
    match find eqKey part obj with
    | some (.object child) =>
      put eqKey part (.object (setDeepProperty child (next :: parts) value)) obj
    | some (.bytes _) => obj
    | _ => put eqKey part (.object (setDeepProperty [] (next :: parts) value)) obj

def unflatten (flat : Entries) : Entries :=
  flat.foldl (fun r e => setDeepProperty r (splitFieldPath e.1) e.2) []

end Flatten

section Leaves

def isObject : JsonValue → Bool
  | .object _ => true
  | _ => false

mutual

/-- What a value holds that is no object with members, and the way to it. -/
def leaves : JsonValue → List (List String × JsonValue)
  | .object [] => [([], .object [])]
  | .object (e :: es) => entriesLeaves (e :: es)
  | value => [([], value)]

def entriesLeaves : Entries → List (List String × JsonValue)
  | [] => []
  | (key, value) :: rest =>
    (leaves value).map (fun leaf => (key :: leaf.1, leaf.2)) ++ entriesLeaves rest

end

mutual

def hasDistinctKeys : JsonValue → Bool
  | .object entries => (entries.map Prod.fst).Nodup && entriesHaveDistinctKeys entries
  | _ => true

def entriesHaveDistinctKeys : Entries → Bool
  | [] => true
  | (_, value) :: rest => hasDistinctKeys value && entriesHaveDistinctKeys rest

end

lemma leaves_of_not_object {value : JsonValue} (h : isObject value = false) : leaves value = [([], value)] := by
  cases value with
  | object => cases h
  | _ => rw [leaves] <;> simp

lemma leaves_object {entries : Entries} (h : entries ≠ []) :
    leaves (.object entries) = entriesLeaves entries := by
  cases entries with
  | nil => exact absurd rfl h
  | cons e es => rw [leaves]

lemma entriesLeaves_append (a b : Entries) : entriesLeaves (a ++ b) = entriesLeaves a ++ entriesLeaves b := by
  induction a with
  | nil => rw [nil_append, entriesLeaves, nil_append]
  | cons e a ih =>
    obtain ⟨key, value⟩ := e
    rw [cons_append, entriesLeaves, entriesLeaves, ih, append_assoc]

end Leaves

section Put

lemma put_of_not_mem {key : String} {value : JsonValue} {obj : Entries}
    (h : key ∉ obj.map Prod.fst) : put eqKey key value obj = obj ++ [(key, value)] := by
  induction obj with
  | nil => rfl
  | cons e rest ih =>
    rw [map_cons, mem_cons, not_or] at h
    rw [put, if_neg (by simpa [eqKey] using Ne.symm h.1), ih h.2]
    rfl

lemma foldl_put {acc entries : Entries} (h : ((acc ++ entries).map Prod.fst).Nodup) :
    entries.foldl (fun r e => put eqKey e.1 e.2 r) acc = acc ++ entries := by
  induction entries generalizing acc with
  | nil => exact (append_nil acc).symm
  | cons e rest ih =>
    rw [append_cons] at h ⊢
    have hmem : e.1 ∉ acc.map Prod.fst := by
      rw [map_append, map_append] at h
      have hnodup := (nodup_append.mp (nodup_append.mp h).1).2.2
      exact fun hmem => hnodup e.1 hmem e.1 (by simp) rfl
    rw [foldl_cons, put_of_not_mem hmem]
    exact ih h

end Put

section Names

/-- The flat key of a leaf below a prefix. -/
def leafKey (pre : String) (path : List String) : String := path.foldl fieldKey pre

lemma leafKey_ne_empty {pre : String} (hpre : pre ≠ "") {path : List String}
    (hne : path ≠ []) : leafKey pre path = pre ++ "__" ++ joinFieldPath path := by
  induction path generalizing pre with
  | nil => exact absurd rfl hne
  | cons segment rest ih =>
    have hkey : fieldKey pre segment = pre ++ "__" ++ segment := if_neg hpre
    cases rest with
    | nil => exact hkey
    | cons next more =>
      change leafKey (fieldKey pre segment) (next :: more) = _
      rw [ih (by simp [hkey, hpre]) (cons_ne_nil _ _), hkey, joinFieldPath_cons (cons_ne_nil _ _)]
      simp only [String.append_assoc]

lemma leafKey_eq_joinFieldPath {path : List String} (h : "" ∉ path) : leafKey "" path = joinFieldPath path := by
  cases path with
  | nil => rfl
  | cons segment rest =>
    rw [mem_cons, not_or] at h
    change leafKey segment rest = _
    cases rest with
    | nil => rfl
    | cons next more =>
      rw [leafKey_ne_empty (Ne.symm h.1) (cons_ne_nil _ _), joinFieldPath_cons (cons_ne_nil _ _)]

def keyed (pre : String) (found : List (List String × JsonValue)) : Entries :=
  found.map fun leaf => (leafKey pre leaf.1, leaf.2)

lemma keyed_cons_map (pre key : String) (found : List (List String × JsonValue)) :
    keyed pre (found.map fun leaf => (key :: leaf.1, leaf.2)) = keyed (fieldKey pre key) found := by
  rw [keyed, keyed, map_map]
  rfl

lemma keyed_append (pre : String) (a b : List (List String × JsonValue)) :
    keyed pre (a ++ b) = keyed pre a ++ keyed pre b := map_append

end Names

section FlattenLeaves

lemma exists_entries {value : JsonValue} (h : isObject value = true) : ∃ entries, value = .object entries := by
  cases value with
  | object entries => exact ⟨entries, rfl⟩
  | _ => cases h

lemma flattenValue_of_not_object {fullKey : String} {acc : Entries} {value : JsonValue}
    (h : isObject value = false) : flattenValue fullKey acc value = put eqKey fullKey value acc := by
  cases value with
  | object => cases h
  | _ => rw [flattenValue]; simp

mutual

theorem flattenValue_leaves (fullKey : String) (acc : Entries) (value : JsonValue)
    (hleaf : ∀ leaf ∈ leaves value, isObject leaf.2 = false)
    (hnodup : ((acc ++ keyed fullKey (leaves value)).map Prod.fst).Nodup) :
    flattenValue fullKey acc value = acc ++ keyed fullKey (leaves value) := by
  by_cases hobject : isObject value = true
  · obtain ⟨entries, rfl⟩ := exists_entries hobject
    cases entries with
    | nil =>
      have hself : ([], .object []) ∈ leaves (.object []) := by
        rw [leaves]
        exact mem_singleton_self _
      exact absurd (hleaf _ hself) (by simp [isObject])
    | cons e es =>
      rw [leaves] at hleaf hnodup ⊢
      have hinner := hnodup
      rw [map_append] at hinner
      have hnested : flattenEntries fullKey [] (e :: es) = keyed fullKey (entriesLeaves (e :: es)) :=
        flattenEntries_leaves fullKey [] (e :: es) hleaf (nodup_append.mp hinner).2.1
      rw [flattenValue, hnested, foldl_put hnodup]
  · rw [Bool.not_eq_true] at hobject
    rw [leaves_of_not_object hobject] at hnodup ⊢
    have hmem : fullKey ∉ acc.map Prod.fst := by
      rw [map_append] at hnodup
      exact fun hmem => (nodup_append.mp hnodup).2.2 fullKey hmem fullKey (by simp [keyed, leafKey]) rfl
    rw [flattenValue_of_not_object hobject, put_of_not_mem hmem]
    rfl

theorem flattenEntries_leaves (pre : String) (acc entries : Entries)
    (hleaf : ∀ leaf ∈ entriesLeaves entries, isObject leaf.2 = false)
    (hnodup : ((acc ++ keyed pre (entriesLeaves entries)).map Prod.fst).Nodup) :
    flattenEntries pre acc entries = acc ++ keyed pre (entriesLeaves entries) := by
  match entries with
  | [] => rw [flattenEntries, entriesLeaves]; exact (append_nil acc).symm
  | (key, value) :: rest =>
    rw [entriesLeaves, keyed_append, keyed_cons_map, ← List.append_assoc] at hnodup ⊢
    rw [entriesLeaves, forall_mem_append, forall_mem_map] at hleaf
    rw [flattenEntries, flattenValue_leaves (fieldKey pre key) acc value hleaf.1]
    · exact flattenEntries_leaves pre _ rest hleaf.2 hnodup
    · rw [map_append] at hnodup
      exact (nodup_append.mp hnodup).1

end

end FlattenLeaves

section SetDeep

lemma find_eq_none {key : String} {entries : Entries} (h : find eqKey key entries = none) :
    key ∉ entries.map Prod.fst := by
  induction entries with
  | nil => exact not_mem_nil
  | cons e rest ih =>
    rw [find] at h
    split_ifs at h with hkey
    rw [map_cons, mem_cons, not_or]
    exact ⟨fun heq => hkey (by simp [eqKey, heq]), ih h⟩

lemma put_of_find {key : String} {entries : Entries} {found : JsonValue}
    (h : find eqKey key entries = some found) :
    ∃ before after, entries = before ++ (key, found) :: after ∧
      ∀ value, put eqKey key value entries = before ++ (key, value) :: after := by
  induction entries with
  | nil => cases h
  | cons e rest ih =>
    obtain ⟨name, member⟩ := e
    rw [find] at h
    split_ifs at h with hkey
    · have hname : name = key := by simpa [eqKey] using hkey
      subst hname
      cases h
      exact ⟨[], rest, rfl, fun value => by rw [put, if_pos hkey]; rfl⟩
    · obtain ⟨before, after, hrest, hput⟩ := ih h
      refine ⟨(name, member) :: before, after, by rw [hrest]; rfl, fun value => ?_⟩
      rw [put, if_neg hkey, hput]
      rfl

lemma leaves_ne_nil : (value : JsonValue) → leaves value ≠ []
  | .object [] => by
    rw [leaves]
    exact cons_ne_nil _ _
  | .object ((key, member) :: rest) => by
    rw [leaves, entriesLeaves]
    simp [leaves_ne_nil member]
  | .null | .boolean _ | .number _ | .string _ | .bytes _ | .array _ => by
    rw [leaves_of_not_object rfl]
    exact cons_ne_nil _ _

lemma path_ne_nil {entries : Entries} : ∀ leaf ∈ entriesLeaves entries, leaf.1 ≠ [] := by
  induction entries with
  | nil => exact fun leaf hleaf => absurd hleaf (by rw [entriesLeaves]; exact not_mem_nil)
  | cons e rest ih =>
    rw [entriesLeaves, forall_mem_append, forall_mem_map]
    exact ⟨fun _ _ => cons_ne_nil _ _, ih⟩

/-- Neither path leads on from the other. -/
def Incomparable (p q : List String) : Prop := ¬p <+: q ∧ ¬q <+: p

lemma Incomparable.symm {p q : List String} (h : Incomparable p q) : Incomparable q p :=
  ⟨h.2, h.1⟩

instance : Std.Symm Incomparable := ⟨fun _ _ => Incomparable.symm⟩

lemma entriesLeaves_member (before after : Entries) (key : String) (value : JsonValue) :
    entriesLeaves (before ++ (key, value) :: after) =
      entriesLeaves before ++ ((leaves value).map (fun leaf => (key :: leaf.1, leaf.2)) ++
        entriesLeaves after) := by
  rw [entriesLeaves_append, entriesLeaves]

lemma mem_entriesLeaves {entries : Entries} {key : String} {value : JsonValue}
    (h : find eqKey key entries = some value) {leaf : List String × JsonValue}
    (hleaf : leaf ∈ leaves value) : (key :: leaf.1, leaf.2) ∈ entriesLeaves entries := by
  obtain ⟨before, after, rfl, -⟩ := put_of_find h
  rw [entriesLeaves_member]
  exact mem_append_right _ (mem_append_left _ (mem_map_of_mem hleaf))

lemma entriesLeaves_setDeepProperty {path : List String} (hne : path ≠ []) {value : JsonValue}
    (hvalue : isObject value = false) {entries : Entries}
    (h : ∀ leaf ∈ entriesLeaves entries, Incomparable leaf.1 path) :
    (entriesLeaves (setDeepProperty entries path value)).Perm (entriesLeaves entries ++ [(path, value)]) := by
  induction path generalizing entries with
  | nil => exact absurd rfl hne
  | cons key rest ih =>
    cases rest with
    | nil =>
      have hnone : find eqKey key entries = none := by
        cases hfind : find eqKey key entries with
        | none => rfl
        | some found =>
          obtain ⟨leaf, hleaf⟩ := exists_mem_of_ne_nil _ (leaves_ne_nil found)
          exact absurd ⟨leaf.1, rfl⟩ (h _ (mem_entriesLeaves hfind hleaf)).2
      rw [setDeepProperty, put_of_not_mem (find_eq_none hnone), entriesLeaves_append,
        entriesLeaves, entriesLeaves, leaves_of_not_object hvalue]
      exact List.Perm.refl _
    | cons next more =>
      have hchild : ∀ child : Entries, (∀ leaf ∈ entriesLeaves child, Incomparable leaf.1 (next :: more)) →
            ((leaves (.object (setDeepProperty child (next :: more) value))).map fun leaf =>
              (key :: leaf.1, leaf.2)).Perm
              ((entriesLeaves child).map (fun leaf => (key :: leaf.1, leaf.2)) ++
                [(key :: next :: more, value)]) := by
        intro child hchild
        have hperm := ih (cons_ne_nil next more) hchild
        have hnonempty : setDeepProperty child (next :: more) value ≠ [] := by
          intro hnil
          rw [hnil, entriesLeaves] at hperm
          simpa using hperm.length_eq
        rw [leaves_object hnonempty]
        simpa using hperm.map fun leaf => (key :: leaf.1, leaf.2)
      rw [setDeepProperty]
      cases hfind : find eqKey key entries with
      | none =>
        have hempty := hchild [] fun leaf hleaf =>
          absurd hleaf (by rw [entriesLeaves]; exact not_mem_nil)
        dsimp only
        rw [put_of_not_mem (find_eq_none hfind), entriesLeaves_append]
        refine List.Perm.append_left _ ?_
        rw [entriesLeaves, entriesLeaves, append_nil]
        simpa [entriesLeaves] using hempty
      | some found =>
        have hbelow : ∀ leaf ∈ leaves found, Incomparable (key :: leaf.1) (key :: next :: more) :=
          fun leaf hleaf => h _ (mem_entriesLeaves hfind hleaf)
        have hobject : isObject found = true := by
          by_contra hobject
          rw [Bool.not_eq_true] at hobject
          have hinc := hbelow ([], found)
            (by rw [leaves_of_not_object hobject]; exact mem_singleton_self _)
          exact hinc.1 ⟨next :: more, rfl⟩
        obtain ⟨child, rfl⟩ := exists_entries hobject
        have hchildNe : child ≠ [] := by
          rintro rfl
          have hinc := hbelow ([], .object []) (by rw [leaves]; exact mem_singleton_self _)
          exact hinc.1 ⟨next :: more, rfl⟩
        rw [leaves_object hchildNe] at hbelow
        obtain ⟨before, after, rfl, hput⟩ := put_of_find hfind
        have hperm := hchild child fun leaf hleaf => by
          obtain ⟨hpre, hsuf⟩ := hbelow leaf hleaf
          exact ⟨fun hp => hpre (cons_prefix_cons.mpr ⟨rfl, hp⟩),
            fun hp => hsuf (cons_prefix_cons.mpr ⟨rfl, hp⟩)⟩
        dsimp only
        rw [hput, entriesLeaves_member, entriesLeaves_member, leaves_object hchildNe, append_assoc]
        refine List.Perm.append_left _ ?_
        refine (hperm.append_right _).trans ?_
        rw [append_assoc, append_assoc]
        exact List.Perm.append_left _ perm_append_comm

def setLeaves (entries : Entries) (found : List (List String × JsonValue)) : Entries :=
  found.foldl (fun r leaf => setDeepProperty r leaf.1 leaf.2) entries

lemma entriesLeaves_setLeaves {found : List (List String × JsonValue)} {entries : Entries}
    (hfound : ∀ leaf ∈ found, leaf.1 ≠ [] ∧ isObject leaf.2 = false)
    (hinc : (entriesLeaves entries ++ found).Pairwise fun a b => Incomparable a.1 b.1) :
    (entriesLeaves (setLeaves entries found)).Perm (entriesLeaves entries ++ found) := by
  induction found generalizing entries with
  | nil =>
    rw [append_nil]
    exact List.Perm.refl _
  | cons leaf rest ih =>
    obtain ⟨⟨hne, hvalue⟩, hrest⟩ := forall_mem_cons.mp hfound
    have haway : ∀ other ∈ entriesLeaves entries, Incomparable other.1 leaf.1 :=
      fun other hother => (pairwise_append.mp hinc).2.2 other hother leaf mem_cons_self
    have hstep := entriesLeaves_setDeepProperty hne hvalue haway
    have hperm : (entriesLeaves (setDeepProperty entries leaf.1 leaf.2) ++ rest).Perm
        (entriesLeaves entries ++ leaf :: rest) := by
      rw [append_cons]
      exact hstep.append_right rest
    have hafter := (hperm.pairwise_iff fun h => h.symm).mpr hinc
    exact (ih hrest hafter).trans hperm

lemma setDeepProperty_new {acc : Entries} {key : String} (hkey : key ∉ acc.map Prod.fst)
    {path : List String} (hne : path ≠ []) (value : JsonValue) :
    setDeepProperty acc (key :: path) value = acc ++ [(key, .object (setDeepProperty [] path value))] := by
  have hnone : find eqKey key acc = none := by
    cases hfind : find eqKey key acc with
    | none => rfl
    | some found =>
      obtain ⟨before, after, rfl, -⟩ := put_of_find hfind
      exact absurd (by simp) hkey
  obtain ⟨next, more, rfl⟩ := exists_cons_of_ne_nil hne
  rw [setDeepProperty, hnone]
  exact put_of_not_mem hkey

lemma setDeepProperty_last {acc : Entries} {key : String} (hkey : key ∉ acc.map Prod.fst)
    {child : Entries} {path : List String} (hne : path ≠ []) (value : JsonValue) :
    setDeepProperty (acc ++ [(key, .object child)]) (key :: path) value =
      acc ++ [(key, .object (setDeepProperty child path value))] := by
  have hfind : ∀ x, find eqKey key (acc ++ [(key, x)]) = some x ∧
      ∀ y, put eqKey key y (acc ++ [(key, x)]) = acc ++ [(key, y)] := by
    intro x
    induction acc with
    | nil => simp [find, put, eqKey]
    | cons e rest ih =>
      rw [map_cons, mem_cons, not_or] at hkey
      have hne : ¬eqKey e.1 key = true := by simpa [eqKey] using Ne.symm hkey.1
      obtain ⟨hf, hp⟩ := ih hkey.2
      refine ⟨?_, fun y => ?_⟩
      · rw [cons_append, find, if_neg hne, hf]
      · rw [cons_append, put, if_neg hne, hp]
        rfl
  obtain ⟨next, more, rfl⟩ := exists_cons_of_ne_nil hne
  rw [setDeepProperty, (hfind _).1]
  exact (hfind _).2 _

lemma setLeaves_last {acc : Entries} {key : String} (hkey : key ∉ acc.map Prod.fst)
    {found : List (List String × JsonValue)} (hne : ∀ leaf ∈ found, leaf.1 ≠ []) (child : Entries) :
    setLeaves (acc ++ [(key, .object child)]) (found.map fun leaf => (key :: leaf.1, leaf.2)) =
        acc ++ [(key, .object (setLeaves child found))] := by
  induction found generalizing child with
  | nil => rfl
  | cons leaf rest ih =>
    obtain ⟨hleaf, hrest⟩ := forall_mem_cons.mp hne
    rw [map_cons, setLeaves, foldl_cons, setDeepProperty_last hkey hleaf]
    exact ih hrest _

mutual

theorem setLeaves_entriesLeaves (acc entries : Entries) (hkeys : ((acc ++ entries).map Prod.fst).Nodup)
    (hdistinct : entriesHaveDistinctKeys entries = true)
    (hleaf : ∀ leaf ∈ entriesLeaves entries, isObject leaf.2 = false) :
    setLeaves acc (entriesLeaves entries) = acc ++ entries := by
  match entries with
  | [] =>
    rw [entriesLeaves]
    exact (append_nil acc).symm
  | (key, value) :: rest =>
    rw [entriesHaveDistinctKeys, Bool.and_eq_true] at hdistinct
    rw [entriesLeaves, forall_mem_append, forall_mem_map] at hleaf
    rw [append_cons] at hkeys ⊢
    have hkey : key ∉ acc.map Prod.fst := by
      rw [map_append, map_append] at hkeys
      have hnodup := (nodup_append.mp (nodup_append.mp hkeys).1).2.2
      exact fun hmem => hnodup key hmem key (by simp) rfl
    rw [entriesLeaves, setLeaves, foldl_append]
    change setLeaves (setLeaves acc _) _ = _
    rw [setLeaves_leaves acc key value hkey hdistinct.1 hleaf.1]
    exact setLeaves_entriesLeaves _ rest hkeys hdistinct.2 hleaf.2

theorem setLeaves_leaves (acc : Entries) (key : String) (value : JsonValue)
    (hkey : key ∉ acc.map Prod.fst) (hdistinct : hasDistinctKeys value = true)
    (hleaf : ∀ leaf ∈ leaves value, isObject leaf.2 = false) :
    setLeaves acc ((leaves value).map fun leaf => (key :: leaf.1, leaf.2)) = acc ++ [(key, value)] := by
  match value with
  | .object [] =>
    have hself : ([], .object []) ∈ leaves (.object []) := by
      rw [leaves]
      exact mem_singleton_self _
    exact absurd (hleaf _ hself) (by simp [isObject])
  | .object (e :: es) =>
    rw [leaves] at hleaf ⊢
    rw [hasDistinctKeys, Bool.and_eq_true, decide_eq_true_eq] at hdistinct
    have hinner : setLeaves [] (entriesLeaves (e :: es)) = e :: es :=
      setLeaves_entriesLeaves [] (e :: es) hdistinct.1 hdistinct.2 hleaf
    have hpaths : ∀ leaf ∈ entriesLeaves (e :: es), leaf.1 ≠ [] := path_ne_nil
    cases hfound : entriesLeaves (e :: es) with
    | nil => exact absurd (leaves_object (cons_ne_nil e es) ▸ hfound) (leaves_ne_nil _)
    | cons leaf found =>
      rw [hfound] at hinner hpaths
      obtain ⟨hne, hrest⟩ := forall_mem_cons.mp hpaths
      rw [map_cons, setLeaves, foldl_cons, setDeepProperty_new hkey hne]
      refine (setLeaves_last hkey hrest _).trans ?_
      rw [setLeaves, foldl_cons] at hinner
      rw [setLeaves, hinner]
  | .null | .boolean _ | .number _ | .string _ | .bytes _ | .array _ =>
    rw [leaves_of_not_object rfl]
    exact put_of_not_mem hkey

end

end SetDeep

section Distinct

lemma head_of_mem_entriesLeaves {entries : Entries} {leaf : List String × JsonValue}
    (h : leaf ∈ entriesLeaves entries) : ∃ key rest, leaf.1 = key :: rest ∧ key ∈ entries.map Prod.fst := by
  induction entries with
  | nil => exact absurd h (by rw [entriesLeaves]; exact not_mem_nil)
  | cons e entries ih =>
    rw [entriesLeaves] at h
    obtain h | h := mem_append.mp h
    · obtain ⟨inner, -, rfl⟩ := mem_map.mp h
      exact ⟨e.1, inner.1, rfl, mem_cons_self⟩
    · obtain ⟨key, rest, hpath, hmem⟩ := ih h
      exact ⟨key, rest, hpath, mem_cons_of_mem _ hmem⟩

mutual

theorem entriesLeaves_nodup (entries : Entries) (hkeys : (entries.map Prod.fst).Nodup)
    (hdistinct : entriesHaveDistinctKeys entries = true) : ((entriesLeaves entries).map Prod.fst).Nodup := by
  match entries with
  | [] =>
    rw [entriesLeaves]
    exact nodup_nil
  | (key, value) :: rest =>
    rw [entriesHaveDistinctKeys, Bool.and_eq_true] at hdistinct
    rw [map_cons, nodup_cons] at hkeys
    rw [entriesLeaves, map_append, nodup_append]
    refine ⟨?_, entriesLeaves_nodup rest hkeys.2 hdistinct.2, ?_⟩
    · have hinner := leaves_nodup value hdistinct.1
      rw [map_map]
      have hmap : (leaves value).map (Prod.fst ∘ fun leaf => (key :: leaf.1, leaf.2)) =
          ((leaves value).map Prod.fst).map (key :: ·) := by
        rw [map_map]
        rfl
      rw [hmap]
      exact hinner.map fun _ _ heq => (List.cons.inj heq).2
    · rintro p hp q hq rfl
      rw [map_map] at hp
      obtain ⟨inner, -, rfl⟩ := mem_map.mp hp
      obtain ⟨leaf, hleaf, hpath⟩ := mem_map.mp hq
      obtain ⟨head, tail, hhead, hmem⟩ := head_of_mem_entriesLeaves hleaf
      rw [hhead] at hpath
      exact hkeys.1 ((List.cons.inj hpath).1 ▸ hmem)

theorem leaves_nodup (value : JsonValue) (hdistinct : hasDistinctKeys value = true) :
    ((leaves value).map Prod.fst).Nodup := by
  match value with
  | .object [] =>
    rw [leaves]
    exact nodup_singleton _
  | .object (e :: es) =>
    rw [hasDistinctKeys, Bool.and_eq_true, decide_eq_true_eq] at hdistinct
    rw [leaves]
    exact entriesLeaves_nodup (e :: es) hdistinct.1 hdistinct.2
  | .null | .boolean _ | .number _ | .string _ | .bytes _ | .array _ =>
    rw [leaves_of_not_object rfl]
    exact nodup_singleton _

end

end Distinct

section RoundTrip

variable {paths : List (List String)}

/-- Keys and paths of the fields that a table declares. -/
structure FieldPaths (paths : List (List String)) : Prop where
  incomparable : paths.Pairwise Incomparable
  ne_nil : ∀ path ∈ paths, path ≠ [] ∧ "" ∉ path
  split : ∀ path ∈ paths, splitFieldPath (joinFieldPath path) = path

lemma FieldPaths.key (h : FieldPaths paths) {path : List String} (hpath : path ∈ paths) :
    leafKey "" path = joinFieldPath path := leafKey_eq_joinFieldPath (h.ne_nil path hpath).2

lemma FieldPaths.away (h : FieldPaths paths) {p q : List String} (hp : p ∈ paths)
    (hq : q ∈ paths) (hne : p ≠ q) : Incomparable p q :=
  h.incomparable.forall hp hq hne

lemma joinFieldPath_splitFieldPath (key : String) : joinFieldPath (splitFieldPath key) = key := by
  have hlist : (splitFieldPath key).map String.toList = DoubledSeparator.split '_' key.toList := by
    rw [splitFieldPath, map_map]
    exact (map_congr_left fun w _ => String.toList_ofList).trans (map_id _)
  refine String.toList_inj.mp ?_
  rw [toList_joinFieldPath, hlist, DoubledSeparator.join_split]

lemma FieldPaths.splitFieldPath_mem (h : FieldPaths paths) {key : String}
    (hkey : key ∈ paths.map joinFieldPath) : splitFieldPath key ∈ paths := by
  obtain ⟨path, hmem, rfl⟩ := mem_map.mp hkey
  rw [h.split path hmem]
  exact hmem

lemma entriesLeaves_unflatten (h : FieldPaths paths) {flat : Entries} (hkeys : (flat.map Prod.fst).Nodup)
    (hflat : ∀ e ∈ flat, e.1 ∈ paths.map joinFieldPath ∧ isObject e.2 = false) :
    (entriesLeaves (unflatten flat)).Perm (flat.map fun e => (splitFieldPath e.1, e.2)) := by
  have hpath : ∀ e ∈ flat, splitFieldPath e.1 ∈ paths := fun e he => h.splitFieldPath_mem (hflat e he).1
  have hset : unflatten flat = setLeaves [] (flat.map fun e => (splitFieldPath e.1, e.2)) := by
    rw [unflatten, setLeaves, foldl_map]
  have hinc : (flat.map fun e => (splitFieldPath e.1, e.2)).Pairwise fun a b => Incomparable a.1 b.1 := by
    rw [pairwise_map]
    refine (pairwise_map.mp hkeys).imp_of_mem fun {a b} ha hb hne => ?_
    refine h.away (hpath a ha) (hpath b hb) fun heq => hne ?_
    have hsame : splitFieldPath a.1 = splitFieldPath b.1 := heq
    rw [← joinFieldPath_splitFieldPath a.1, hsame, joinFieldPath_splitFieldPath]
  have hall : (entriesLeaves (unflatten flat)).Perm
      (entriesLeaves [] ++ flat.map fun e => (splitFieldPath e.1, e.2)) := by
    rw [hset]
    refine entriesLeaves_setLeaves (forall_mem_map.mpr fun e he => ?_) ?_
    · exact ⟨(h.ne_nil _ (hpath e he)).1, (hflat e he).2⟩
    · rw [entriesLeaves]
      exact hinc
  rw [entriesLeaves] at hall
  exact hall

lemma flatten_unflatten (h : FieldPaths paths) {flat : Entries} (hkeys : (flat.map Prod.fst).Nodup)
    (hflat : ∀ e ∈ flat, e.1 ∈ paths.map joinFieldPath ∧ isObject e.2 = false) :
    (flatten (unflatten flat)).Perm flat := by
  have hleaves := entriesLeaves_unflatten h hkeys hflat
  have hkeyed : keyed "" (flat.map fun e => (splitFieldPath e.1, e.2)) = flat := by
    rw [keyed, map_map]
    refine (map_congr_left fun e he => ?_).trans (map_id flat)
    have hjoin := h.key (h.splitFieldPath_mem (hflat e he).1)
    exact Prod.ext (hjoin.trans (joinFieldPath_splitFieldPath e.1)) rfl
  have hperm : (keyed "" (entriesLeaves (unflatten flat))).Perm flat := by
    have hmap := hleaves.map fun leaf : List String × JsonValue => (leafKey "" leaf.1, leaf.2)
    exact hmap.trans (List.Perm.of_eq hkeyed)
  rw [flatten, flattenEntries_leaves "" [] _ (fun leaf hleaf => ?_)]
  · exact hperm
  · exact (hperm.map Prod.fst).nodup_iff.mpr hkeys
  · obtain ⟨e, he, rfl⟩ := mem_map.mp (hleaves.mem_iff.mp hleaf)
    exact (hflat e he).2

lemma flatten_eq_keyed (h : FieldPaths paths) {obj : Entries} (hdistinct : hasDistinctKeys (.object obj) = true)
    (hleaf : ∀ leaf ∈ entriesLeaves obj, leaf.1 ∈ paths ∧ isObject leaf.2 = false) :
    flatten obj = keyed "" (entriesLeaves obj) := by
  rw [hasDistinctKeys, Bool.and_eq_true, decide_eq_true_eq] at hdistinct
  have hpaths := entriesLeaves_nodup obj hdistinct.1 hdistinct.2
  refine (flattenEntries_leaves "" [] obj (fun leaf hl => (hleaf leaf hl).2) ?_).trans rfl
  rw [nil_append, keyed, map_map, List.Nodup, pairwise_map]
  refine (pairwise_map.mp hpaths).imp_of_mem fun ha hb hne heq => hne ?_
  have heq : leafKey "" _ = leafKey "" _ := heq
  rw [h.key (hleaf _ ha).1, h.key (hleaf _ hb).1] at heq
  rw [← h.split _ (hleaf _ ha).1, heq, h.split _ (hleaf _ hb).1]

lemma unflatten_flatten (h : FieldPaths paths) {obj : Entries}
    (hdistinct : hasDistinctKeys (.object obj) = true)
    (hleaf : ∀ leaf ∈ entriesLeaves obj, leaf.1 ∈ paths ∧ isObject leaf.2 = false) :
    unflatten (flatten obj) = obj := by
  have hkeyed := flatten_eq_keyed h hdistinct hleaf
  rw [hasDistinctKeys, Bool.and_eq_true, decide_eq_true_eq] at hdistinct
  have hsplit : unflatten (keyed "" (entriesLeaves obj)) = setLeaves [] (entriesLeaves obj) := by
    rw [unflatten, setLeaves, keyed, foldl_map]
    refine foldl_ext _ _ _ fun r leaf hl => ?_
    rw [h.key (hleaf leaf hl).1, h.split _ (hleaf leaf hl).1]
  rw [hkeyed, hsplit]
  exact setLeaves_entriesLeaves [] obj hdistinct.1 hdistinct.2 fun leaf hl => (hleaf leaf hl).2

end RoundTrip
end ZyncBase.Sdk
