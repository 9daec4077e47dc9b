import ZyncBase.Sdk.SchemaDictionary

/-! Records in the client and rows on the server, by the dictionary of a schema. -/
namespace ZyncBase.Sdk

open AssocMap List Outcome

def rowOf (count : ℕ) (sent : List (ℕ × JsonValue)) : List JsonValue :=
  (List.range count).map fun i => (find eqKey i sent).getD .null

variable {i : ℕ} {sent : List (ℕ × JsonValue)} {name : String}

section Records

namespace SchemaDictionary

variable (d : SchemaDictionary) (table : ℕ)

def flagsAt (i : ℕ) : ℕ := (d.fieldFlags.getD table []).getD i 0

/-- A record whose members are fields of the table, in any order, and with no document id in bytes. -/
structure IsRecord (names : List String) (obj : Entries) : Prop where
  distinct : hasDistinctKeys (.object obj) = true
  leaves : ∀ leaf ∈ entriesLeaves obj, leaf.1 ∈ names.map splitFieldPath ∧ isObject leaf.2 = false
  docIds : ∀ i, ∀ name, names[i]? = some name → isDocIdFlags (d.flagsAt table i) → ∀ v,
    (splitFieldPath name, v) ∈ entriesLeaves obj → Without isBytes v

/-- A row of scalars and arrays, with every document id in bytes. -/
def IsRow (row : List JsonValue) : Prop := ∀ i w, row[i]? = some w →
  isObject w = false ∧ (isDocIdFlags (d.flagsAt table i) → Without isString w)

def SentAs (e : String × JsonValue) (s : ℕ × JsonValue) : Prop :=
  d.getFieldIndex table e.1 = .ok s.1 ∧ d.encodeFieldValue table s.1 e.2 = .ok s.2

end SchemaDictionary

open SchemaDictionary

lemma getElem?_eq_some_getD {α : Type*} {l : List α} (hi : i < l.length) (a : α) :
    l[i]? = some (l.getD i a) := by
  rw [getD_eq_getElem?_getD, getElem?_eq_getElem hi, Option.getD_some]

/-- A record with every field of the table, those that were not there null. -/
structure Completes (names : List String) (obj result : Entries) : Prop where
  fields : ((entriesLeaves result).map Prod.fst).Perm (names.map splitFieldPath)
  kept : ∀ leaf ∈ entriesLeaves obj, leaf ∈ entriesLeaves result
  missing : ∀ leaf ∈ entriesLeaves result, leaf ∉ entriesLeaves obj →
    leaf.2 = .null ∧ leaf.1 ∉ (entriesLeaves obj).map Prod.fst

lemma setField_eq (result : Entries) (name : String) (value : JsonValue) :
    setField result name value = setDeepProperty result (splitFieldPath name) value := by
  unfold setField fieldPath
  cases hdouble : DoubledSeparator.hasDouble '_' name.toList with
  | true => rfl
  | false =>
    have hsplit : splitFieldPath name = [name] := by
      rw [splitFieldPath, DoubledSeparator.split_eq, DoubledSeparator.splitFirst_word hdouble]
      simp
    rw [hsplit]
    rfl

variable {d : SchemaDictionary} {table : ℕ} {names : List String}

lemma encodeValue_eq_ok {flat : Entries} :
    d.encodeValue table flat = .ok sent ↔ List.Forall₂ (d.SentAs table) flat sent := by
  rw [encodeValue, mapM_eq_ok]
  refine iff_of_eq (congrArg (List.Forall₂ · flat sent) (funext₂ fun e s => propext ?_))
  constructor
  · intro h
    obtain ⟨i, hi, h⟩ := bind_eq_ok.mp h
    obtain ⟨w, hw, h⟩ := bind_eq_ok.mp h
    cases h
    exact ⟨hi, hw⟩
  · rintro ⟨hi, hw⟩
    exact bind_eq_ok.mpr ⟨_, hi, bind_eq_ok.mpr ⟨_, hw, rfl⟩⟩

lemma decode_not_object {flags : ℕ} {v w : JsonValue} (hw : isObject w = false)
    (h : decodeFieldValueWithFlags flags w = .ok v) : isObject v = false := by
  unfold decodeFieldValueWithFlags at h
  split_ifs at h
  · cases w with
    | object => cases hw
    | array items =>
      obtain ⟨_, -, rfl⟩ := map_eq_ok.mp h
      rfl
    | bytes =>
      obtain ⟨_, -, rfl⟩ := map_eq_ok.mp h
      rfl
    | null | boolean | number | string => cases h; rfl
  · cases h
    exact hw

lemma encode_eq_null {flags : ℕ} {v w : JsonValue} (h : encodeFieldValueWithFlags flags v = .ok w) :
    w = .null ↔ v = .null := by
  unfold encodeFieldValueWithFlags at h
  split_ifs at h
  · cases v with
    | string =>
      obtain ⟨_, -, rfl⟩ := map_eq_ok.mp h
      exact iff_of_false nofun nofun
    | array =>
      obtain ⟨_, -, rfl⟩ := map_eq_ok.mp h
      exact iff_of_false nofun nofun
    | null | boolean | number | bytes | object => cases h; rfl
  · cases h
    rfl

variable (h : d.Valid) (hnames : d.fields[table]? = some names)
include h hnames

lemma getFieldIndex_iff : d.getFieldIndex table name = .ok i ↔ names[i]? = some name := by
  rw [getFieldIndex_eq_ok h, getFieldName_eq_ok h, hnames]
  simp

lemma getFieldFlags_eq (hi : i < names.length) : d.getFieldFlags table i = .ok (d.flagsAt table i) := by
  have hfields := h.fields
  have hflagged := h.flagged
  have hlength := h.flags table names hnames
  obtain ⟨htable, -⟩ := List.getElem?_eq_some_iff.mp hnames
  have htaken : d.fieldFlags[table]? = some (d.fieldFlags.getD table []) :=
    getElem?_eq_some_getD (by omega) []
  have hflag : (d.fieldFlags.getD table [])[i]? = some (d.flagsAt table i) :=
    getElem?_eq_some_getD (by omega) 0
  unfold getFieldFlags
  rw [if_neg (by omega), htaken, Option.bind_some, hflag]

lemma encodeFieldValue_eq (hi : i < names.length) (v : JsonValue) :
    d.encodeFieldValue table i v = encodeFieldValueWithFlags (d.flagsAt table i) v := by
  rw [encodeFieldValue, getFieldFlags_eq h hnames hi]
  rfl

lemma find_sent {flat : Entries} (hsent : List.Forall₂ (d.SentAs table) flat sent)
    (hname : names[i]? = some name) :
    Option.Rel (fun v w => encodeFieldValueWithFlags (d.flagsAt table i) v = .ok w)
      (find eqKey name flat) (find eqKey i sent) := by
  have hi := (List.getElem?_eq_some_iff.mp hname).1
  induction hsent with
  | nil => exact .none
  | @cons e s _ _ hes _ ih =>
    obtain ⟨hindex, hvalue⟩ := hes
    have hat := (getFieldIndex_iff h hnames).mp hindex
    by_cases hsame : e.1 = name
    · have hs : s.1 = i := by
        refine (getElem?_inj (List.getElem?_eq_some_iff.mp hat).1 (h.names hnames)).mp ?_
        rw [hat, hname, hsame]
      rw [find, find, if_pos (by simpa using hsame), if_pos (by simpa using hs)]
      rw [hs, encodeFieldValue_eq h hnames hi] at hvalue
      exact .some hvalue
    · have hs : s.1 ≠ i := by
        rintro rfl
        rw [hname, Option.some.injEq] at hat
        exact hsame hat.symm
      rw [find, find, if_neg (by simpa using hsame), if_neg (by simpa using hs)]
      exact ih

lemma decodeRecord_eq_ok {row : List JsonValue} {result : Entries} :
    d.decodeRecord table row = .ok result ↔ row.length = names.length ∧
      ∃ values : List JsonValue, values.length = names.length ∧
        (∀ i w v, row[i]? = some w → values[i]? = some v →
          decodeFieldValueWithFlags (d.flagsAt table i) w = .ok v) ∧
        result = unflatten (names.zip values) := by
  have hset : ∀ values : List JsonValue, (names.zip values).foldl (fun r e => setField r e.1 e.2) [] =
      unflatten (names.zip values) := fun values => by
    rw [unflatten]
    exact congrArg (fun f => (names.zip values).foldl f []) (funext₂ fun r e => setField_eq r e.1 e.2)
  unfold decodeRecord
  rw [(getFields_eq_ok h).mpr hnames, ok_bind]
  split_ifs with hlength
  · exact iff_of_false (fun hresult => by cases hresult) fun hresult => hlength hresult.1
  rw [not_not] at hlength
  simp only [hlength, true_and]
  have hvalues : ∀ values, row.zipIdx.mapM (fun e =>
      decodeFieldValueWithFlags ((d.fieldFlags.getD table []).getD e.2 0) e.1) = .ok values ↔
      values.length = names.length ∧ ∀ i w v, row[i]? = some w → values[i]? = some v →
        decodeFieldValueWithFlags (d.flagsAt table i) w = .ok v := by
    intro values
    have hcount : row.zipIdx.length = values.length ↔ values.length = names.length := by
      rw [length_zipIdx, hlength]
      exact eq_comm
    rw [mapM_eq_ok, forall₂_iff_get]
    refine and_congr hcount ⟨fun hall i w v hw hv => ?_, fun hall i hrow hval => ?_⟩
    · obtain ⟨hiw, rfl⟩ := List.getElem?_eq_some_iff.mp hw
      obtain ⟨hiv, rfl⟩ := List.getElem?_eq_some_iff.mp hv
      have hat := hall i (by rw [length_zipIdx]; exact hiw) hiv
      simpa [flagsAt] using hat
    · rw [length_zipIdx] at hrow
      have hat := hall i _ _ (getElem?_eq_getElem hrow) (getElem?_eq_getElem hval)
      simpa [flagsAt] using hat
  constructor
  · intro hresult
    obtain ⟨values, hmap, hpure⟩ := bind_eq_ok.mp hresult
    cases hpure
    obtain ⟨hcount, hall⟩ := (hvalues values).mp hmap
    exact ⟨values, hcount, hall, hset values⟩
  · rintro ⟨values, hcount, hall, rfl⟩
    refine bind_eq_ok.mpr ⟨values, (hvalues values).mpr ⟨hcount, hall⟩, ?_⟩
    rw [hset values]
    rfl

lemma flat_leaf {obj : Entries} (hobj : d.IsRecord table names obj) {v : JsonValue} :
    find eqKey name (flatten obj) = some v ↔ (splitFieldPath name, v) ∈ entriesLeaves obj := by
  have hpaths := h.paths names (mem_of_getElem? hnames)
  have hflat : flatten obj = (entriesLeaves obj).map fun leaf => (joinFieldPath leaf.1, leaf.2) := by
    rw [flatten_eq_keyed hpaths hobj.distinct hobj.leaves]
    exact map_congr_left fun leaf hleaf => by rw [hpaths.key (hobj.leaves leaf hleaf).1]
  have hsplit : ∀ leaf ∈ entriesLeaves obj, splitFieldPath (joinFieldPath leaf.1) = leaf.1 :=
    fun leaf hleaf => hpaths.split _ (hobj.leaves leaf hleaf).1
  constructor
  · intro hfind
    obtain ⟨key, hkey, hmem⟩ := mem_of_find eqKey hfind
    rw [hflat] at hmem
    obtain ⟨leaf, hleaf, heq⟩ := mem_map.mp hmem
    cases heq
    rw [eqKey_iff] at hkey
    rw [← hkey, hsplit leaf hleaf]
    exact hleaf
  · intro hmem
    have hdistinct : Distinct eqKey (flatten obj) := by
      have hkeys := hobj.distinct
      rw [hasDistinctKeys, Bool.and_eq_true, decide_eq_true_eq] at hkeys
      have hnodup := entriesLeaves_nodup obj hkeys.1 hkeys.2
      rw [hflat, Distinct, pairwise_map]
      refine (pairwise_map.mp hnodup).imp_of_mem fun {a b} ha hb hne => ?_
      rw [eqKey_eq_false]
      intro heq
      have heq : joinFieldPath a.1 = joinFieldPath b.1 := heq
      exact hne (by rw [← hsplit a ha, heq, hsplit b hb])
    have hflatMem : (name, v) ∈ flatten obj := by
      rw [hflat]
      exact mem_map.mpr ⟨_, hmem, by rw [joinFieldPath_splitFieldPath]⟩
    exact find_of_mem eqKey hdistinct hflatMem (KeyTest.self eqKey name)

lemma decodeRecord_rowOf {flat : Entries} (hsent : d.encodeValue table flat = .ok sent)
    (hdocIds : ∀ i name v, names[i]? = some name → find eqKey name flat = some v →
      isDocIdFlags (d.flagsAt table i) → Without isBytes v) :
    d.decodeRecord table (rowOf names.length sent) =
      .ok (unflatten (names.map fun name => (name, (find eqKey name flat).getD .null))) := by
  have hzip : names.map (fun name => (name, (find eqKey name flat).getD .null)) =
      names.zip (names.map fun name => (find eqKey name flat).getD .null) := by
    clear * -
    induction names with
    | nil => rfl
    | cons name names ih => rw [map_cons, map_cons, zip_cons_cons, ih]
  rw [hzip]
  refine (decodeRecord_eq_ok h hnames).mpr ⟨by simp [rowOf], _, length_map _, ?_, rfl⟩
  intro i w v hw hv
  rw [getElem?_map, Option.map_eq_some_iff] at hv
  obtain ⟨name, hname, rfl⟩ := hv
  have hi := (List.getElem?_eq_some_iff.mp hname).1
  rw [rowOf, getElem?_map, getElem?_range hi, Option.map_some, Option.some.injEq] at hw
  rw [← hw]
  have hrel := find_sent h hnames (encodeValue_eq_ok.mp hsent) hname
  generalize hv : find eqKey name flat = found at hrel ⊢
  generalize find eqKey i sent = found' at hrel ⊢
  cases hrel with
  | none => exact decode_null _
  | some hencode => exact (decode_encode (hdocIds i name _ hname hv) hencode).1

lemma rowOf_decodeRecord {row : List JsonValue} {result : Entries} (hrow : d.IsRow table row)
    (hresult : d.decodeRecord table row = .ok result) :
    ∃ sent, d.encodeValue table (flatten result) = .ok sent ∧ rowOf names.length sent = row := by
  obtain ⟨hlength, values, hcount, hdecode, rfl⟩ := (decodeRecord_eq_ok h hnames).mp hresult
  have hpaths := h.paths names (mem_of_getElem? hnames)
  have hkeys : (names.zip values).map Prod.fst = names := map_fst_zip hcount.ge
  have hmembers : ∀ e ∈ names.zip values, ∃ i w, names[i]? = some e.1 ∧ row[i]? = some w ∧
      decodeFieldValueWithFlags (d.flagsAt table i) w = .ok e.2 := by
    intro e he
    obtain ⟨i, hi, hat⟩ := mem_iff_getElem.mp he
    rw [length_zip] at hi
    rw [getElem_zip] at hat
    have hrowAt := getElem?_eq_getElem (l := row) (i := i) (by omega)
    have hvalueAt := getElem?_eq_getElem (l := values) (i := i) (by omega)
    subst hat
    exact ⟨i, row[i], getElem?_eq_getElem (by omega), hrowAt, hdecode i _ _ hrowAt hvalueAt⟩
  have hperm : (flatten (unflatten (names.zip values))).Perm (names.zip values) := by
    refine flatten_unflatten hpaths (by rw [hkeys]; exact h.names hnames) fun e he => ?_
    obtain ⟨i, w, hname, hw, hvalue⟩ := hmembers e he
    refine ⟨mem_map.mpr ⟨splitFieldPath e.1, ?_, joinFieldPath_splitFieldPath e.1⟩, ?_⟩
    · exact mem_map_of_mem (mem_of_getElem? hname)
    · exact decode_not_object (hrow i w hw).1 hvalue
  have hencode : ∀ e ∈ names.zip values, ∃ i w, names[i]? = some e.1 ∧ row[i]? = some w ∧
      encodeFieldValueWithFlags (d.flagsAt table i) e.2 = .ok w := by
    intro e he
    obtain ⟨i, w, hname, hw, hvalue⟩ := hmembers e he
    exact ⟨i, w, hname, hw, (encode_decode (hrow i w hw).2 hvalue).1⟩
  have hsends : ∃ sent, d.encodeValue table (flatten (unflatten (names.zip values))) = .ok sent := by
    unfold encodeValue
    refine (mapM_exists (R := fun _ _ => True) fun e he => ?_).imp fun sent hsent => hsent.1
    obtain ⟨i, w, hname, -, hvalue⟩ := hencode e (hperm.mem_iff.mp he)
    have hi := (List.getElem?_eq_some_iff.mp hname).1
    rw [← encodeFieldValue_eq h hnames hi] at hvalue
    refine ⟨(i, w), bind_eq_ok.mpr ⟨i, (getFieldIndex_iff h hnames).mpr hname, ?_⟩, trivial⟩
    exact bind_eq_ok.mpr ⟨w, hvalue, rfl⟩
  obtain ⟨sent, hsent⟩ := hsends
  refine ⟨sent, hsent, ext_getElem (by rw [rowOf, length_map, length_range, hlength]) ?_⟩
  intro i hi hi'
  have hname := getElem?_eq_getElem (l := names) (i := i) (by omega)
  have hmem : (names[i], values[i]) ∈ names.zip values :=
    mem_iff_getElem.mpr ⟨i, by rw [length_zip]; omega, getElem_zip⟩
  have hdistinct : Distinct eqKey (flatten (unflatten (names.zip values))) := by
    have hnodup := (hperm.map Prod.fst).nodup_iff.mpr (by rw [hkeys]; exact h.names hnames)
    exact (pairwise_map.mp hnodup).imp fun hne => by simpa using hne
  have hfind := find_of_mem eqKey hdistinct (hperm.mem_iff.mpr hmem) (KeyTest.self eqKey _)
  have hrel := find_sent h hnames (encodeValue_eq_ok.mp hsent) hname
  have hrowAt := getElem?_eq_getElem hi'
  have hvalue := hdecode i _ _ hrowAt (getElem?_eq_getElem (by omega))
  have hback := (encode_decode (hrow i _ hrowAt).2 hvalue).1
  rw [hfind] at hrel
  simp only [rowOf, getElem_map, getElem_range]
  generalize find eqKey i sent = found at hrel ⊢
  cases hrel with
  | some hw =>
    rw [hback, Except.ok.injEq] at hw
    exact hw.symm

lemma decodeRecord_encodeValue {obj : Entries} (hobj : d.IsRecord table names obj)
    (hsent : d.encodeValue table (flatten obj) = .ok sent) :
    ∃ result, d.decodeRecord table (rowOf names.length sent) = .ok result ∧ Completes names obj result := by
  have hpaths := h.paths names (mem_of_getElem? hnames)
  refine ⟨_, decodeRecord_rowOf h hnames hsent ?_, ?_⟩
  · intro i name v hname hfind hflags
    exact hobj.docIds i name hname hflags v ((flat_leaf h hnames hobj).mp hfind)
  have hleaves : (entriesLeaves (unflatten (names.map fun name =>
      (name, (find eqKey name (flatten obj)).getD .null)))).Perm
      (names.map fun name => (splitFieldPath name, (find eqKey name (flatten obj)).getD .null)) := by
    have hkeys : (names.map fun name => (name, (find eqKey name (flatten obj)).getD .null)).map Prod.fst = names := by
      rw [map_map]
      exact map_id names
    have hall := entriesLeaves_unflatten hpaths (hkeys.symm ▸ h.names hnames) fun e he => ?_
    · rwa [map_map] at hall
    · obtain ⟨name, hname, rfl⟩ := mem_map.mp he
      refine ⟨mem_map.mpr ⟨_, mem_map_of_mem hname, joinFieldPath_splitFieldPath name⟩, ?_⟩
      cases hfind : find eqKey name (flatten obj) with
      | none => rfl
      | some v => exact (hobj.leaves _ ((flat_leaf h hnames hobj).mp hfind)).2
  refine ⟨?_, ?_, ?_⟩
  · have hpathsOf := hleaves.map Prod.fst
    rwa [map_map] at hpathsOf
  · intro leaf hleaf
    obtain ⟨name, hname, hsplit⟩ := mem_map.mp (hobj.leaves leaf hleaf).1
    have hfind : find eqKey name (flatten obj) = some leaf.2 :=
      (flat_leaf h hnames hobj).mpr (by rw [hsplit]; exact hleaf)
    refine hleaves.mem_iff.mpr (mem_map.mpr ⟨name, hname, ?_⟩)
    rw [hfind, hsplit]
    rfl
  · intro leaf hleaf hnot
    obtain ⟨name, -, rfl⟩ := mem_map.mp (hleaves.mem_iff.mp hleaf)
    cases hfind : find eqKey name (flatten obj) with
    | some v =>
      rw [hfind] at hnot
      exact absurd ((flat_leaf h hnames hobj).mp hfind) hnot
    | none =>
      refine ⟨rfl, fun hmem => ?_⟩
      obtain ⟨other, hother, hpath⟩ := mem_map.mp hmem
      have hpath : other.1 = splitFieldPath name := hpath
      have hsome : find eqKey name (flatten obj) = some other.2 :=
        (flat_leaf h hnames hobj).mpr (by rw [← hpath]; exact hother)
      rw [hfind] at hsome
      cases hsome

lemma sent_iff {obj : Entries} (hobj : d.IsRecord table names obj)
    (hsent : d.encodeValue table (flatten obj) = .ok sent) (hname : names[i]? = some name) :
    (find eqKey i sent = none ↔ splitFieldPath name ∉ (entriesLeaves obj).map Prod.fst) ∧
      (find eqKey i sent = some .null ↔ (splitFieldPath name, .null) ∈ entriesLeaves obj) := by
  have hrel := find_sent h hnames (encodeValue_eq_ok.mp hsent) hname
  have hleaf : ∀ v, find eqKey name (flatten obj) = some v ↔ (splitFieldPath name, v) ∈ entriesLeaves obj :=
    fun v => flat_leaf h hnames hobj
  have hmem : splitFieldPath name ∈ (entriesLeaves obj).map Prod.fst ↔
      ∃ v, find eqKey name (flatten obj) = some v := by
    simp only [hleaf, mem_map, Prod.exists]
    exact exists_comm.trans (by simp)
  rw [hmem, ← hleaf]
  generalize find eqKey name (flatten obj) = found at hrel ⊢
  generalize find eqKey i sent = found' at hrel ⊢
  cases hrel with
  | none => simp
  | some hencode => simp [encode_eq_null hencode]

end Records

section Schema

open SchemaParse

/-- The flags that the server sends for a field. -/
def fieldFlags (system : Bool) (storageType : FieldType) (required : Bool) : ℕ :=
  (if system then 1 else 0) ||| (if storageType = .docId then 2 else 0) |||
    (if required then 4 else 0) ||| if storageType = .bytes then 8 else 0

def systemFlags (f : Field) : ℕ :=
  fieldFlags (f.kind = .system || f.kind = .timestamp) f.storageType f.required

def declaredFlags (f : DeclaredField) : ℕ := fieldFlags false f.storageType f.required

def runtimeFlags (t : DeclaredTable) : List ℕ :=
  leadingSystemFields.map systemFlags ++ t.fields.map declaredFlags ++ trailingSystemFields.map systemFlags

/-- The dictionary that the client makes of what the server sends for a schema. -/
def dictionaryOf (s : DeclaredSchema) : SchemaDictionary where
  tables := s.tables.map DeclaredTable.name
  fields := s.tables.map runtimeNames
  fieldFlags := s.tables.map runtimeFlags

lemma system_paths {f : Field} (h : f ∈ leadingSystemFields ++ trailingSystemFields) :
    splitFieldPath f.name = [f.name] ∧ f.name ≠ "" ∧ isSystemColumn f.name = true := by
  have hall : ∀ f ∈ leadingSystemFields ++ trailingSystemFields,
      splitFieldPath f.name = [f.name] ∧ f.name ≠ "" ∧ isSystemColumn f.name = true := by decide
  exact hall f h

variable {compiles : Bytes → Bool}

lemma fieldPaths_runtimeNames {t : DeclaredTable} {isUsersTable : Bool} {required : List String}
    {tree : FieldTree} (haccepted : t.Accepted compiles isUsersTable required tree)
    (hnames : ∀ f ∈ t.fields, ¬['_', '_', '_'] <:+: f.name.toList) :
    FieldPaths ((runtimeNames t).map splitFieldPath) := by
  rw [haccepted.fields] at hnames
  have hfits := haccepted.fits
  have hsystem : ∀ fs : List Field, fs ⊆ leadingSystemFields ++ trailingSystemFields →
      (fs.map Field.name).map splitFieldPath = fs.map fun f => [f.name] := by
    intro fs hfs
    rw [map_map]
    exact map_congr_left fun f hf => (system_paths (hfs hf)).1
  have hpaths : (runtimeNames t).map splitFieldPath = leadingSystemFields.map (fun f => [f.name]) ++
      tree.paths ++ trailingSystemFields.map fun f => [f.name] := by
    rw [runtimeNames, map_append, map_append, hsystem _ (subset_append_left _ _),
      hsystem _ (subset_append_right _ _), haccepted.fields, ← FieldTree.split_names hfits hnames, map_map]
    rfl
  have haway : ∀ f ∈ leadingSystemFields ++ trailingSystemFields, ∀ path ∈ tree.paths,
      Incomparable [f.name] path := by
    intro f hf path hpath
    obtain ⟨⟨segment, -, rest, rfl⟩, hall⟩ := FieldTree.path_segments hfits path hpath
    refine FieldTree.incomparable_of_head_ne ?_ [] rest
    rintro rfl
    have hnot := (hall _ mem_cons_self).notSystem
    rw [(system_paths hf).2.2] at hnot
    cases hnot
  have hamong : (leadingSystemFields.map fun f => [f.name]).Pairwise Incomparable ∧
      (trailingSystemFields.map fun f => [f.name]).Pairwise Incomparable ∧
        ∀ p ∈ leadingSystemFields.map fun f => [f.name], ∀ q ∈ trailingSystemFields.map fun f => [f.name],
          Incomparable p q := by
    unfold Incomparable
    decide
  refine ⟨?_, ?_, ?_⟩
  · rw [hpaths, pairwise_append, pairwise_append]
    refine ⟨⟨hamong.1, FieldTree.paths_incomparable hfits, ?_⟩, hamong.2.1, ?_⟩
    · rintro _ hp path hpath
      obtain ⟨f, hf, rfl⟩ := mem_map.mp hp
      exact haway f (mem_append_left _ hf) path hpath
    · intro p hp q hq
      obtain hp | hp := mem_append.mp hp
      · exact hamong.2.2 p hp q hq
      · obtain ⟨f, hf, rfl⟩ := mem_map.mp hq
        exact (haway f (mem_append_right _ hf) p hp).symm
  · have hsingle : ∀ fs : List Field, fs ⊆ leadingSystemFields ++ trailingSystemFields →
        ∀ path ∈ fs.map fun f => [f.name], path ≠ [] ∧ "" ∉ path := by
      intro fs hfs path hpath
      obtain ⟨f, hf, rfl⟩ := mem_map.mp hpath
      refine ⟨cons_ne_nil _ _, fun hmem => (system_paths (hfs hf)).2.1 ?_⟩
      exact (mem_singleton.mp hmem).symm
    rw [hpaths]
    refine forall_mem_append.mpr ⟨forall_mem_append.mpr ⟨?_, fun path hpath => ?_⟩, ?_⟩
    · exact hsingle _ (subset_append_left _ _)
    · exact ⟨(FieldTree.path_clean hfits path hpath).1, (FieldTree.path_clean hfits path hpath).2.1⟩
    · exact hsingle _ (subset_append_right _ _)
  · intro path hpath
    obtain ⟨name, -, rfl⟩ := mem_map.mp hpath
    rw [joinFieldPath_splitFieldPath]

lemma valid_dictionaryOf {json : ZyncBase.JsonValue} {s : DeclaredSchema} (h : initFromJson compiles json = .ok s)
    (hnames : ∀ t ∈ s.tables, ∀ f ∈ t.fields, ¬['_', '_', '_'] <:+: f.name.toList) : (dictionaryOf s).Valid := by
  obtain ⟨root, store, -, -, -, -, -, hinit⟩ := initFromJson_eq_ok h
  obtain ⟨-, -, htables⟩ := initFromTables_eq_ok hinit
  refine ⟨htables, by simp [dictionaryOf], fun i names hi => ?_, by simp [dictionaryOf], ?_⟩
  · rw [dictionaryOf, getElem?_map, Option.map_eq_some_iff] at hi
    obtain ⟨t, ht, rfl⟩ := hi
    simp [dictionaryOf, ht, runtimeFlags, runtimeNames]
  · intro names hmem
    obtain ⟨t, ht, rfl⟩ := mem_map.mp hmem
    obtain ⟨isUsersTable, required, tree, haccepted, -⟩ := initFromJson_tree h t ht
    exact fieldPaths_runtimeNames haccepted (hnames t ht)

/-- Names, paths, values and records come back from what they are encoded as. -/
structure RoundTrips (d : SchemaDictionary) : Prop where
  tables : ∀ name i, d.getTableIndex name = .ok i ↔ d.getTableName i = .ok name
  fields : ∀ table name i, d.getFieldIndex table name = .ok i ↔ d.getFieldName table i = .ok name
  paths : ∀ path wire, d.encodePath path = .ok wire → d.decodePath wire = .ok path.split
  wirePaths : ∀ path wire, wire.Packed → d.decodePath wire = .ok path →
    d.encodePath path = .ok wire ∧ path.split = path
  values : ∀ table i v w, (isDocIdFlags (d.flagsAt table i) → Without isBytes v) →
    d.encodeFieldValue table i v = .ok w → d.decodeFieldValue table i w = .ok v
  wireValues : ∀ table i v w, (isDocIdFlags (d.flagsAt table i) → Without isString w) →
    d.decodeFieldValue table i w = .ok v → d.encodeFieldValue table i v = .ok w
  flat : ∀ table names flat sent, d.getFields table = .ok names → d.encodeValue table flat = .ok sent →
    (∀ i name v, names[i]? = some name → find eqKey name flat = some v →
      isDocIdFlags (d.flagsAt table i) → Without isBytes v) →
    d.decodeRecord table (rowOf names.length sent) =
      .ok (unflatten (names.map fun name => (name, (find eqKey name flat).getD .null)))
  records : ∀ table names obj sent, d.getFields table = .ok names → d.IsRecord table names obj →
    d.encodeValue table (flatten obj) = .ok sent →
      ∃ result, d.decodeRecord table (rowOf names.length sent) = .ok result ∧ Completes names obj result
  nulls : ∀ table names obj sent, d.getFields table = .ok names → d.IsRecord table names obj →
    d.encodeValue table (flatten obj) = .ok sent → ∀ i name, names[i]? = some name →
      (find eqKey i sent = none ↔ splitFieldPath name ∉ (entriesLeaves obj).map Prod.fst) ∧
        (find eqKey i sent = some .null ↔ (splitFieldPath name, .null) ∈ entriesLeaves obj)
  rows : ∀ table names row result, d.getFields table = .ok names → d.IsRow table row →
    d.decodeRecord table row = .ok result →
      ∃ sent, d.encodeValue table (flatten result) = .ok sent ∧ rowOf names.length sent = row

lemma flagsAt_of_getFieldFlags {d : SchemaDictionary} {table flags : ℕ}
    (h : d.getFieldFlags table i = .ok flags) : d.flagsAt table i = flags := by
  unfold SchemaDictionary.getFieldFlags at h
  split_ifs at h
  rw [SchemaDictionary.flagsAt, getD_eq_getElem?_getD, getD_eq_getElem?_getD]
  cases htable : d.fieldFlags[table]? with
  | none => rw [htable] at h; cases h
  | some tableFlags =>
    rw [htable, Option.bind_some] at h
    cases hfield : tableFlags[i]? with
    | none => rw [hfield] at h; cases h
    | some found =>
      rw [hfield] at h
      cases h
      rw [Option.getD_some, hfield, Option.getD_some]

lemma SchemaDictionary.Valid.roundTrips {d : SchemaDictionary} (h : d.Valid) : RoundTrips d where
  tables _ _ := getTableIndex_eq_ok h
  fields _ _ _ := getFieldIndex_eq_ok h
  paths _ _ := decodePath_encodePath h
  wirePaths path wire hpacked hpath := by
    have hwire := encodePath_decodePath h hpacked hpath
    have hback := decodePath_encodePath h hwire
    rw [hpath, Except.ok.injEq] at hback
    exact ⟨hwire, hback.symm⟩
  values table i v w hv hw := by
    obtain ⟨flags, hflags, hencode⟩ := bind_eq_ok.mp hw
    rw [← flagsAt_of_getFieldFlags hflags] at hencode
    refine bind_eq_ok.mpr ⟨flags, hflags, ?_⟩
    rw [← flagsAt_of_getFieldFlags hflags]
    exact (decode_encode hv hencode).1
  wireValues table i v w hw hv := by
    obtain ⟨flags, hflags, hdecode⟩ := bind_eq_ok.mp hv
    rw [← flagsAt_of_getFieldFlags hflags] at hdecode
    refine bind_eq_ok.mpr ⟨flags, hflags, ?_⟩
    rw [← flagsAt_of_getFieldFlags hflags]
    exact (encode_decode hw hdecode).1
  flat _ _ _ _ hnames hsent hdocIds := decodeRecord_rowOf h ((getFields_eq_ok h).mp hnames) hsent hdocIds
  records _ _ _ _ hnames hobj := decodeRecord_encodeValue h ((getFields_eq_ok h).mp hnames) hobj
  nulls _ _ _ _ hnames hobj hsent _ _ := sent_iff h ((getFields_eq_ok h).mp hnames) hobj hsent
  rows _ _ _ _ hnames := rowOf_decodeRecord h ((getFields_eq_ok h).mp hnames)

/-- The dictionary of a schema whose names can be divided takes back what it gives. -/
theorem dictionaryOf_roundTrips {json : ZyncBase.JsonValue} {s : DeclaredSchema}
    (h : initFromJson compiles json = .ok s)
    (hnames : ∀ t ∈ s.tables, ∀ f ∈ t.fields, ¬['_', '_', '_'] <:+: f.name.toList) :
    RoundTrips (dictionaryOf s) := (valid_dictionaryOf h hnames).roundTrips

namespace DictionaryExample

open SchemaRoundTripExample

theorem dictionaryOf_roundTrips_nested : RoundTrips (dictionaryOf (noteSchema "a__b")) :=
  @dictionaryOf_roundTrips (fun _ => true) nested _ rfl (by decide)

/-- A path comes back with its last segment divided, and a record with every field of its table. -/
theorem nested_not_same : ∃ wire, initFromJson (fun _ => true) nested = .ok (noteSchema "a__b") ∧
    (dictionaryOf (noteSchema "a__b")).encodePath (.field "notes" [120] "a__b" []) = .ok wire ∧
    (dictionaryOf (noteSchema "a__b")).decodePath wire = .ok (.field "notes" [120] "a" ["b"]) ∧
    (dictionaryOf (noteSchema "a__b")).encodeValue 1 (flatten []) = .ok [] ∧
    (dictionaryOf (noteSchema "a__b")).decodeRecord 1 (rowOf 6 []) =
      .ok [("id", .null), ("namespace_id", .null), ("owner_id", .null), ("a", .object [("b", .null)]),
        ("created_at", .null), ("updated_at", .null)] :=
  ⟨_, rfl, rfl, by decide, rfl, by rfl⟩

end DictionaryExample

end Schema

end ZyncBase.Sdk
