import ZyncBase.Authorization.CreatePath

/-! A field that a write payload gives more than once: authorization reads its last value, and what is
stored depends on whether the repetition is dropped when the columns are decoded. -/
namespace ZyncBase

open List

def findFirstValue (sparse : List Payload) (fieldIndex : ℕ) : Option Payload :=
  (sparsePairs sparse).bind fun pairs => (pairs.find? (isFor fieldIndex)).map Prod.snd

/-- A field beyond those that are tracked has one value, however often the payload gives it. -/
def RepeatsAgree (t : Table) (items : List Payload) : Prop :=
  ∀ i f, maxStoreFields ≤ i → t.fields[i]? = some f →
    ∀ first ∈ findFirstValue items i, ∀ last ∈ findLastValue items i,
      fromPayload f.storageType f.itemsType first = fromPayload f.storageType f.itemsType last

/-- A write stores what authorization sees: a created row has the value of each field, nil when the
payload has none, and a row that is there already keeps its own value then. For a column that it is given
twice, SQLite takes the first value in an `INSERT`, also when a conflict turns it into an update, and the
last one in an `UPDATE`. -/
structure SeenIsStored (t : Table) (items : List Payload) (columns : List ColumnValue) : Prop where
  created : ∀ namespaceId docId ownerDocId createdAt i f, firstUserFieldIndex ≤ i →
    i < t.fields.length - 2 → t.fields[i]? = some f →
      (createdRecord t namespaceId docId ownerDocId columns createdAt).values[i]? =
        decodeSparse items i f.storageType f.itemsType
  overwritten : ∀ (row : Row) (docId : DocId), row.fields.length = t.userFields.length →
    ∀ i f, firstUserFieldIndex ≤ i → i < t.fields.length - 2 → t.fields[i]? = some f →
      ((row.setColumns columns.reverse).record docId).values[i]? =
        if (findLastValue items i).isSome then decodeSparse items i f.storageType f.itemsType
        else (row.record docId).values[i]?
  updated : ∀ (row : Row) (docId : DocId), row.fields.length = t.userFields.length →
    ∀ i f, firstUserFieldIndex ≤ i → i < t.fields.length - 2 → t.fields[i]? = some f →
      ((row.setColumns columns).record docId).values[i]? =
        if (findLastValue items i).isSome then decodeSparse items i f.storageType f.itemsType
        else (row.record docId).values[i]?

variable {i : ℕ} {f : Field}

section Repeats

variable {t : Table} {constraints : ℕ → Option Constraints} {items : List Payload} {columns : List ColumnValue}

/-- The columns of a field: one at most where the field is tracked, else one for each pair. -/
structure Repeats (t : Table) (scanned : List (Payload × Payload)) (d : Decoded) : Prop where
  tracked : ∀ c ∈ d.columns, c.index < maxStoreFields → c.index ∈ d.seen
  once : ∀ i < maxStoreFields, (d.columns.filter (·.index = i)).length ≤ 1
  each : ∀ i, maxStoreFields ≤ i → List.Forall₂
    (fun p c => ∃ f, t.fields[i]? = some f ∧ fromPayload f.storageType f.itemsType p.2 = .ok c.value)
    (scanned.filter (isFor i)) (d.columns.filter (·.index = i))

lemma Repeats.empty (t : Table) : Repeats t [] {} where
  tracked := fun _ h => absurd h not_mem_nil
  once := fun _ _ => Nat.zero_le _
  each := fun _ _ => .nil

lemma Repeats.decodePair {scanned : List (Payload × Payload)} {d d' : Decoded}
    (h : Repeats t scanned d) {key rawValue : Payload}
    (hd : decodePair constraints t key rawValue d = .ok d') :
    Repeats t (scanned ++ [(key, rawValue)]) d' := by
  unfold ZyncBase.decodePair at hd
  cases hkey : key.toUsize with
  | none =>
    rw [hkey] at hd
    cases hd
  | some j =>
    rw [hkey] at hd
    dsimp only at hd
    have hfor (i : ℕ) : isFor i (key, rawValue) = decide (j = i) := by
      rw [isFor, hkey, Bool.eq_iff_iff, decide_eq_true_eq, decide_eq_true_eq, Option.some.injEq]
    split_ifs at hd with hseen
    · cases hd
      refine ⟨h.tracked, h.once, fun i hi => ?_⟩
      rw [filter_append, filter_singleton, hfor, decide_eq_false (by omega)]
      simpa using h.each i hi
    obtain ⟨f, v, hv, rfl⟩ := decodeColumn_eq_ok hd
    refine ⟨fun c hc hlt => ?_, fun i hi => ?_, fun i hi => ?_⟩
    · rcases mem_append.mp hc with hc | hc
      · have hold := h.tracked c hc hlt
        split_ifs
        · exact mem_cons_of_mem _ hold
        · exact hold
      · cases mem_singleton.mp hc
        rw [if_pos hlt]
        exact mem_cons_self
    · rw [filter_append, length_append, filter_singleton]
      by_cases hj : j = i
      · subst hj
        have hnone : d.columns.filter (·.index = j) = [] := by
          refine filter_eq_nil_iff.mpr fun c hc hindex => hseen ⟨hi, ?_⟩
          have hcj : c.index = j := of_decide_eq_true hindex
          rw [← hcj]
          exact h.tracked c hc (hcj ▸ hi)
        rw [hnone]
        simp
      · rw [decide_eq_false hj]
        simpa using h.once i hi
    · rw [filter_append, filter_append, filter_singleton, filter_singleton, hfor]
      by_cases hj : j = i
      · subst hj
        rw [decide_eq_true rfl]
        exact rel_append (h.each j hi) (.cons ⟨f.field, f.found, hv⟩ .nil)
      · rw [decide_eq_false hj]
        simpa using h.each i hi

/-- The last column of a field has the first value of the payload where the field is not tracked. -/
lemma Repeats.last {ps : List (Payload × Payload)} {seen : List ℕ}
    (h : Repeats t ps.reverse ⟨seen, columns⟩) (hi : maxStoreFields ≤ i) (hf : t.fields[i]? = some f)
    {p : Payload × Payload} (hp : ps.find? (isFor i) = some p) :
    ∃ c, columns.reverse.find? (·.index = i) = some c ∧
      fromPayload f.storageType f.itemsType p.2 = .ok c.value := by
  have heach := rel_reverse (h.each i hi)
  rw [← filter_reverse, ← filter_reverse, reverse_reverse] at heach
  rw [← head?_filter] at hp ⊢
  obtain ⟨rest, hrest⟩ := head?_eq_some_iff.mp hp
  rw [hrest] at heach
  obtain ⟨c, cs, ⟨g, hg, hvalue⟩, -, hcols⟩ := forall₂_cons_left_iff.mp heach
  rw [hf, Option.some.injEq] at hg
  subst hg
  exact ⟨c, by rw [hcols]; rfl, hvalue⟩

lemma Repeats.find_reverse {ps : List (Payload × Payload)} {seen : List ℕ}
    (h : Repeats t ps.reverse ⟨seen, columns⟩) (hi : i < maxStoreFields) :
    columns.reverse.find? (·.index = i) = columns.find? (·.index = i) := by
  have honce := h.once i hi
  rw [← head?_filter, ← head?_filter, filter_reverse]
  generalize columns.filter (fun c => c.index = i) = cs at honce
  cases cs with
  | nil => rfl
  | cons c cs =>
    obtain rfl : cs = [] := by simpa using honce
    rfl

end Repeats

section Updates

variable {t : Table} {constraints : ℕ → Option Constraints} {items : List Payload} {columns : List ColumnValue}

lemma record_userField (row : Row) (docId : DocId) {j : ℕ} (hj : j < row.fields.length) :
    (row.record docId).values[firstUserFieldIndex + j]? = row.fields[j]? := by
  rw [Row.record, append_assoc, getElem?_append_right (by simp [firstUserFieldIndex]),
    getElem?_append_left (by simpa [firstUserFieldIndex] using hj)]
  congr 1
  simp [firstUserFieldIndex]

lemma updatedRecord_userField (row : Row) (docId : DocId)
    (hlength : row.fields.length = t.userFields.length) (hfirst : firstUserFieldIndex ≤ i)
    (hlast : i < t.fields.length - 2) :
    ((row.setColumns columns).record docId).values[i]? =
      match columns.reverse.find? (·.index = i) with
      | some c => some c.value
      | none => (row.record docId).values[i]? := by
  obtain ⟨j, rfl⟩ := Nat.exists_eq_add_of_le hfirst
  rw [Table.fields_length] at hlast
  have hthree : firstUserFieldIndex = 3 := rfl
  have hj : j < row.fields.length := by omega
  have hset := getElem?_setColumns columns.reverse row.fields j
  rw [reverse_reverse] at hset
  have hjset : j < (row.setColumns columns).fields.length := by
    rw [Row.setColumns, length_foldl_set]
    exact hj
  rw [record_userField _ docId hjset, record_userField _ docId hj, Row.setColumns, hset]
  cases columns.reverse.find? (·.index = firstUserFieldIndex + j) with
  | none => rfl
  | some c => simp [hj]

/-- The value that an update sets for a field: the last of the payload where the field is tracked, else
the first. -/
lemma updatedValue_eq (h : decodeColumnsFromPairs constraints t (.arr items) = .ok columns)
    (hf : t.fields[i]? = some f) :
    (columns.reverse.find? (·.index = i)).map ColumnValue.value =
      ((if i < maxStoreFields then findLastValue items i else findFirstValue items i).bind fun raw =>
        (fromPayload f.storageType f.itemsType raw).toOption) := by
  obtain ⟨ps, seen, hps, hcols, hrepeats⟩ :=
    scan_decodeColumnsFromPairs (P := fun scanned d => ColumnsOf t scanned d ∧ Repeats t scanned d)
      ⟨.empty t, .empty t⟩ (fun h hd => ⟨h.1.decodePair hd, h.2.decodePair hd⟩) h
  split_ifs with hi
  · rw [hrepeats.find_reverse hi, findLastValue_of_pairs hps]
    cases hfind : ps.reverse.find? (isFor i) with
    | none =>
      have hcol : columns.find? (·.index = i) = none := hcols.absent i hfind
      rw [hcol]
      rfl
    | some p =>
      obtain ⟨c, g, hc, hg, hvalue⟩ := hcols.present i p hfind
      have hcol : columns.find? (·.index = i) = some c := hc
      rw [hf, Option.some.injEq] at hg
      subst hg
      rw [hcol, Option.map_some, Option.map_some, Option.bind_some, hvalue]
      rfl
  · rw [findFirstValue, hps, Option.bind_some]
    cases hfind : ps.find? (isFor i) with
    | none =>
      have hnone : ps.reverse.find? (isFor i) = none := by
        rw [find?_eq_none] at hfind ⊢
        exact fun p hp => hfind p (mem_reverse.mp hp)
      have hcol := find?_eq_none.mp (hcols.absent i hnone)
      rw [find?_eq_none.mpr fun c hc => hcol c (mem_reverse.mp hc)]
      rfl
    | some p =>
      obtain ⟨c, hcol, hvalue⟩ := hrepeats.last (not_lt.mp hi) hf hfind
      rw [hcol, Option.map_some, Option.map_some, Option.bind_some, hvalue]
      rfl

lemma findFirstValue_isSome : (findFirstValue items i).isSome = (findLastValue items i).isSome := by
  cases hps : sparsePairs items with
  | none => rw [findFirstValue, findLastValue, hps]; rfl
  | some ps =>
    rw [findFirstValue, findLastValue_of_pairs hps, hps, Option.bind_some, Option.isSome_map,
      Option.isSome_map, Bool.eq_iff_iff, find?_isSome, find?_isSome]
    simp only [mem_reverse]

lemma last_decodes (h : decodeColumnsFromPairs constraints t (.arr items) = .ok columns)
    (hf : t.fields[i]? = some f) {last : Payload} (hlast : findLastValue items i = some last) :
    ∃ v, fromPayload f.storageType f.itemsType last = .ok v ∧ ∃ c ∈ columns, c.index = i ∧
      i < t.fields.length - 2 := by
  obtain ⟨ps, seen, hps, hcols⟩ := columnsOf_decodeColumnsFromPairs h
  rw [findLastValue_of_pairs hps] at hlast
  obtain ⟨p, hfind, rfl⟩ := Option.map_eq_some_iff.mp hlast
  obtain ⟨c, g, hc, hg, hvalue⟩ := hcols.present i p hfind
  rw [hf, Option.some.injEq] at hg
  subst hg
  have hmem := mem_of_find?_eq_some hc
  have hfound := find?_some hc
  have hindex : c.index = i := of_decide_eq_true hfound
  exact ⟨c.value, hvalue, c, hmem, hindex, hindex ▸ hcols.writable c hmem⟩

lemma column_of_absent (h : decodeColumnsFromPairs constraints t (.arr items) = .ok columns)
    (hlast : findLastValue items i = none) : columns.find? (·.index = i) = none := by
  obtain ⟨ps, seen, hps, hcols⟩ := columnsOf_decodeColumnsFromPairs h
  rw [findLastValue_of_pairs hps, Option.map_eq_none_iff] at hlast
  exact hcols.absent i hlast

lemma decodeSparse_of_last {last : Payload} (h : findLastValue items i = some last) :
    decodeSparse items i f.storageType f.itemsType = (fromPayload f.storageType f.itemsType last).toOption := by
  rw [decodeSparse, h]

/-- What is written is what authorization sees exactly when a field beyond those that are tracked is not
given different values. -/
theorem seenIsStored_iff (h : decodeColumnsFromPairs constraints t (.arr items) = .ok columns) :
    SeenIsStored t items columns ↔ RepeatsAgree t items := by
  constructor
  · intro hstored i f hi hf first hfirst last hlast
    obtain ⟨v, hv, c, hc, hindex, hbefore⟩ := last_decodes h hf hlast
    have hset := updatedValue_eq h hf
    rw [if_neg (not_lt.mpr hi), hfirst, Option.bind_some] at hset
    let row : Row := ⟨0, 0, none, List.replicate t.userFields.length .nil, 0, 0⟩
    have hrow : row.fields.length = t.userFields.length := length_replicate
    have huser : firstUserFieldIndex ≤ i := hindex ▸ c.user
    have hupdated := hstored.updated row 0 hrow i f huser hbefore hf
    rw [updatedRecord_userField row 0 hrow huser hbefore, hlast, decodeSparse_of_last hlast, hv] at hupdated
    cases hfind : columns.reverse.find? (·.index = i) with
    | none =>
      exact absurd (decide_eq_true hindex) (find?_eq_none.mp hfind c (mem_reverse.mpr hc))
    | some c' =>
      rw [hfind] at hset hupdated
      cases hdecoded : fromPayload f.storageType f.itemsType first with
      | error e =>
        rw [hdecoded] at hset
        cases hset
      | ok w =>
        rw [hdecoded] at hset
        cases hset
        cases hupdated
        exact hv.symm
  · intro hagree
    refine ⟨fun namespaceId docId ownerDocId createdAt i f hfirst hbefore hf => ?_, ?_, ?_⟩
    · rw [createdRecord_userField hfirst hbefore, decodeSparse_eq h hf]
    · intro row docId hlength i f huser hbefore hf
      rw [updatedRecord_userField row docId hlength huser hbefore, reverse_reverse]
      cases hlast : findLastValue items i with
      | none =>
        rw [column_of_absent h hlast]
        rfl
      | some last =>
        obtain ⟨v, hv, c, hc, hindex, -⟩ := last_decodes h hf hlast
        have hsparse := decodeSparse_eq h hf
        cases hfind : columns.find? (·.index = i) with
        | none => exact absurd (decide_eq_true hindex) (find?_eq_none.mp hfind c hc)
        | some c' =>
          rw [hsparse, hfind]
          rfl
    · intro row docId hlength i f huser hbefore hf
      have hset := updatedValue_eq h hf
      have hboth : (findFirstValue items i).isSome = (findLastValue items i).isSome :=
        findFirstValue_isSome
      rw [updatedRecord_userField row docId hlength huser hbefore]
      cases hlast : findLastValue items i with
      | none =>
        rw [hlast, Option.isSome_none, Option.isSome_eq_false_iff, Option.isNone_iff_eq_none] at hboth
        rw [hlast, hboth, ite_self, Option.bind_none, Option.map_eq_none_iff] at hset
        rw [hset]
        rfl
      | some last =>
        obtain ⟨v, hv, -⟩ := last_decodes h hf hlast
        rw [hlast, Option.isSome_some] at hboth
        obtain ⟨first, hfirst⟩ := Option.isSome_iff_exists.mp hboth
        have hvalue : (columns.reverse.find? (·.index = i)).map ColumnValue.value = some v := by
          rw [hset]
          split_ifs with hi
          · rw [hlast, Option.bind_some, hv]
            rfl
          · rw [hfirst, Option.bind_some, hagree i f (not_lt.mp hi) hf first hfirst last hlast, hv]
            rfl
        obtain ⟨c, hc, rfl⟩ := Option.map_eq_some_iff.mp hvalue
        rw [hc, decodeSparse_of_last hlast, hv]
        rfl

end Updates

namespace RepeatedFieldExample

/-- A text field named by as many letters as its position. -/
def column (i : ℕ) : Field := .plain (String.ofList (List.replicate (i + 1) 'x')) .text

lemma column_name_injective : Function.Injective fun i => (column i).name := by
  intro i j h
  have hlists := congrArg (fun s : String => s.toList.length) h
  simpa [column] using hlists

lemma system_name (h : f ∈ leadingSystemFields ++ trailingSystemFields) (i : ℕ) : f.name ≠ (column i).name := by
  intro hname
  have hhead := congrArg (fun s : String => s.toList.head?) hname
  have hsystem : ∀ g ∈ leadingSystemFields ++ trailingSystemFields, g.name.toList.head? ≠ some 'x' := by
    decide
  exact hsystem f h (by rw [hhead]; simp [column, replicate_succ])

/-- A table with as many fields as a schema may declare. -/
def wideTable : Table where
  name := "wide"
  userFields := (List.range 1024).map column
  fields_wellFormed := by
    intro f hf
    obtain ⟨i, -, rfl⟩ := mem_map.mp hf
    exact Field.plain_wellFormed (by decide)
  names_nodup := by
    have husers : (((List.range 1024).map column).map Field.name).Nodup := by
      rw [map_map]
      exact nodup_range.map column_name_injective
    have hsystem : ((leadingSystemFields ++ trailingSystemFields).map Field.name).Nodup := by decide
    have hperm : (leadingSystemFields ++ (List.range 1024).map column ++ trailingSystemFields).Perm
        ((List.range 1024).map column ++ (leadingSystemFields ++ trailingSystemFields)) := by
      rw [← List.append_assoc]
      exact perm_append_comm.append_right _
    rw [(hperm.map Field.name).nodup_iff, map_append]
    refine nodup_append.mpr ⟨husers, hsystem, fun name hname name' hname' heq => ?_⟩
    obtain ⟨f, hf, rfl⟩ := mem_map.mp hname
    obtain ⟨i, -, rfl⟩ := mem_map.mp hf
    obtain ⟨g, hg, rfl⟩ := mem_map.mp hname'
    exact system_name hg i heq.symm

/-- The last field but one is written twice. -/
def repeated : List Payload := [.uint 1024, .str [97], .uint 1024, .str [98]]

def repeatedColumns : List ColumnValue :=
  [⟨1024, Value.scalar (.text [98]), by decide⟩, ⟨1024, Value.scalar (.text [97]), by decide⟩]

lemma repeated_columns :
    decodeColumnsFromPairs (fun _ => none) wideTable (.arr repeated) = .ok repeatedColumns := by
  decide +kernel

/-- Authorization sees the last value, and an update stores the first. -/
theorem repeated_not_seen : decodeColumnsFromPairs (fun _ => none) wideTable (.arr repeated) =
    .ok repeatedColumns ∧ ¬SeenIsStored wideTable repeated repeatedColumns := by
  refine ⟨repeated_columns, fun hstored => ?_⟩
  have hagree := (seenIsStored_iff repeated_columns).mp hstored
  have hfield : wideTable.fields[1024]? = some (column 1021) := by decide +kernel
  have hvalues := hagree 1024 (column 1021) (le_refl _) hfield (.str [97]) rfl (.str [98]) rfl
  exact absurd hvalues (by decide)

theorem seenIsStored_page : SeenIsStored DocPredicate.AdmissionExample.pageTable CreateExample.page
    CreateExample.pageColumns := by
  refine (seenIsStored_iff CreateExample.page_columns).mpr fun i f hi hf => ?_
  obtain ⟨hlt, -⟩ := List.getElem?_eq_some_iff.mp hf
  have hlength : DocPredicate.AdmissionExample.pageTable.fields.length = 7 := rfl
  have hmax : maxStoreFields = 1024 := rfl
  omega

end RepeatedFieldExample

end ZyncBase
