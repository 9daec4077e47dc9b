import ZyncBase.Sdk.DocIdBytes
import ZyncBase.Sdk.FieldNames

/-! The dictionary of a schema in the client: names and their indices, paths, values and records on the wire
and in the client. -/
namespace ZyncBase.Sdk

open AssocMap Outcome

inductive DictionaryError where
  | tableNotFound
  | fieldNotFound
  | invalidPath
  | invalidMessage
  | recordLength
  deriving DecidableEq, Repr

/-- A path in the client: the names behind the document id are segments of one field. -/
inductive LogicalPath where
  | empty
  | collection (table : String)
  | document (table : String) (id : JsString)
  | field (table : String) (id : JsString) (segment : String) (segments : List String)
  deriving DecidableEq

/-- A document id on the wire is bytes, or a text that is taken as it is. -/
inductive WireId where
  | bytes (id : Bytes)
  | text (id : JsString)
  deriving DecidableEq

inductive WirePath where
  | empty
  | collection (table : ℕ)
  | document (table : ℕ) (id : WireId)
  | field (table : ℕ) (id : WireId) (field : ℕ)
  deriving DecidableEq

/-- What a map from names to their positions gives that is filled from the left. -/
def indexIn (names : List String) (name : String) : Option ℕ :=
  names.zipIdx.foldl (fun found e => if e.1 = name then some e.2 else found) none

def packId (code : DictionaryError) (id : JsString) : Except DictionaryError Bytes :=
  match packDocId id with
  | some packed => .ok packed
  | none => .error code

def unpackId (bytes : Bytes) : Except DictionaryError JsString :=
  match unpackDocId bytes with
  | some id => .ok id
  | none => .error .invalidMessage

def isDocIdFlags (flags : ℕ) : Bool := flags / 2 % 2 = 1

def encodeItem : JsonValue → Except DictionaryError JsonValue
  | .string id => (packId .invalidMessage id).map .bytes
  | item => .ok item

def decodeItem : JsonValue → Except DictionaryError JsonValue
  | .bytes packed => (unpackId packed).map .string
  | item => .ok item

def mapItems (f : JsonValue → Except DictionaryError JsonValue) : JsonValue → Except DictionaryError JsonValue
  | .array items => (items.mapM f).map .array
  | value => f value

def encodeFieldValueWithFlags (flags : ℕ) (value : JsonValue) : Except DictionaryError JsonValue :=
  if isDocIdFlags flags then mapItems encodeItem value else .ok value

def decodeFieldValueWithFlags (flags : ℕ) (value : JsonValue) : Except DictionaryError JsonValue :=
  if isDocIdFlags flags then mapItems decodeItem value else .ok value

def fieldPath (name : String) : Option (List String) :=
  if DoubledSeparator.hasDouble '_' name.toList then some (splitFieldPath name) else none

def setField (result : Entries) (name : String) (value : JsonValue) : Entries :=
  match fieldPath name with
  | some path => setDeepProperty result path value
  | none => put eqKey name value result

structure SchemaDictionary where
  tables : List String
  fields : List (List String)
  fieldFlags : List (List ℕ)

namespace SchemaDictionary

variable (d : SchemaDictionary)

def getTableIndex (name : String) : Except DictionaryError ℕ :=
  match indexIn d.tables name with
  | some i => .ok i
  | none => .error .tableNotFound

def getFields (tableIndex : ℕ) : Except DictionaryError (List String) :=
  if d.tables.length ≤ tableIndex then .error .tableNotFound
  else
    match d.fields[tableIndex]? with
    | some fields => .ok fields
    | none => .error .tableNotFound

def getFieldIndex (tableIndex : ℕ) (fieldName : String) : Except DictionaryError ℕ :=
  match d.fields[tableIndex]? with
  | none => .error .tableNotFound
  | some fields =>
    match indexIn fields fieldName with
    | some i => .ok i
    | none => .error .fieldNotFound

def getTableName (index : ℕ) : Except DictionaryError String :=
  match d.tables[index]? with
  | some name => .ok name
  | none => .error .tableNotFound

def getFieldName (tableIndex fieldIndex : ℕ) : Except DictionaryError String := do
  let fields ← d.getFields tableIndex
  match fields[fieldIndex]? with
  | some name => .ok name
  | none => .error .fieldNotFound

def getFieldFlags (tableIndex fieldIndex : ℕ) : Except DictionaryError ℕ :=
  if d.tables.length ≤ tableIndex then .error .tableNotFound
  else
    match (d.fieldFlags[tableIndex]?).bind (·[fieldIndex]?) with
    | some flags => .ok flags
    | none => .error .fieldNotFound

def encodePath : LogicalPath → Except DictionaryError WirePath
  | .empty => .error .invalidPath
  | .collection table => do return .collection (← d.getTableIndex table)
  | .document table id => do
    let tableIndex ← d.getTableIndex table
    return .document tableIndex (.bytes (← packId .invalidPath id))
  | .field table id segment segments => do
    let tableIndex ← d.getTableIndex table
    let docId ← packId .invalidPath id
    return .field tableIndex (.bytes docId) (← d.getFieldIndex tableIndex (joinFieldPath (segment :: segments)))

def unpackWireId : WireId → Except DictionaryError JsString
  | .bytes packed => unpackId packed
  | .text id => .ok id

def decodePath : WirePath → Except DictionaryError LogicalPath
  | .empty => .error .invalidPath
  | .collection tableIndex => do return .collection (← d.getTableName tableIndex)
  | .document tableIndex id => do
    let table ← d.getTableName tableIndex
    return .document table (← unpackWireId id)
  | .field tableIndex id fieldIndex => do
    let table ← d.getTableName tableIndex
    let docId ← unpackWireId id
    match splitFieldPath (← d.getFieldName tableIndex fieldIndex) with
    | segment :: segments => return .field table docId segment segments
    | [] => return .document table docId

def encodeFieldValue (tableIndex fieldIndex : ℕ) (value : JsonValue) : Except DictionaryError JsonValue := do
  encodeFieldValueWithFlags (← d.getFieldFlags tableIndex fieldIndex) value

def decodeFieldValue (tableIndex fieldIndex : ℕ) (value : JsonValue) : Except DictionaryError JsonValue := do
  decodeFieldValueWithFlags (← d.getFieldFlags tableIndex fieldIndex) value

/-- The index and the value of each member, in its order. -/
def encodeValue (tableIndex : ℕ) (value : Entries) : Except DictionaryError (List (ℕ × JsonValue)) :=
  value.mapM fun e => do
    let fieldIndex ← d.getFieldIndex tableIndex e.1
    return (fieldIndex, ← d.encodeFieldValue tableIndex fieldIndex e.2)

def decodeRecord (tableIndex : ℕ) (wireRecord : List JsonValue) : Except DictionaryError Entries := do
  let fields ← d.getFields tableIndex
  if wireRecord.length ≠ fields.length then .error .recordLength
  else
    let flags := d.fieldFlags.getD tableIndex []
    let values ← wireRecord.zipIdx.mapM fun e => decodeFieldValueWithFlags (flags.getD e.2 0) e.1
    return (fields.zip values).foldl (fun result e => setField result e.1 e.2) []

end SchemaDictionary

open SchemaDictionary

section Indices

lemma indexIn_concat (names : List String) (last name : String) :
    indexIn (names ++ [last]) name = if last = name then some names.length else indexIn names name := by
  rw [indexIn, List.zipIdx_append, List.foldl_append]
  simp only [List.zipIdx_singleton, List.foldl_cons, List.foldl_nil, Nat.zero_add]
  rfl

lemma indexIn_eq_some {names : List String} (h : names.Nodup) {name : String} {i : ℕ} :
    indexIn names name = some i ↔ names[i]? = some name := by
  induction names using List.reverseRecOn with
  | nil => simp [indexIn]
  | append_singleton names last ih =>
    obtain ⟨hnames, -, hlast⟩ := List.nodup_append'.mp h
    rw [indexIn_concat]
    split_ifs with heq
    · subst heq
      constructor
      · rintro ⟨⟩
        exact List.getElem?_concat_length
      · intro hget
        obtain hlt | hge := Nat.lt_or_ge i names.length
        · rw [List.getElem?_append_left hlt] at hget
          exact absurd (List.mem_singleton_self last) (hlast (List.mem_of_getElem? hget))
        · obtain ⟨hi, -⟩ := List.getElem?_eq_some_iff.mp hget
          rw [List.length_append, List.length_singleton] at hi
          exact congrArg some (by omega)
    · rw [ih hnames]
      obtain hlt | hge := Nat.lt_or_ge i names.length
      · rw [List.getElem?_append_left hlt]
      · refine iff_of_false ?_ ?_
        · rw [List.getElem?_eq_none hge]
          exact nofun
        · rw [List.getElem?_append_right hge]
          cases hrest : i - names.length with
          | zero => simpa using heq
          | succ n => simp

end Indices

variable {v w : JsonValue}

section Values

def isBytes : JsonValue → Bool
  | .bytes _ => true
  | _ => false

def isString : JsonValue → Bool
  | .string _ => true
  | _ => false

def Without (kind : JsonValue → Bool) (value : JsonValue) : Prop :=
  kind value = false ∧ ∀ items, value = .array items → ∀ item ∈ items, kind item = false

lemma decodeItem_encodeItem (hv : isBytes v = false) (h : encodeItem v = .ok w) :
    decodeItem w = .ok v ∧ isString w = false := by
  cases v with
  | string id =>
    obtain ⟨packed, hpacked, rfl⟩ := map_eq_ok.mp h
    refine ⟨map_eq_ok.mpr ⟨id, ?_, rfl⟩, rfl⟩
    unfold packId at hpacked
    cases hpack : packDocId id with
    | none => rw [hpack] at hpacked; cases hpacked
    | some packed' =>
      rw [hpack] at hpacked
      cases hpacked
      rw [unpackId, unpack_of_pack hpack]
  | bytes => cases hv
  | null | boolean | number | array | object => cases h; exact ⟨rfl, rfl⟩

lemma encodeItem_decodeItem (hw : isString w = false) (h : decodeItem w = .ok v) :
    encodeItem v = .ok w ∧ isBytes v = false := by
  cases w with
  | bytes packed =>
    obtain ⟨id, hid, rfl⟩ := map_eq_ok.mp h
    refine ⟨map_eq_ok.mpr ⟨packed, ?_, rfl⟩, rfl⟩
    unfold unpackId at hid
    cases hunpack : unpackDocId packed with
    | none => rw [hunpack] at hid; cases hid
    | some id' =>
      rw [hunpack] at hid
      cases hid
      rw [packId, pack_of_unpack hunpack]
  | string => cases hw
  | null | boolean | number | array | object => cases h; exact ⟨rfl, rfl⟩

/-- What one function of items gives, another takes back. -/
structure TakenBack (f g : JsonValue → Except DictionaryError JsonValue) (kind kind' : JsonValue → Bool) :
    Prop where
  back : ∀ {v w}, kind v = false → f v = .ok w → g w = .ok v ∧ kind' w = false
  array : ∀ {v items}, f v = .ok (.array items) → v = .array items

lemma encode_takenBack : TakenBack encodeItem decodeItem isBytes isString where
  back := decodeItem_encodeItem
  array {v items} h := by
    cases v with
    | string id =>
      obtain ⟨_, -, heq⟩ := map_eq_ok.mp h
      cases heq
    | null | boolean | number | bytes | array | object => cases h <;> rfl

lemma decode_takenBack : TakenBack decodeItem encodeItem isString isBytes where
  back := encodeItem_decodeItem
  array {v items} h := by
    cases v with
    | bytes packed =>
      obtain ⟨_, -, heq⟩ := map_eq_ok.mp h
      cases heq
    | null | boolean | number | string | array | object => cases h <;> rfl

variable {f g : JsonValue → Except DictionaryError JsonValue} {kind kind' : JsonValue → Bool}

lemma TakenBack.items (h : TakenBack f g kind kind') {items items' : List JsonValue}
    (hitems : ∀ item ∈ items, kind item = false) (hmap : items.mapM f = .ok items') :
    items'.mapM g = .ok items ∧ ∀ item ∈ items', kind' item = false := by
  rw [mapM_eq_ok] at hmap ⊢
  induction hmap with
  | nil => exact ⟨.nil, nofun⟩
  | cons hfirst _ ih =>
    obtain ⟨hitem, hrest⟩ := List.forall_mem_cons.mp hitems
    obtain ⟨hback, hkind⟩ := h.back hitem hfirst
    obtain ⟨hbacks, hkinds⟩ := ih hrest
    exact ⟨.cons hback hbacks, List.forall_mem_cons.mpr ⟨hkind, hkinds⟩⟩

lemma mapItems_of_not_array (h : ∀ items, v ≠ .array items) : mapItems f v = f v := by
  cases v with
  | array items => exact absurd rfl (h items)
  | null | boolean | number | string | bytes | object => rfl

lemma TakenBack.value (h : TakenBack f g kind kind') (harray : ∀ items, kind' (.array items) = false)
    (hv : Without kind v) (hmap : mapItems f v = .ok w) : mapItems g w = .ok v ∧ Without kind' w := by
  by_cases hitems : ∃ items, v = .array items
  · obtain ⟨items, rfl⟩ := hitems
    obtain ⟨items', hmapped, rfl⟩ := map_eq_ok.mp hmap
    obtain ⟨hback, hkinds⟩ := h.items (hv.2 items rfl) hmapped
    refine ⟨map_eq_ok.mpr ⟨items, hback, rfl⟩, harray items', ?_⟩
    rintro _ ⟨⟩
    exact hkinds
  · rw [mapItems_of_not_array fun items heq => hitems ⟨items, heq⟩] at hmap
    obtain ⟨hback, hkind⟩ := h.back hv.1 hmap
    have hne : ∀ items, w ≠ .array items := by
      rintro items rfl
      exact hitems ⟨items, h.array hmap⟩
    rw [mapItems_of_not_array hne]
    exact ⟨hback, hkind, fun items heq => absurd heq (hne items)⟩

/-- A value of a document id field that has no bytes yet is decoded from what it is encoded as. -/
lemma decode_encode {flags : ℕ} (hv : isDocIdFlags flags → Without isBytes v)
    (h : encodeFieldValueWithFlags flags v = .ok w) :
    decodeFieldValueWithFlags flags w = .ok v ∧ (isDocIdFlags flags → Without isString w) := by
  unfold encodeFieldValueWithFlags at h
  unfold decodeFieldValueWithFlags
  split_ifs at h ⊢ with hflags
  · obtain ⟨hback, hkind⟩ := encode_takenBack.value (fun _ => rfl) (hv hflags) h
    exact ⟨hback, fun _ => hkind⟩
  · cases h
    exact ⟨rfl, fun hflags' => absurd hflags' hflags⟩

lemma encode_decode {flags : ℕ} (hw : isDocIdFlags flags → Without isString w)
    (h : decodeFieldValueWithFlags flags w = .ok v) :
    encodeFieldValueWithFlags flags v = .ok w ∧ (isDocIdFlags flags → Without isBytes v) := by
  unfold decodeFieldValueWithFlags at h
  unfold encodeFieldValueWithFlags
  split_ifs at h ⊢ with hflags
  · obtain ⟨hback, hkind⟩ := decode_takenBack.value (fun _ => rfl) (hw hflags) h
    exact ⟨hback, fun _ => hkind⟩
  · cases h
    exact ⟨rfl, fun hflags' => absurd hflags' hflags⟩

lemma decode_null (flags : ℕ) : decodeFieldValueWithFlags flags .null = .ok .null := by
  unfold decodeFieldValueWithFlags
  split_ifs <;> rfl

end Values

section Paths

/-- What the server sees to: names are distinct, each field has its flags, and no field is on the way to
another one. -/
structure SchemaDictionary.Valid (d : SchemaDictionary) : Prop where
  tables : d.tables.Nodup
  fields : d.fields.length = d.tables.length
  flags : ∀ i names, d.fields[i]? = some names → (d.fieldFlags.getD i []).length = names.length
  flagged : d.fieldFlags.length = d.fields.length
  paths : ∀ names ∈ d.fields, FieldPaths (names.map splitFieldPath)

variable {d : SchemaDictionary} (h : d.Valid)
include h

lemma SchemaDictionary.Valid.names {i : ℕ} {names : List String} (hnames : d.fields[i]? = some names) :
    names.Nodup := by
  have hpaths := (h.paths names (List.mem_of_getElem? hnames)).incomparable
  refine (List.pairwise_map.mp hpaths).imp fun {a b} hab heq => hab.1 ?_
  rw [heq]

lemma getTableIndex_eq_ok {name : String} {i : ℕ} :
    d.getTableIndex name = .ok i ↔ d.getTableName i = .ok name := by
  have hindex := @indexIn_eq_some _ h.tables name i
  unfold getTableIndex getTableName
  cases hfound : indexIn d.tables name <;> cases hget : d.tables[i]? <;> simp_all

lemma getFields_eq_ok {table : ℕ} {names : List String} :
    d.getFields table = .ok names ↔ d.fields[table]? = some names := by
  have hlength := h.fields
  unfold getFields
  split_ifs with hle
  · rw [List.getElem?_eq_none (by omega)]
    exact ⟨nofun, nofun⟩
  · cases d.fields[table]? <;> simp

lemma getFieldName_eq_ok {table i : ℕ} {name : String} : d.getFieldName table i = .ok name ↔
    ∃ names, d.fields[table]? = some names ∧ names[i]? = some name := by
  unfold getFieldName
  rw [bind_eq_ok]
  refine exists_congr fun names => and_congr (getFields_eq_ok h) ?_
  cases names[i]? <;> simp

lemma getFieldIndex_eq_ok {table i : ℕ} {name : String} :
    d.getFieldIndex table name = .ok i ↔ d.getFieldName table i = .ok name := by
  rw [getFieldName_eq_ok h]
  unfold getFieldIndex
  cases hnames : d.fields[table]? with
  | none => exact ⟨nofun, fun ⟨_, hnone, _⟩ => nomatch hnone⟩
  | some names =>
    have hindex := @indexIn_eq_some _ (h.names hnames) name i
    cases hfound : indexIn names name <;> simp_all

/-- The segments of a path as the client gets them from the name of the field. -/
def LogicalPath.split : LogicalPath → LogicalPath
  | .field table id segment segments =>
    match splitFieldPath (joinFieldPath (segment :: segments)) with
    | segment :: segments => .field table id segment segments
    | [] => .document table id
  | path => path

omit h in
lemma packId_eq_ok {code : DictionaryError} {id : JsString} {packed : Bytes} :
    packId code id = .ok packed ↔ unpackId packed = .ok id := by
  unfold packId unpackId
  constructor
  · intro hpack
    cases hid : packDocId id with
    | none => rw [hid] at hpack; cases hpack
    | some packed' => rw [hid] at hpack; cases hpack; rw [unpack_of_pack hid]
  · intro hunpack
    cases hid : unpackDocId packed with
    | none => rw [hid] at hunpack; cases hunpack
    | some id' => rw [hid] at hunpack; cases hunpack; rw [pack_of_unpack hid]

/-- A path is decoded from what it is encoded as, the segments of its field divided at every delimiter. -/
lemma decodePath_encodePath {path : LogicalPath} {wire : WirePath} (hwire : d.encodePath path = .ok wire) :
    d.decodePath wire = .ok path.split := by
  cases path with
  | empty => cases hwire
  | collection table =>
    obtain ⟨tableIndex, htable, hpure⟩ := bind_eq_ok.mp hwire
    cases hpure
    exact bind_eq_ok.mpr ⟨table, (getTableIndex_eq_ok h).mp htable, rfl⟩
  | document table id =>
    obtain ⟨tableIndex, htable, hrest⟩ := bind_eq_ok.mp hwire
    obtain ⟨packed, hpacked, hpure⟩ := bind_eq_ok.mp hrest
    cases hpure
    refine bind_eq_ok.mpr ⟨table, (getTableIndex_eq_ok h).mp htable, ?_⟩
    exact bind_eq_ok.mpr ⟨id, (packId_eq_ok).mp hpacked, rfl⟩
  | field table id segment segments =>
    obtain ⟨tableIndex, htable, hrest⟩ := bind_eq_ok.mp hwire
    obtain ⟨packed, hpacked, hrest⟩ := bind_eq_ok.mp hrest
    obtain ⟨fieldIndex, hfield, hpure⟩ := bind_eq_ok.mp hrest
    cases hpure
    refine bind_eq_ok.mpr ⟨table, (getTableIndex_eq_ok h).mp htable, ?_⟩
    refine bind_eq_ok.mpr ⟨id, (packId_eq_ok).mp hpacked, ?_⟩
    refine bind_eq_ok.mpr ⟨_, (getFieldIndex_eq_ok h).mp hfield, ?_⟩
    rw [LogicalPath.split]
    cases splitFieldPath (joinFieldPath (segment :: segments)) <;> rfl

/-- The document id of the path is bytes. -/
def WirePath.Packed : WirePath → Prop
  | .document _ (.text _) | .field _ (.text _) _ => False
  | _ => True

lemma encodePath_decodePath {path : LogicalPath} {wire : WirePath} (hpacked : wire.Packed)
    (hpath : d.decodePath wire = .ok path) : d.encodePath path = .ok wire := by
  cases wire with
  | empty => cases hpath
  | collection tableIndex =>
    obtain ⟨table, htable, hpure⟩ := bind_eq_ok.mp hpath
    cases hpure
    exact bind_eq_ok.mpr ⟨tableIndex, (getTableIndex_eq_ok h).mpr htable, rfl⟩
  | document tableIndex id =>
    cases id with
    | text id => exact hpacked.elim
    | bytes packed =>
      obtain ⟨table, htable, hrest⟩ := bind_eq_ok.mp hpath
      obtain ⟨id, hid, hpure⟩ := bind_eq_ok.mp hrest
      cases hpure
      refine bind_eq_ok.mpr ⟨tableIndex, (getTableIndex_eq_ok h).mpr htable, ?_⟩
      exact bind_eq_ok.mpr ⟨packed, (packId_eq_ok).mpr hid, rfl⟩
  | field tableIndex id fieldIndex =>
    cases id with
    | text id => exact hpacked.elim
    | bytes packed =>
      obtain ⟨table, htable, hrest⟩ := bind_eq_ok.mp hpath
      obtain ⟨id, hid, hrest⟩ := bind_eq_ok.mp hrest
      obtain ⟨name, hname, hrest⟩ := bind_eq_ok.mp hrest
      have hjoin := joinFieldPath_splitFieldPath name
      cases hsplit : splitFieldPath name with
      | nil =>
        have hnil := DoubledSeparator.split_ne_nil (c := '_') name.toList
        rw [splitFieldPath, List.map_eq_nil_iff] at hsplit
        exact absurd hsplit hnil
      | cons segment segments =>
        rw [hsplit] at hrest hjoin
        cases hrest
        refine bind_eq_ok.mpr ⟨tableIndex, (getTableIndex_eq_ok h).mpr htable, ?_⟩
        refine bind_eq_ok.mpr ⟨packed, (packId_eq_ok).mpr hid, ?_⟩
        refine bind_eq_ok.mpr ⟨fieldIndex, ?_, rfl⟩
        rw [hjoin]
        exact (getFieldIndex_eq_ok h).mpr hname

end Paths

end ZyncBase.Sdk
