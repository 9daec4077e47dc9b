import ZyncBase.Lib.DoubleText
import ZyncBase.Sdk.DocIdBytes
import ZyncBase.Sql.SortOrder

/-! The order in which the client keeps the rows of a view, which mirrors the order of the server. -/
namespace ZyncBase.Sdk

open List PrefixCode Utf

section Comparator

structure SortEntry where
  parts : List String
  desc : Bool
  docId : Bool

def getDeepProperty : JsonValue → List String → Option JsonValue
  | current, [] => some current
  | .object entries, part :: parts => (entries.lookup part).bind (getDeepProperty · parts)
  | _, _ => none

/-- The first bytes that differ decide, else the lengths. -/
def compareBytes : Bytes → Bytes → Ordering
  | x :: xs, y :: ys => if x ≠ y then (if x < y then .lt else .gt) else compareBytes xs ys
  | xs, ys => if xs.length < ys.length then .lt else if ys.length < xs.length then .gt else .eq

def compareUtf8Bytes (a b : JsString) : Ordering := compareBytes (utf8 (characters a)) (utf8 (characters b))

def isUtf8LexicalFastPath (value : JsString) : Bool := value.all fun u => u.toNat < 0x800

def compareUtf8 (a b : JsString) : Ordering :=
  if isUtf8LexicalFastPath a && isUtf8LexicalFastPath b then compare a b else compareUtf8Bytes a b

def compareBooleans (a b : Bool) : Ordering := if a = b then .eq else if a then .gt else .lt

def compareNonNullValues : JsonValue → JsonValue → Ordering
  | .number a, .number b => a.order b
  | .boolean a, .boolean b => compareBooleans a b
  | .string a, .string b => compareUtf8 a b
  | _, _ => .eq

/-- A value that is there and not null. -/
def present : Option JsonValue → Option JsonValue
  | some .null => none
  | v => v

def compareSortEntry (entry : SortEntry) (a b : JsonValue) : Ordering :=
  match present (getDeepProperty a entry.parts), present (getDeepProperty b entry.parts) with
  | none, none => .eq
  | none, some _ => .gt
  | some _, none => .lt
  | some va, some vb =>
    let result := match entry.docId, va, vb with
      | true, .string a, .string b => compareDocIds a b
      | _, a, b => compareNonNullValues a b
    if entry.desc then result.swap else result

def compareRecords : List SortEntry → JsonValue → JsonValue → Ordering
  | [], _, _ => .eq
  | entry :: entries, a, b =>
    let result := compareSortEntry entry a b
    if result ≠ .eq then result else compareRecords entries a b

/-- Unless the last field is unique, `created_at` is compared after it. -/
def closeEntries (entries : List SortEntry) : List SortEntry :=
  let finalField := match entries.getLast?.map SortEntry.parts with
    | some [name] => some name
    | _ => none
  if finalField ≠ some "created_at" ∧ finalField ≠ some "id" then entries ++ [⟨["created_at"], false, false⟩]
  else entries

end Comparator

section Values

/-- A scalar of a type that the client can sort by, as the client has it. -/
inductive Shows : FieldType → ScalarValue → JsonValue → Prop
  | text (s : JsString) : Shows .text (.text (utf8 (characters s))) (.string s)
  | docId {id packed x} (hp : packDocId id = some packed) (hx : docIdFromBytes packed = .ok x) :
      Shows .docId (.docId x) (.string id)
  | integer {i : ℤ} {r : Real64} (h : r.scaled = i * 2 ^ 1074) : Shows .integer (.integer i) (.number r)
  | real (r : Real64) : Shows .real (.real r) (.number r)
  | boolean (b : Bool) : Shows .boolean (.boolean b) (.boolean b)

inductive ShowsValue (type : FieldType) : Value → Option JsonValue → Prop
  | missing : ShowsValue type .nil none
  | scalar {v shown} (h : Shows type v shown) : ShowsValue type (.scalar v) (some shown)

variable {type : FieldType} {v w : ScalarValue} {a b : JsonValue} {createdAtIndex : ℕ} {x y : JsonValue × Record}
  {entries : List SortEntry}

lemma compareBytes_eq (xs ys : Bytes) : compareBytes xs ys = compare xs ys := by
  induction xs generalizing ys with
  | nil => cases ys <;> simp [compareBytes]
  | cons x xs ih =>
    cases ys with
    | nil => simp [compareBytes]
    | cons y ys =>
      simp only [compareBytes, ih, List.compare_cons_cons, compare_byte, Nat.compare_eq_ite_lt, ne_eq,
        UInt8.lt_iff_toNat_lt, ← UInt8.toNat_inj]
      split_ifs <;> first | rfl | omega

lemma compareUtf8_eq (a b : JsString) : compareUtf8 a b = compare (utf8 (characters a)) (utf8 (characters b)) := by
  rw [compareUtf8, compareUtf8Bytes, compareBytes_eq]
  split_ifs with hfast
  · simp only [isUtf8LexicalFastPath, Bool.and_eq_true, all_eq_true, decide_eq_true_eq] at hfast
    rw [characters_eq_map hfast.1, characters_eq_map hfast.2, utf8, utf8, flatMap_map, flatMap_map]
    exact (compare_flatMap (fun _ => String.utf8EncodeChar_ne_nil) fun u hu v hv =>
      compare_encoded (hfast.1 u hu) (hfast.2 v hv)).symm
  · rfl

lemma scaled_eq (r : Real64) :
    r.scaled = if r.negative then -(DoubleText.units r.magnitude : ℤ) else DoubleText.units r.magnitude := by
  have hsize : (if r.magnitude / 2 ^ 52 = 0 then r.magnitude % 2 ^ 52
      else (2 ^ 52 + r.magnitude % 2 ^ 52) * 2 ^ (r.magnitude / 2 ^ 52 - 1)) = DoubleText.units r.magnitude := by
    rw [DoubleText.units]
    split_ifs <;> omega
  rw [Real64.scaled, hsize]

lemma compare_scaled (a b : Real64) : compare a.scaled b.scaled = compare a.key b.key := by
  have hmono {m n : ℕ} : DoubleText.units m < DoubleText.units n ↔ m < n := DoubleText.units_strictMono.lt_iff_lt
  have hzero : DoubleText.units 0 = 0 := rfl
  have := @hmono a.magnitude b.magnitude
  have := @hmono b.magnitude a.magnitude
  have := @hmono 0 a.magnitude
  have := @hmono 0 b.magnitude
  rw [scaled_eq, scaled_eq, Real64.key, Real64.key, Int.compare_eq_ite_lt, Int.compare_eq_ite_lt]
  split_ifs <;> first | rfl | omega

lemma compareDocIds_shown {a b : JsString} {pa pb : Bytes} {x y : DocId} (ha : packDocId a = some pa)
    (hx : docIdFromBytes pa = .ok x) (hb : packDocId b = some pb) (hy : docIdFromBytes pb = .ok y) :
    compareDocIds a b = compare x y := by
  obtain ⟨m, n, hm, hn, rfl, rfl, h⟩ := compareDocIds_packed ha hb
  obtain ⟨x', y', hx', hy', hxy⟩ := compare_docIdFromBytes hm hn
  cases hx.symm.trans hx'
  cases hy.symm.trans hy'
  rw [h, hxy]

lemma compareNonNullValues_eq (htype : type ≠ .docId)
    (ha : Shows type v a) (hb : Shows type w b) : compareNonNullValues a b = v.order w := by
  cases ha with
  | text s =>
    cases hb with
    | text s' => exact compareUtf8_eq s s'
  | docId => exact absurd rfl htype
  | integer h =>
    cases hb with
    | integer h' =>
      have hpos : (0 : ℤ) < 2 ^ 1074 := Int.pow_pos (by decide)
      rw [compareNonNullValues, Real64.order, ← compare_scaled, h, h', ScalarValue.order]
      generalize (2 : ℤ) ^ 1074 = k at hpos
      simp only [Int.compare_eq_ite_lt, Int.mul_lt_mul_right hpos]
  | real r =>
    cases hb with
    | real r' => rfl
  | boolean b =>
    cases hb with
    | boolean b' => cases b <;> cases b' <;> rfl

lemma compareSortEntry_eq {entry : SortEntry} {v w : Value} (hdocId : entry.docId = true ↔ type = .docId)
    (ha : ShowsValue type v (present (getDeepProperty a entry.parts)))
    (hb : ShowsValue type w (present (getDeepProperty b entry.parts))) :
    compareSortEntry entry a b = sortCompare entry.desc v w := by
  unfold compareSortEntry
  generalize present (getDeepProperty a entry.parts) = va at ha
  generalize present (getDeepProperty b entry.parts) = vb at hb
  cases ha with
  | missing =>
    cases hb with
    | missing => exact (sortCompare_nil _).symm
    | scalar => rfl
  | scalar ha =>
    cases hb with
    | missing => rfl
    | scalar hb =>
      rw [sortCompare_scalar]
      cases hentry : entry.docId with
      | false => rw [← compareNonNullValues_eq (by simp [← hdocId, hentry]) ha hb]
      | true =>
        cases hdocId.mp hentry
        obtain ⟨⟩ | ⟨hp, hx⟩ := ha
        obtain ⟨⟩ | ⟨hp', hx'⟩ := hb
        rw [ScalarValue.order, ← compareDocIds_shown hp hx hp' hx']

structure SortEntry.Mirrors (createdAtIndex : ℕ) (x y : JsonValue × Record) (e : SortEntry) (d : SortDescriptor) :
    Prop where
  desc : e.desc = d.desc
  named : isUniqueSort createdAtIndex d ↔ e.parts = ["created_at"] ∨ e.parts = ["id"]
  shown : ∃ type, (e.docId = true ↔ type = .docId) ∧
    ShowsValue type (x.2.value d.fieldIndex) (present (getDeepProperty x.1 e.parts)) ∧
    ShowsValue type (y.2.value d.fieldIndex) (present (getDeepProperty y.1 e.parts))

lemma compareRecords_eq {ds : List SortDescriptor} (h : Forall₂ (SortEntry.Mirrors createdAtIndex x y) entries ds) :
    compareRecords entries x.1 y.1 = recordOrder ds x.2 y.2 := by
  induction h with
  | nil => rfl
  | cons hhead _ ih =>
    obtain ⟨type, hdocId, hx, hy⟩ := hhead.shown
    rw [compareRecords, recordOrder, ← ih, ← hhead.desc, ← compareSortEntry_eq hdocId hx hy]
    cases compareSortEntry _ x.1 y.1 <;> rfl

lemma closeEntries_eq (entries : List SortEntry) : closeEntries entries =
    if entries.getLast?.any (fun e => e.parts = ["created_at"] ∨ e.parts = ["id"]) then entries
    else entries ++ [⟨["created_at"], false, false⟩] := by
  unfold closeEntries
  cases entries.getLast? with
  | none => simp
  | some e =>
    match hparts : e.parts with
    | [] | _ :: _ :: _ => simp [hparts]
    | [name] => simp [hparts]; split_ifs <;> tauto

/-- Two rows that show two records are in the order of the server for the comparator of a view. -/
theorem compareRecords_canonical {clauses orderBy : List SortDescriptor}
    (hclauses : Forall₂ (SortEntry.Mirrors createdAtIndex x y) entries clauses)
    (hcreated : SortEntry.Mirrors createdAtIndex x y ⟨["created_at"], false, false⟩ ⟨createdAtIndex, false⟩)
    (hcanonical : canonicalizeOrderBy clauses createdAtIndex = .ok orderBy) :
    compareRecords (closeEntries entries) x.1 y.1 = recordOrder orderBy x.2 y.2 := by
  have hlast : entries.getLast?.any (fun e => e.parts = ["created_at"] ∨ e.parts = ["id"]) =
      clauses.getLast?.any (isUniqueSort createdAtIndex) := by
    rw [getLast?_eq_head?_reverse, getLast?_eq_head?_reverse]
    have hreverse := rel_reverse hclauses
    generalize entries.reverse = es, clauses.reverse = cs at hreverse ⊢
    cases hreverse with
    | nil => rfl
    | cons h _ => exact Bool.eq_iff_iff.mpr (decide_eq_true_iff.trans h.named.symm)
  refine @compareRecords_eq createdAtIndex _ _ _ _ ?_
  rw [closeEntries_eq, hlast]
  unfold canonicalizeOrderBy at hcanonical
  split_ifs at hcanonical with hinner hclosed
  · cases hcanonical
    rwa [if_pos hclosed]
  · cases hcanonical
    rw [if_neg hclosed]
    exact rel_append hclauses (.cons hcreated .nil)

end Values

namespace ViewOrderExample

lemma zero_finite : 0 < 0x7FF0000000000000 := by decide

/-- A row of the client and its record, with a title and `created_at`. -/
def titled (title : JsString) : JsonValue × Record :=
  (.object [("title", .string title), ("created_at", .number ⟨false, 0, zero_finite⟩)],
    ⟨[.nil, .nil, .nil, .scalar (.text (utf8 (characters title))), .scalar (.integer 0)]⟩)

lemma titled_created (a b : JsString) :
    SortEntry.Mirrors 4 (titled a) (titled b) ⟨["created_at"], false, false⟩ ⟨4, false⟩ where
  desc := rfl
  named := by decide
  shown := ⟨.integer, by decide, .scalar (.integer (Int.zero_mul _).symm), .scalar (.integer (Int.zero_mul _).symm)⟩

theorem compareRecords_canonical_titled :
    compareRecords (closeEntries [⟨["title"], true, false⟩]) (titled [233]).1 (titled [97]).1 =
      recordOrder [⟨3, true⟩, ⟨4, false⟩] (titled [233]).2 (titled [97]).2 :=
  @compareRecords_canonical 4 (titled [233]) (titled [97]) [⟨["title"], true, false⟩] [⟨3, true⟩] _
    (.cons ⟨rfl, by decide, .text, by decide, .scalar (.text _), .scalar (.text _)⟩ .nil) (titled_created _ _) rfl

end ViewOrderExample

end ZyncBase.Sdk
