import Mathlib.Data.List.Induction
import Mathlib.Logic.Function.Basic
import ZyncBase.Wire.Readers

/-! The fields of a message, taken from its bytes in one pass. The decoder of payloads is a parameter. -/
namespace ZyncBase

open Function List

namespace Wire

inductive FieldKind where
  | str | u64 | bool | payload
  deriving DecidableEq, Repr

structure Field where
  key : String
  kind : FieldKind
  field : String
  required : Bool
  deriving DecidableEq, Repr

/-- The key as it is compared with the bytes of a message. -/
def Field.keyBytes (f : Field) : Bytes := f.key.toUTF8.toList

/-- What is extracted from a message: no two keys are the same, and none share a field. -/
structure Table where
  fields : List Field
  keys_nodup : (fields.map Field.keyBytes).Nodup
  fields_nodup : (fields.map Field.field).Nodup

inductive FieldValue (P : Type) where
  | str (s : Bytes)
  | u64 (v : ℕ)
  | bool (v : Bool)
  | payload (p : P)

inductive ExtractError (ε : Type) where
  | wire (e : SkipError)
  | payload (e : ε)
  | missingRequiredFields
  | invalidWriteAck

/-- The slots of the fields; one without a value is null, or not yet found. -/
abbrev Request (P : Type) := String → Option (FieldValue P)

section Model

variable {ε P : Type} (decodeConsumed : Bytes → Except ε (P × ℕ)) (bytes : Bytes)

abbrev Extract (ε α : Type) := Except (ExtractError ε) α

def readSubtree (pos : ℕ) : Extract ε (P × ℕ) := do
  let left ← (slice bytes pos bytes.length).mapError .wire
  let (p, consumed) ← (decodeConsumed left).mapError .payload
  return (p, ← (add pos consumed).mapError .wire)

def readField (kind : FieldKind) (pos : ℕ) : Extract ε (FieldValue P × ℕ) :=
  match kind with
  | .str => do let (s, pos) ← (readStr bytes pos).mapError .wire; return (.str s, pos)
  | .u64 => do let (v, pos) ← (readU64 bytes pos).mapError .wire; return (.u64 v, pos)
  | .bool => do let (v, pos) ← (readBool bytes pos).mapError .wire; return (.bool v, pos)
  | .payload => do let (p, pos) ← readSubtree decodeConsumed bytes pos; return (.payload p, pos)

/-- The value of a key is put into the slot of its field. -/
def assignField (f : Field) (request : Request P) (pos : ℕ) : Extract ε (Request P × ℕ) := do
  let (v, pos) ← readField decodeConsumed bytes f.kind pos
  return (Function.update request f.field (some v), pos)

variable (table : Table)

/-- What is behind a key: it is assigned, or walked over if the key is not known. -/
def extractEntry (key : Bytes) (request : Request P) (pos : ℕ) : Extract ε (Request P × ℕ) :=
  match table.fields.find? (·.keyBytes = key) with
  | some f => assignField decodeConsumed bytes f request pos
  | none => do return (request, ← (skipValue bytes pos).mapError .wire)

def extractEntries : ℕ → Request P → ℕ → Extract ε (Request P × ℕ)
  | 0, request, pos => .ok (request, pos)
  | n + 1, request, pos => do
    let (key, pos) ← (readStr bytes pos).mapError .wire
    let (request, pos) ← extractEntry decodeConsumed bytes table key request pos
    extractEntries n request pos

def Table.complete (request : Request P) : Bool :=
  table.fields.all fun f => !f.required || (request f.field).isSome

def extractMap : Extract ε (Request P) := do
  let (len, pos) ← (readMapHeader bytes 0).mapError .wire
  let (request, _) ← extractEntries decodeConsumed bytes table len (fun _ => none) pos
  if table.complete request then return request
  else .error .missingRequiredFields

end Model

section Reference

variable {ε P : Type}

/-- What is assumed of the decoder of payloads: it decodes one value at the front of the bytes, says how
many they are, and does not look behind it. -/
structure Decodes (decodeConsumed : Bytes → Except ε (P × ℕ)) : Prop where
  formatted : ∀ {b p n}, decodeConsumed b = .ok (p, n) →
    ∃ item rest t, b = item ++ rest ∧ item.length = n ∧ Formatted t item
  behind : ∀ {item p} rest rest', decodeConsumed (item ++ rest) = .ok (p, item.length) →
    decodeConsumed (item ++ rest') = .ok (p, item.length)

/-- A key and what is behind it; a value is kept if the key is known. -/
structure Entry (P : Type) where
  key : Bytes
  value : Option (FieldValue P)
  bytes : Bytes

variable (decodeConsumed : Bytes → Except ε (P × ℕ)) (table : Table)

def FieldFormat (kind : FieldKind) (v : FieldValue P) (b : Bytes) : Prop :=
  match kind with
  | .str => ∃ s, v = .str s ∧ StrFormat s b
  | .u64 => ∃ n, v = .u64 n ∧ U64Format n b
  | .bool => ∃ x, v = .bool x ∧ BoolFormat x b
  | .payload => ∃ p, v = .payload p ∧ decodeConsumed b = .ok (p, b.length)

def Table.find (key : Bytes) : Option Field := table.fields.find? (·.keyBytes = key)

def ValueFormat (key : Bytes) (value : Option (FieldValue P)) (b : Bytes) : Prop :=
  match table.find key with
  | some f => ∃ v, value = some v ∧ FieldFormat decodeConsumed f.kind v b
  | none => value = none ∧ ∃ t, Formatted t b ∧ t.enclosure ≤ 32

def Entry.Format (e : Entry P) : Prop :=
  ∃ first second, e.bytes = first ++ second ∧ StrFormat e.key first ∧
    ValueFormat decodeConsumed table e.key e.value second

def MapOf (entries : List (Entry P)) (item : Bytes) : Prop :=
  ∃ header, MapFormat entries.length header ∧ item = header ++ entries.flatMap Entry.bytes ∧
    ∀ e ∈ entries, e.Format decodeConsumed table

/-- The entries of a message as a map: a later value takes the place of an earlier one. -/
def decoded (entries : List (Entry P)) : Bytes → Option (FieldValue P) :=
  entries.foldl (fun m e => Function.update m e.key e.value) fun _ => none

def Table.view (m : Bytes → Option (FieldValue P)) : Request P := fun field =>
  (table.fields.find? (·.field = field)).bind fun f => m f.keyBytes

def assign (request : Request P) (key : Bytes) (value : Option (FieldValue P)) : Request P :=
  match table.find key with
  | some f => Function.update request f.field value
  | none => request

lemma Table.view_field {f : Field} (hf : f ∈ table.fields) (m : Bytes → Option (FieldValue P)) :
    table.view m f.field = m f.keyBytes := by
  unfold Table.view
  cases hfind : table.fields.find? (·.field = f.field) with
  | none => simpa using find?_eq_none.mp hfind f hf
  | some g =>
    have hg := mem_of_find?_eq_some hfind
    have hname : g.field = f.field := by simpa using find?_some hfind
    rw [inj_on_of_nodup_map table.fields_nodup hg hf hname, Option.bind_some]

lemma assign_view (m : Bytes → Option (FieldValue P)) (key : Bytes) (value : Option (FieldValue P)) :
    assign table (table.view m) key value = table.view (update m key value) := by
  unfold assign
  cases hkey : table.find key with
  | none =>
    have hnone := find?_eq_none.mp hkey
    change table.view m = _
    funext field
    unfold Table.view
    cases hfield : table.fields.find? (·.field = field) with
    | none => rfl
    | some f =>
      have hne := hnone f (mem_of_find?_eq_some hfield)
      rw [Option.bind_some, Option.bind_some, update_of_ne (by simpa using hne)]
  | some f =>
    have hf := mem_of_find?_eq_some hkey
    obtain rfl : f.keyBytes = key := by simpa using find?_some hkey
    change update (table.view m) f.field value = _
    funext field
    by_cases hfield : field = f.field
    · rw [hfield, update_self, table.view_field hf, update_self]
    · rw [update_of_ne hfield]
      unfold Table.view
      cases hfind : table.fields.find? (·.field = field) with
      | none => rfl
      | some g =>
        have hg := mem_of_find?_eq_some hfind
        have hname : g.field = field := by simpa using find?_some hfind
        have hne : g.keyBytes ≠ f.keyBytes := fun heq =>
          hfield (hname ▸ congrArg Field.field (inj_on_of_nodup_map table.keys_nodup hg hf heq))
        rw [Option.bind_some, Option.bind_some, update_of_ne hne]

lemma foldl_assign (entries : List (Entry P)) : entries.foldl (fun r e => assign table r e.key e.value)
    (fun _ => none) = table.view (decoded entries) := by
  have hview (m : Bytes → Option (FieldValue P)) :
      entries.foldl (fun r e => assign table r e.key e.value) (table.view m) =
        table.view (entries.foldl (fun m e => update m e.key e.value) m) := by
    induction entries generalizing m with
    | nil => rfl
    | cons e entries ih => rw [foldl_cons, foldl_cons, assign_view, ih]
  have hnone : table.view (fun _ => (none : Option (FieldValue P))) = fun _ => none := by
    funext field
    unfold Table.view
    cases table.fields.find? (·.field = field) <;> rfl
  rw [decoded, ← hview, hnone]

lemma decoded_isSome {entries : List (Entry P)} (h : ∀ e ∈ entries, e.Format decodeConsumed table)
    {f : Field} (hf : f ∈ table.fields) :
    (decoded entries f.keyBytes).isSome ↔ ∃ e ∈ entries, e.key = f.keyBytes := by
  induction entries using List.reverseRecOn with
  | nil => simp [decoded]
  | append_singleton entries e ih =>
    have hstep : decoded (entries ++ [e]) = update (decoded entries) e.key e.value := by
      rw [decoded, foldl_append, foldl_cons, foldl_nil, ← decoded]
    have hih := ih fun e he => h e (mem_append_left _ he)
    obtain ⟨-, second, -, -, hvalue⟩ := h e (mem_append_right _ mem_cons_self)
    rw [hstep]
    by_cases hkey : e.key = f.keyBytes
    · have hsome : e.value.isSome := by
        cases hfind : table.find e.key with
        | none => exact absurd hkey.symm (by simpa using find?_eq_none.mp hfind f hf)
        | some g =>
          rw [ValueFormat, hfind] at hvalue
          obtain ⟨v, hv, -⟩ := hvalue
          rw [hv]
          rfl
      rw [hkey, update_self]
      exact iff_of_true hsome ⟨e, mem_append_right _ mem_cons_self, hkey⟩
    · rw [update_of_ne (Ne.symm hkey), hih]
      constructor
      · rintro ⟨e', he', hkey'⟩
        exact ⟨e', mem_append_left _ he', hkey'⟩
      · rintro ⟨e', he', hkey'⟩
        obtain he' | he' := mem_append.mp he'
        · exact ⟨e', he', hkey'⟩
        · exact absurd (mem_singleton.mp he' ▸ hkey') hkey

end Reference

section Wellformed

variable {ε P : Type} {decodeConsumed : Bytes → Except ε (P × ℕ)} {table : Table}

lemma StrFormat.formatted {s b : Bytes} (h : StrFormat s b) : Formatted .leaf b := by
  obtain ⟨hs, rfl⟩ | ⟨k, hk, hs, rfl⟩ := h
  · exact .fixstr hs
  · exact .str hk hs

lemma FieldFormat.formatted (hdecode : Decodes decodeConsumed) {kind : FieldKind} {v : FieldValue P}
    {b : Bytes} (h : FieldFormat decodeConsumed kind v b) : ∃ t, Formatted t b := by
  cases kind with
  | str =>
    obtain ⟨s, -, h⟩ := h
    exact ⟨.leaf, h.formatted⟩
  | u64 =>
    obtain ⟨n, -, ⟨hn, rfl⟩ | ⟨k, hk, -, rfl⟩⟩ := h
    · exact ⟨.leaf, .positiveFixint hn⟩
    · exact ⟨.leaf, .uint hk (BigEndian.bytes_length _ _)⟩
  | bool =>
    obtain ⟨x, -, rfl⟩ := h
    exact ⟨.leaf, .bool x⟩
  | payload =>
    obtain ⟨p, -, h⟩ := h
    obtain ⟨item, rest, t, rfl, hlength, ht⟩ := hdecode.formatted h
    rw [length_append, left_eq_add] at hlength
    rw [length_eq_zero_iff.mp hlength, append_nil]
    exact ⟨t, ht⟩

lemma Entry.Format.formatted (hdecode : Decodes decodeConsumed) {e : Entry P}
    (h : e.Format decodeConsumed table) :
    ∃ first second t, e.bytes = first ++ second ∧ Formatted .leaf first ∧ Formatted t second := by
  obtain ⟨first, second, heq, hfirst, hvalue⟩ := h
  have hsecond : ∃ t, Formatted t second := by
    unfold ValueFormat at hvalue
    split at hvalue
    · obtain ⟨v, -, hv⟩ := hvalue
      exact hv.formatted hdecode
    · obtain ⟨-, t, ht, -⟩ := hvalue
      exact ⟨t, ht⟩
  obtain ⟨t, ht⟩ := hsecond
  exact ⟨first, second, t, heq, hfirst.formatted, ht⟩

lemma MapOf.formatted (hdecode : Decodes decodeConsumed) {entries : List (Entry P)} {item : Bytes}
    (h : MapOf decodeConsumed table entries item) : ∃ t, Formatted t item := by
  obtain ⟨header, hheader, rfl, hentries⟩ := h
  have hitems : ∃ items : List (Shape × Bytes), items.length = 2 * entries.length ∧
      (∀ item ∈ items, Formatted item.1 item.2) ∧ entries.flatMap Entry.bytes = items.flatMap Prod.snd := by
    clear hheader
    induction entries with
    | nil => exact ⟨[], rfl, nofun, rfl⟩
    | cons e entries ih =>
      obtain ⟨he, hentries⟩ := forall_mem_cons.mp hentries
      obtain ⟨first, second, t, heq, hfirst, hsecond⟩ := he.formatted hdecode
      obtain ⟨items, hlength, hitems, hbytes⟩ := ih hentries
      refine ⟨(.leaf, first) :: (t, second) :: items, ?_, ?_, ?_⟩
      · simp only [length_cons, hlength]
        omega
      · exact forall_mem_cons.mpr ⟨hfirst, forall_mem_cons.mpr ⟨hsecond, hitems⟩⟩
      · simp only [flatMap_cons, heq, hbytes, append_assoc]
  obtain ⟨items, hlength, hitems, hbytes⟩ := hitems
  rw [hbytes]
  obtain ⟨hn, rfl⟩ | ⟨k, hk, hn, rfl⟩ := hheader
  · exact ⟨_, .fixmap hn hlength hitems⟩
  · exact ⟨_, .map hk hn hlength hitems⟩

end Wellformed

section Extraction

variable {ε P : Type} {decodeConsumed : Bytes → Except ε (P × ℕ)} (hdecode : Decodes decodeConsumed)
  {bytes : Bytes} (hbytes : bytes.length + 2 ^ 32 < 2 ^ 64)

lemma wire_injective : Function.Injective (ExtractError.wire (ε := ε)) :=
  fun _ _ h => ExtractError.wire.inj h

lemma Skips.reads {pos : ℕ} {kind : Bytes → Prop} {walk : Skip ℕ} {α : Type} (h : Skips bytes pos kind walk)
    (a : α) : Reads (ExtractError.wire (ε := ε) .trap) bytes pos (fun c b => c = a ∧ kind b)
      (walk.mapError .wire >>= fun stop => .ok (a, stop)) := by
  cases hwalk : walk with
  | error e =>
    rw [hwalk] at h
    exact ⟨fun he => h.safe (congrArg _ (wire_injective (Except.error.inj he))), fun c stop =>
      ⟨nofun, fun ⟨item, rest, hdrop, hstop, _, hitem⟩ =>
        nomatch (h.ok_iff stop).mpr ⟨item, rest, hdrop, hstop, hitem⟩⟩⟩
  | ok next =>
    rw [hwalk] at h
    refine ⟨nofun, fun c stop => ⟨?_, ?_⟩⟩
    · rintro ⟨⟩
      obtain ⟨item, rest, hdrop, hstop, hitem⟩ := (h.ok_iff next).mp rfl
      exact ⟨item, rest, hdrop, hstop, rfl, hitem⟩
    · rintro ⟨item, rest, hdrop, hstop, rfl, hitem⟩
      obtain rfl := Except.ok.inj ((h.ok_iff stop).mpr ⟨item, rest, hdrop, hstop, hitem⟩)
      rfl

include hdecode in
lemma reads_subtree {pos : ℕ} (hpos : pos ≤ bytes.length) (hbytes : bytes.length < 2 ^ 64) :
    Reads (.wire .trap) bytes pos (fun p b => decodeConsumed b = .ok (p, b.length))
      (readSubtree decodeConsumed bytes pos) := by
  have hslice : slice bytes pos bytes.length = .ok (bytes.drop pos) := by
    rw [slice, if_pos ⟨hpos, le_rfl⟩, take_of_length_le (by rw [length_drop])]
  unfold readSubtree
  rw [hslice]
  change Reads _ _ _ _ ((decodeConsumed (bytes.drop pos)).mapError ExtractError.payload >>= fun (p, n) => do
    return (p, ← (add pos n).mapError ExtractError.wire))
  cases hleft : decodeConsumed (bytes.drop pos) with
  | error e =>
    refine reads_error (fun he => by cases he) fun p item rest hdrop hitem => ?_
    have hok := hdecode.behind [] rest (by rwa [append_nil])
    rw [← hdrop, hleft] at hok
    cases hok
  | ok result =>
    obtain ⟨p, n⟩ := result
    obtain ⟨item, rest, t, hdrop, rfl, -⟩ := hdecode.formatted hleft
    have hle := length_drop_append hpos hdrop
    rw [hdrop] at hleft
    change Reads _ _ _ _ ((add pos item.length).mapError ExtractError.wire >>= fun stop => .ok (p, stop))
    rw [show add pos item.length = .ok (pos + item.length) from if_pos (by omega)]
    refine ⟨fun herror => (by cases herror), fun p' stop => ⟨?_, ?_⟩⟩
    · rintro ⟨⟩
      have hitem := hdecode.behind rest [] hleft
      rw [append_nil] at hitem
      exact ⟨item, rest, hdrop, rfl, hitem⟩
    · rintro ⟨item', rest', hdrop', rfl, hitem⟩
      have hok := hdecode.behind [] rest' (by rwa [append_nil])
      rw [← hdrop', hdrop, hleft, Except.ok.injEq, Prod.mk.injEq] at hok
      obtain ⟨rfl, hlength⟩ := hok
      rw [← hlength]
      rfl

section

variable {pos : ℕ} (hpos : pos ≤ bytes.length)
include hdecode hbytes hpos

lemma reads_field (kind : FieldKind) : Reads (.wire .trap) bytes pos (FieldFormat decodeConsumed kind)
    (readField decodeConsumed bytes kind pos) := by
  cases kind with
  | str => exact ((reads_str hpos hbytes).mapError wire_injective).map hpos FieldValue.str
  | u64 => exact ((reads_u64 hpos hbytes).mapError wire_injective).map hpos FieldValue.u64
  | bool => exact ((reads_bool hpos hbytes).mapError wire_injective).map hpos FieldValue.bool
  | payload => exact (reads_subtree hdecode hpos (by omega)).map hpos FieldValue.payload

variable (table : Table)

lemma reads_value (key : Bytes) (request : Request P) : Reads (.wire .trap) bytes pos
    (fun r b => ∃ value, r = assign table request key value ∧ ValueFormat decodeConsumed table key value b)
    (extractEntry decodeConsumed bytes table key request pos) := by
  unfold extractEntry assign ValueFormat
  cases hfind : table.find key with
  | some f =>
    rw [Table.find] at hfind
    rw [hfind]
    refine ((reads_field hdecode hbytes hpos f.kind).map hpos
      fun v => update request f.field (some v)).congr fun r b => ⟨?_, ?_⟩
    · rintro ⟨v, rfl, hv⟩
      exact ⟨some v, rfl, v, rfl, hv⟩
    · rintro ⟨_, rfl, v, rfl, hv⟩
      exact ⟨v, rfl, hv⟩
  | none =>
    rw [Table.find] at hfind
    rw [hfind]
    have hskip := skips_value (by omega) 33 hpos
    refine (hskip.reads request).congr fun r b => ⟨?_, ?_⟩
    · rintro ⟨rfl, t, ht, hlevels⟩
      exact ⟨none, rfl, rfl, t, ht, Nat.le_of_lt_succ hlevels⟩
    · rintro ⟨_, rfl, rfl, t, ht, hlevels⟩
      exact ⟨rfl, t, ht, Nat.lt_succ_of_le hlevels⟩

lemma reads_entries (n : ℕ) (request : Request P) : Reads (.wire .trap) bytes pos
    (fun r b => ∃ entries : List (Entry P), entries.length = n ∧ (∀ e ∈ entries, e.Format decodeConsumed table) ∧
      b = entries.flatMap Entry.bytes ∧ r = entries.foldl (fun r e => assign table r e.key e.value) request)
    (extractEntries decodeConsumed bytes table n request pos) := by
  induction n generalizing pos request with
  | zero =>
    refine (reads_pure request).congr fun r b => ⟨?_, ?_⟩
    · rintro ⟨rfl, rfl⟩
      exact ⟨[], rfl, nofun, rfl, rfl⟩
    · rintro ⟨entries, hlength, -, rfl, rfl⟩
      rw [length_eq_zero_iff.mp hlength]
      exact ⟨rfl, rfl⟩
  | succ n ih =>
    have hkey := (reads_str hpos hbytes).mapError (wire_injective (ε := ε))
    refine (hkey.bind hpos fun key stop _ hstop => (reads_value hdecode hbytes hstop table key request).bind hstop
      fun r stop _ hstop => ih hstop r).congr fun r b => ⟨?_, ?_⟩
    · rintro ⟨key, first, _, rfl, hfirst, _, second, _, rfl, ⟨value, rfl, hvalue⟩, entries, rfl, h, rfl, rfl⟩
      refine ⟨⟨key, value, first ++ second⟩ :: entries, rfl, ?_, ?_, rfl⟩
      · exact forall_mem_cons.mpr ⟨⟨first, second, rfl, hfirst, hvalue⟩, h⟩
      · rw [flatMap_cons, append_assoc]
    · rintro ⟨entries, hlength, h, rfl, rfl⟩
      cases entries with
      | nil => cases hlength
      | cons e entries =>
        obtain ⟨⟨first, second, hbytes, hfirst, hvalue⟩, hentries⟩ := forall_mem_cons.mp h
        refine ⟨e.key, first, second ++ entries.flatMap Entry.bytes, ?_, hfirst, _, second, _, rfl,
          ⟨e.value, rfl, hvalue⟩, entries, Nat.succ.inj hlength, hentries, rfl, rfl⟩
        rw [flatMap_cons, hbytes, append_assoc]

end

/-- The entries behind the header of a message. -/
def extractWalk {ε P : Type} (decodeConsumed : Bytes → Except ε (P × ℕ)) (bytes : Bytes) (table : Table) :
    Extract ε (Request P × ℕ) :=
  (readMapHeader bytes 0).mapError .wire >>= fun (len, pos) =>
    extractEntries decodeConsumed bytes table len (fun _ => none) pos

include hdecode hbytes

lemma reads_map (table : Table) : Reads (.wire .trap) bytes 0
    (fun r b => ∃ entries : List (Entry P), r = table.view (decoded entries) ∧ MapOf decodeConsumed table entries b)
    (extractWalk decodeConsumed bytes table) := by
  have hheader := (reads_mapHeader (Nat.zero_le _) hbytes).mapError (wire_injective (ε := ε))
  refine (hheader.bind (Nat.zero_le _) fun len stop _ hstop =>
    reads_entries hdecode hbytes hstop table len (fun _ => none)).congr fun r b => ⟨?_, ?_⟩
  · rintro ⟨_, header, _, rfl, hheader, entries, rfl, h, rfl, rfl⟩
    exact ⟨entries, foldl_assign table entries, header, hheader, rfl, h⟩
  · rintro ⟨entries, rfl, header, hheader, rfl, h⟩
    exact ⟨_, header, _, rfl, hheader, entries, rfl, h, rfl, (foldl_assign table entries).symm⟩

/-- A message is extracted without a trap. It is accepted exactly if it begins with a map whose known keys
have values that are right for them, the others being formatted values with at most 32 containers around
what is in them, and no required key is missing: the fields are those of the map. -/
lemma extractMap_ok_iff (table : Table) : extractMap decodeConsumed bytes table ≠ .error (.wire .trap) ∧
    ∀ request, extractMap decodeConsumed bytes table = .ok request ↔
      ∃ item rest entries, bytes = item ++ rest ∧ MapOf decodeConsumed table entries item ∧
        (∀ f ∈ table.fields, f.required → ∃ e ∈ entries, e.key = f.keyBytes) ∧
        request = table.view (decoded entries) := by
  have hwalk := reads_map hdecode hbytes table
  have hmap : extractMap decodeConsumed bytes table = extractWalk decodeConsumed bytes table >>= fun result =>
        if table.complete result.1 then .ok result.1
        else .error .missingRequiredFields := by
    unfold extractMap extractWalk
    cases (readMapHeader bytes 0).mapError (ExtractError.wire (ε := ε)) <;> rfl
  have hrequired {entries : List (Entry P)} (h : ∀ e ∈ entries, e.Format decodeConsumed table) :
      table.complete (table.view (decoded entries)) ↔
        ∀ f ∈ table.fields, f.required → ∃ e ∈ entries, e.key = f.keyBytes := by
    rw [Table.complete, all_eq_true]
    refine forall₂_congr fun f hf => ?_
    rw [table.view_field hf, ← decoded_isSome _ _ h hf]
    cases f.required <;> simp
  rw [hmap]
  cases hresult : extractWalk decodeConsumed bytes table with
  | error e =>
    rw [hresult] at hwalk
    refine ⟨fun he => hwalk.safe (congrArg _ (Except.error.inj he)), fun request => ⟨nofun, ?_⟩⟩
    rintro ⟨item, rest, entries, heq, hitem, -, rfl⟩
    exact nomatch (hwalk.ok_iff _ _).mpr ⟨item, rest, heq, rfl, entries, rfl, hitem⟩
  | ok result =>
    obtain ⟨request, stop⟩ := result
    rw [hresult] at hwalk
    obtain ⟨item, rest, heq, rfl, entries, rfl, hitem⟩ := (hwalk.ok_iff _ _).mp rfl
    have hall := hrequired hitem.choose_spec.2.2
    change (if table.complete _ then _ else _) ≠ _ ∧ ∀ r, (if table.complete _ then _ else _) = _ ↔ _
    refine ⟨by split_ifs <;> simp, fun r => ⟨?_, ?_⟩⟩
    · split_ifs with hfields
      · rintro ⟨⟩
        exact ⟨item, rest, entries, heq, hitem, hall.mp hfields, rfl⟩
      · nofun
    · rintro ⟨item', rest', entries', heq', hitem', hrequired', rfl⟩
      have hok := (hwalk.ok_iff _ _).mpr ⟨item', rest', heq', rfl, entries', rfl, hitem'⟩
      have hsame := (Prod.mk.inj (Except.ok.inj hok)).1
      dsimp only
      rw [hsame, if_pos ((hrequired hitem'.choose_spec.2.2).mpr hrequired')]

end Extraction

end Wire
end ZyncBase
