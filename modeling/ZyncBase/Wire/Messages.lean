import ZyncBase.Typed.Json
import ZyncBase.Wire.Extract

/-! The extractors of the messages, and the short way of a ping. -/
namespace ZyncBase

open Function List Option

variable {id type : Option ℕ}

namespace Wire

section Model

variable {ε P : Type} (decodeConsumed : Bytes → Except ε (P × ℕ)) (bytes : Bytes)

/-- A message type with one required field. -/
def single (key : String) (kind : FieldKind) : Table where
  fields := [⟨key, kind, key, true⟩]
  keys_nodup := nodup_singleton _
  fields_nodup := nodup_singleton _

def emptyTable : Table := ⟨[], .nil, .nil⟩

def envelopeTable : Table :=
  ⟨[⟨"type", .u64, "type", true⟩, ⟨"id", .u64, "id", true⟩], by decide +kernel, by decide⟩

def extractEnvelopeFast : Extract ε (Request P) := extractMap decodeConsumed bytes envelopeTable

def storeSetNamespaceTable : Table := single "namespace" .str

def extractStoreSetNamespaceFast : Extract ε (Request P) :=
  extractMap decodeConsumed bytes storeSetNamespaceTable

def storeUnsubscribeTable : Table := single "subId" .u64

def extractStoreUnsubscribeFast : Extract ε (Request P) :=
  extractMap decodeConsumed bytes storeUnsubscribeTable

def storeLoadMoreTable : Table :=
  ⟨[⟨"subId", .u64, "subId", true⟩, ⟨"nextCursor", .str, "nextCursor", true⟩], by decide +kernel, by decide⟩

def extractStoreLoadMoreFast : Extract ε (Request P) := extractMap decodeConsumed bytes storeLoadMoreTable

def authRefreshTable : Table := single "token" .str

def extractAuthRefreshFast : Extract ε (Request P) := extractMap decodeConsumed bytes authRefreshTable

def presenceSetNamespaceTable : Table := single "namespace" .str

def extractPresenceSetNamespaceFast : Extract ε (Request P) :=
  extractMap decodeConsumed bytes presenceSetNamespaceTable

def presenceSetTable : Table := single "data" .payload

def extractPresenceSetFast : Extract ε (Request P) := extractMap decodeConsumed bytes presenceSetTable

def presenceUnsubscribeTable : Table := single "subId" .u64

def extractPresenceUnsubscribeFast : Extract ε (Request P) :=
  extractMap decodeConsumed bytes presenceUnsubscribeTable

def presenceSetSharedTable : Table := single "data" .payload

def extractPresenceSetSharedFast : Extract ε (Request P) :=
  extractMap decodeConsumed bytes presenceSetSharedTable

def extractPresenceSubscribeFast : Extract ε (Request P) := extractMap decodeConsumed bytes emptyTable

def extractPresenceSubscribeSharedFast : Extract ε (Request P) := extractMap decodeConsumed bytes emptyTable

def presenceUnsubscribeSharedTable : Table := single "subId" .u64

def extractPresenceUnsubscribeSharedFast : Extract ε (Request P) :=
  extractMap decodeConsumed bytes presenceUnsubscribeSharedTable

def extractPresenceRemoveFast : Extract ε (Request P) := extractMap decodeConsumed bytes emptyTable

def actionCallTable : Table :=
  ⟨[⟨"action_id", .u64, "action_id", true⟩, ⟨"timeoutMs", .u64, "timeoutMs", false⟩,
    ⟨"params", .payload, "params", true⟩], by decide +kernel, by decide⟩

def extractActionCallFast : Extract ε (Request P) := extractMap decodeConsumed bytes actionCallTable

def actionRegisterTable : Table := single "action_ids" .payload

def extractActionRegisterFast : Extract ε (Request P) := extractMap decodeConsumed bytes actionRegisterTable

def actionReplyTable : Table :=
  ⟨[⟨"execId", .u64, "execId", true⟩, ⟨"ok", .bool, "ok", true⟩, ⟨"payload", .payload, "payload", true⟩],
    by decide +kernel, by decide⟩

def extractActionReplyFast : Extract ε (Request P) := extractMap decodeConsumed bytes actionReplyTable

def committed : Bytes := "committed".toUTF8.toList

def decodeWriteAck (confirm writeId : Option Bytes) : Extract ε (Option Bytes) :=
  match confirm with
  | none => if writeId.isSome then .error .invalidWriteAck else .ok none
  | some confirm =>
    if confirm ≠ committed then if writeId.isSome then .error .invalidWriteAck else .ok none
    else
      match writeId with
      | none => .error .invalidWriteAck
      | some writeId =>
        if writeId.length ≠ 32 then .error .invalidWriteAck
        else
          match hexToBytes writeId with
          | .ok id => .ok (some id)
          | .error _ => .error .invalidWriteAck

def FieldValue.str? : FieldValue P → Option Bytes
  | .str s => some s
  | _ => none

def storePathTable : Table :=
  ⟨[⟨"path", .payload, "path", true⟩, ⟨"value", .payload, "value", false⟩,
    ⟨"confirm", .str, "confirm", false⟩, ⟨"writeId", .str, "write_id", false⟩], by decide +kernel, by decide⟩

def storeBatchTable : Table :=
  ⟨[⟨"ops", .payload, "ops", true⟩, ⟨"confirm", .str, "confirm", false⟩,
    ⟨"writeId", .str, "write_id", false⟩], by decide +kernel, by decide⟩

/-- The fields of a write, and the id by which it is acknowledged. -/
def extractWrite (table : Table) : Extract ε (Request P × Option Bytes) := do
  let raw ← extractMap decodeConsumed bytes table
  let writeId ← decodeWriteAck ((raw "confirm").bind (·.str?)) ((raw "write_id").bind (·.str?))
  return (raw, writeId)

def extractStorePathPayloads : Extract ε (Request P × Option Bytes) :=
  extractWrite decodeConsumed bytes storePathTable

def extractStoreBatchPayloads : Extract ε (Request P × Option Bytes) :=
  extractWrite decodeConsumed bytes storeBatchTable

structure Envelope where
  type : ℕ
  id : ℕ
  deriving DecidableEq, Repr

def pingType : ℕ := 2

/-- The entries of a ping, as far as they are not known to be another message. -/
def pingEntries : ℕ → Option ℕ → Option ℕ → ℕ → Skip (Option (Option ℕ × Option ℕ × ℕ))
  | 0, type, id, pos => .ok (some (type, id, pos))
  | n + 1, type, id, pos => do
    let (key, pos) ← readStr bytes pos
    let (value, pos) ← readU64 bytes pos
    if key = "type".toUTF8.toList then
      if type.isSome then return none else pingEntries n (some value) id pos
    else if key = "id".toUTF8.toList then
      if id.isSome then return none else pingEntries n type (some value) pos
    else return none

def extractMinimalPingEnvelope : Skip (Option Envelope) := do
  let (len, pos) ← readMapHeader bytes 0
  if len ≠ 2 then return none
  else
    match ← pingEntries bytes 2 none none pos with
    | none => return none
    | some (type, id, pos) =>
      if pos ≠ bytes.length ∨ type ≠ some pingType then return none
      else return id.map (Envelope.mk pingType)

/-- An error is caught, a trap is not. -/
def extractMinimalPingEnvelopeFast : Skip (Option Envelope) :=
  match extractMinimalPingEnvelope bytes with
  | .error .invalidMessageFormat | .error .maxDepthExceeded => .ok none
  | result => result

end Model

section Acknowledgements

/-- The id of an acknowledged write is 16 bytes, written in hexadecimal; other writes have none. -/
def Acked (confirm writeId result : Option Bytes) : Prop :=
  (confirm = some committed ∧ ∃ text id, writeId = some text ∧ text.length = 32 ∧ hexToBytes text = .ok id ∧
    result = some id) ∨ (confirm ≠ some committed ∧ writeId = none ∧ result = none)

lemma decodeWriteAck_ok_iff {ε : Type} (confirm writeId result : Option Bytes) :
    decodeWriteAck (ε := ε) confirm writeId = .ok result ↔ Acked confirm writeId result := by
  unfold decodeWriteAck Acked
  cases confirm with
  | none => cases writeId <;> simp [eq_comm]
  | some confirm =>
    by_cases hconfirm : confirm = committed
    · cases writeId with
      | none => simp [hconfirm]
      | some text =>
        by_cases hlength : text.length = 32
        · cases hid : hexToBytes text <;> simp [hconfirm, hlength, hid, eq_comm]
        · simp [hconfirm, hlength]
    · cases writeId <;> simp [hconfirm, eq_comm]

variable {ε P : Type} {decodeConsumed : Bytes → Except ε (P × ℕ)} {bytes : Bytes}

lemma extractWrite_ok_iff (table : Table) (request : Request P) (writeId : Option Bytes) :
    extractWrite decodeConsumed bytes table = .ok (request, writeId) ↔
      extractMap decodeConsumed bytes table = .ok request ∧
        Acked ((request "confirm").bind (·.str?)) ((request "write_id").bind (·.str?)) writeId := by
  unfold extractWrite
  cases extractMap decodeConsumed bytes table with
  | error e => exact ⟨nofun, fun h => nomatch h.1⟩
  | ok raw =>
    rw [Except.ok.injEq, ← decodeWriteAck_ok_iff (ε := ε)]
    change (decodeWriteAck _ _ >>= fun id => .ok (raw, id)) = _ ↔ _
    constructor
    · intro h
      cases hack : decodeWriteAck (ε := ε) ((raw "confirm").bind (·.str?)) ((raw "write_id").bind (·.str?)) with
      | error e => rw [hack] at h; cases h
      | ok id => rw [hack] at h; cases h; exact ⟨rfl, hack⟩
    · rintro ⟨rfl, hack⟩
      rw [hack]
      rfl

lemma extractWrite_safe {table : Table} (h : extractMap decodeConsumed bytes table ≠ .error (.wire .trap)) :
    extractWrite decodeConsumed bytes table ≠ .error (.wire .trap) := by
  unfold extractWrite
  cases hmap : extractMap decodeConsumed bytes table with
  | error e =>
    rintro ⟨⟩
    exact h hmap
  | ok raw =>
    change (decodeWriteAck _ _ >>= fun id => .ok (raw, id)) ≠ _
    unfold decodeWriteAck
    split
    · split_ifs <;> nofun
    · split_ifs
      · nofun
      · nofun
      · split
        · nofun
        · split_ifs
          · nofun
          · split <;> nofun

end Acknowledgements

section Ping

variable {ε P : Type} (decodeConsumed : Bytes → Except ε (P × ℕ)) {bytes : Bytes}

def envelopeRequest (type id : Option ℕ) : Request P := fun field =>
  if field = "type" then type.map .u64 else if field = "id" then id.map .u64 else none

lemma update_type (type id : Option ℕ) (v : ℕ) :
    update (envelopeRequest (P := P) type id) "type" (some (.u64 v)) = envelopeRequest (some v) id := by
  funext field
  unfold envelopeRequest
  by_cases hfield : field = "type"
  · rw [hfield, update_self]
    rfl
  · rw [update_of_ne hfield, if_neg hfield, if_neg hfield]

lemma update_id (type id : Option ℕ) (v : ℕ) :
    update (envelopeRequest (P := P) type id) "id" (some (.u64 v)) = envelopeRequest type (some v) := by
  funext field
  unfold envelopeRequest
  by_cases hfield : field = "id"
  · rw [hfield, update_self]
    rfl
  · rw [update_of_ne hfield, if_neg hfield, if_neg hfield]

lemma find_type : envelopeTable.find "type".toUTF8.toList = some ⟨"type", .u64, "type", true⟩ := by
  decide +kernel

lemma find_id : envelopeTable.find "id".toUTF8.toList = some ⟨"id", .u64, "id", true⟩ := by
  decide +kernel

variable {key : Bytes}

lemma find_other (htype : key ≠ "type".toUTF8.toList) (hid : key ≠ "id".toUTF8.toList) :
    envelopeTable.find key = none := by
  refine find?_eq_none.mpr fun f hf => ?_
  obtain rfl | hf := mem_cons.mp hf
  · simpa [Field.keyBytes] using htype.symm
  · obtain rfl := mem_singleton.mp hf
    simpa [Field.keyBytes] using hid.symm

lemma envelopeRequest_inj {type' id' : Option ℕ}
    (h : envelopeRequest (P := P) type id = envelopeRequest type' id') : type = type' ∧ id = id' := by
  have hu64 : Function.Injective (FieldValue.u64 (P := P)) := fun _ _ h => FieldValue.u64.inj h
  exact ⟨map_injective hu64 (congrFun h "type"), map_injective hu64 (congrFun h "id")⟩

/-- How many of the fields of an envelope are known. -/
def known (type id : Option ℕ) : ℕ := type.toList.length + id.toList.length

lemma extractEntry_type (type id : Option ℕ) (pos : ℕ) :
    extractEntry decodeConsumed bytes envelopeTable "type".toUTF8.toList (envelopeRequest type id) pos =
      (readU64 bytes pos).mapError .wire >>= fun (v, pos) => .ok (envelopeRequest (some v) id, pos) := by
  have hfind := find_type
  unfold Table.find at hfind
  rw [extractEntry, hfind]
  change (readField decodeConsumed bytes .u64 pos >>= _) = _
  rw [readField]
  cases readU64 bytes pos with
  | error e => rfl
  | ok result => exact congrArg (fun r => Except.ok (r, result.2)) (update_type type id result.1)

lemma extractEntry_id (type id : Option ℕ) (pos : ℕ) :
    extractEntry decodeConsumed bytes envelopeTable "id".toUTF8.toList (envelopeRequest type id) pos =
      (readU64 bytes pos).mapError .wire >>= fun (v, pos) => .ok (envelopeRequest type (some v), pos) := by
  have hfind := find_id
  unfold Table.find at hfind
  rw [extractEntry, hfind]
  change (readField decodeConsumed bytes .u64 pos >>= _) = _
  rw [readField]
  cases readU64 bytes pos with
  | error e => rfl
  | ok result => exact congrArg (fun r => Except.ok (r, result.2)) (update_id type id result.1)

lemma extractEntry_other (htype : key ≠ "type".toUTF8.toList) (hid : key ≠ "id".toUTF8.toList)
    (request : Request P) (pos : ℕ) : extractEntry decodeConsumed bytes envelopeTable key request pos =
      (skipValue bytes pos).mapError .wire >>= fun pos => .ok (request, pos) := by
  have hfind := find_other htype hid
  unfold Table.find at hfind
  rw [extractEntry, hfind]
  rfl

variable {pos : ℕ}

lemma extractEntry_cases {next : ℕ} {r : Request P}
    (h : extractEntry decodeConsumed bytes envelopeTable key (envelopeRequest type id) pos = .ok (r, next)) :
    (key = "type".toUTF8.toList ∧ ∃ v, readU64 bytes pos = .ok (v, next) ∧ r = envelopeRequest (some v) id) ∨
      (key = "id".toUTF8.toList ∧ ∃ v, readU64 bytes pos = .ok (v, next) ∧ r = envelopeRequest type (some v)) ∨
      (key ≠ "type".toUTF8.toList ∧ key ≠ "id".toUTF8.toList ∧ r = envelopeRequest type id) := by
  by_cases htype : key = "type".toUTF8.toList
  · rw [htype, extractEntry_type] at h
    cases hread : readU64 bytes pos with
    | error e => rw [hread] at h; cases h
    | ok result =>
      rw [hread] at h
      cases h
      exact .inl ⟨htype, result.1, rfl, rfl⟩
  by_cases hid : key = "id".toUTF8.toList
  · rw [hid, extractEntry_id] at h
    cases hread : readU64 bytes pos with
    | error e => rw [hread] at h; cases h
    | ok result =>
      rw [hread] at h
      cases h
      exact .inr (.inl ⟨hid, result.1, rfl, rfl⟩)
  · rw [extractEntry_other decodeConsumed htype hid] at h
    cases hskip : skipValue bytes pos with
    | error e => rw [hskip] at h; cases h
    | ok stop =>
      rw [hskip] at h
      cases h
      exact .inr (.inr ⟨htype, hid, rfl⟩)

lemma extractEntries_succ {table : Table} {n : ℕ} {request r : Request P} {stop : ℕ}
    (h : extractEntries decodeConsumed bytes table (n + 1) request pos = .ok (r, stop)) :
    ∃ key keyEnd request' next, readStr bytes pos = .ok (key, keyEnd) ∧
      extractEntry decodeConsumed bytes table key request keyEnd = .ok (request', next) ∧
      extractEntries decodeConsumed bytes table n request' next = .ok (r, stop) := by
  rw [extractEntries] at h
  cases hkey : readStr bytes pos with
  | error e => rw [hkey] at h; cases h
  | ok result =>
    obtain ⟨key, keyEnd⟩ := result
    rw [hkey] at h
    change (extractEntry decodeConsumed bytes table key request keyEnd >>= _) = _ at h
    cases hentry : extractEntry decodeConsumed bytes table key request keyEnd with
    | error e => rw [hentry] at h; cases h
    | ok result =>
      rw [hentry] at h
      exact ⟨key, keyEnd, result.1, result.2, rfl, hentry, h⟩

lemma extractEntries_known {n : ℕ} {r : Request P} {stop : ℕ}
    (h : extractEntries decodeConsumed bytes envelopeTable n (envelopeRequest type id) pos = .ok (r, stop)) :
    ∃ type' id', r = envelopeRequest type' id' ∧ known type' id' ≤ known type id + n := by
  induction n generalizing pos type id with
  | zero =>
    obtain ⟨rfl, -⟩ := Prod.mk.inj (Except.ok.inj h)
    exact ⟨type, id, rfl, le_rfl⟩
  | succ n ih =>
    obtain ⟨key, keyEnd, request, next, -, hentry, hentries⟩ := extractEntries_succ decodeConsumed h
    have hstep : ∃ type' id', request = envelopeRequest type' id' ∧ known type' id' ≤ known type id + 1 := by
      obtain ⟨-, v, -, rfl⟩ | ⟨-, v, -, rfl⟩ | ⟨-, -, rfl⟩ := extractEntry_cases decodeConsumed hentry
      · refine ⟨some v, id, rfl, ?_⟩
        cases type <;> simp [known]
        omega
      · refine ⟨type, some v, rfl, ?_⟩
        cases id <;> simp [known]
      · exact ⟨type, id, rfl, by omega⟩
    obtain ⟨type', id', rfl, hle⟩ := hstep
    obtain ⟨type'', id'', hr, hle'⟩ := ih hentries
    exact ⟨type'', id'', hr, by omega⟩

lemma pingEntries_value {n keyEnd v next : ℕ}
    (hkey : readStr bytes pos = .ok (key, keyEnd)) (hvalue : readU64 bytes keyEnd = .ok (v, next)) :
    pingEntries bytes (n + 1) type id pos =
      if key = "type".toUTF8.toList then
        if type.isSome then .ok none else pingEntries bytes n (some v) id next
      else if key = "id".toUTF8.toList then
        if id.isSome then .ok none else pingEntries bytes n type (some v) next
      else .ok none := by
  rw [pingEntries, hkey]
  change (readU64 bytes keyEnd >>= _) = _
  rw [hvalue]
  rfl

/-- The entries of a ping are extracted as those of an envelope, if each makes another field known. -/
lemma pingEntries_iff (n : ℕ) (type id type' id' : Option ℕ) (pos stop : ℕ) :
    pingEntries bytes n type id pos = .ok (some (type', id', stop)) ↔
      extractEntries decodeConsumed bytes envelopeTable n (envelopeRequest type id) pos =
        .ok (envelopeRequest type' id', stop) ∧ known type' id' = known type id + n := by
  induction n generalizing pos type id with
  | zero =>
    rw [pingEntries, extractEntries]
    constructor
    · rintro ⟨⟩
      exact ⟨rfl, rfl⟩
    · rintro ⟨h, -⟩
      obtain ⟨hrequest, rfl⟩ := Prod.mk.inj (Except.ok.inj h)
      obtain ⟨rfl, rfl⟩ := envelopeRequest_inj hrequest
      rfl
  | succ n ih =>
    constructor
    · intro h
      cases hkey : readStr bytes pos with
      | error e => rw [pingEntries, hkey] at h; cases h
      | ok result =>
        obtain ⟨key, keyEnd⟩ := result
        cases hvalue : readU64 bytes keyEnd with
        | error e =>
          rw [pingEntries, hkey] at h
          change (readU64 bytes keyEnd >>= _) = _ at h
          rw [hvalue] at h
          cases h
        | ok result =>
          obtain ⟨v, next⟩ := result
          rw [pingEntries_value hkey hvalue] at h
          rw [extractEntries, hkey]
          change (extractEntry decodeConsumed bytes envelopeTable key (envelopeRequest type id) keyEnd >>= _) = _ ∧ _
          by_cases htype : key = "type".toUTF8.toList
          · rw [if_pos htype] at h
            rw [htype, extractEntry_type, hvalue]
            cases type with
            | some _ => cases h
            | none =>
              obtain ⟨hentries, hknown⟩ := (ih (some v) id next).mp h
              refine ⟨hentries, ?_⟩
              rw [hknown]
              simp [known]
              omega
          by_cases hid : key = "id".toUTF8.toList
          · rw [if_neg htype, if_pos hid] at h
            rw [hid, extractEntry_id, hvalue]
            cases id with
            | some _ => cases h
            | none =>
              obtain ⟨hentries, hknown⟩ := (ih type (some v) next).mp h
              refine ⟨hentries, ?_⟩
              rw [hknown]
              simp [known]
              omega
          · rw [if_neg htype, if_neg hid] at h
            cases h
    · rintro ⟨h, hknown⟩
      obtain ⟨key, keyEnd, request, next, hkey, hentry, hentries⟩ := extractEntries_succ decodeConsumed h
      have hle {a b : Option ℕ} (hr : request = envelopeRequest a b) : known type' id' ≤ known a b + n := by
        rw [hr] at hentries
        obtain ⟨a', b', hr', hle⟩ := extractEntries_known decodeConsumed hentries
        obtain ⟨rfl, rfl⟩ := envelopeRequest_inj hr'
        exact hle
      -- Every entry has to make a field known that was not.
      obtain ⟨rfl, v, hvalue, rfl⟩ | ⟨rfl, v, hvalue, rfl⟩ | ⟨-, -, rfl⟩ :=
        extractEntry_cases decodeConsumed hentry
      · have hnew := hle rfl
        rw [pingEntries_value hkey hvalue, if_pos rfl]
        cases type with
        | some _ =>
          simp only [known, toList_some, length_singleton] at hnew hknown
          omega
        | none =>
          refine (ih (some v) id next).mpr ⟨hentries, ?_⟩
          simp only [known, toList_some, toList_none, length_singleton, length_nil] at *
          omega
      · have hnew := hle rfl
        rw [pingEntries_value hkey hvalue, if_neg (by decide +kernel), if_pos rfl]
        cases id with
        | some _ =>
          simp only [known, toList_some, length_singleton] at hnew hknown
          omega
        | none =>
          refine (ih type (some v) next).mpr ⟨hentries, ?_⟩
          simp only [known, toList_some, toList_none, length_singleton, length_nil] at *
          omega
      · have := hle rfl
        omega

lemma envelopeRequest_none : envelopeRequest (P := P) none none = fun _ => none := by
  funext field
  unfold envelopeRequest
  split_ifs <;> rfl

lemma pingEntries_safe (hbytes : bytes.length + 2 ^ 32 < 2 ^ 64) (n : ℕ) (hpos : pos ≤ bytes.length) :
    pingEntries bytes n type id pos ≠ .error .trap := by
  induction n generalizing pos type id with
  | zero => nofun
  | succ n ih =>
    cases hkey : readStr bytes pos with
    | error e =>
      rw [pingEntries, hkey]
      rintro ⟨⟩
      exact (reads_str hpos hbytes).safe hkey
    | ok result =>
      obtain ⟨key, keyEnd⟩ := result
      have hkeyEnd := (reads_str hpos hbytes).stop_le hpos hkey
      cases hvalue : readU64 bytes keyEnd with
      | error e =>
        rw [pingEntries, hkey]
        change (readU64 bytes keyEnd >>= _) ≠ _
        rw [hvalue]
        rintro ⟨⟩
        exact (reads_u64 hkeyEnd hbytes).safe hvalue
      | ok result =>
        obtain ⟨v, next⟩ := result
        have hnext := (reads_u64 hkeyEnd hbytes).stop_le hkeyEnd hvalue
        rw [pingEntries_value hkey hvalue]
        split_ifs
        · nofun
        · exact ih hnext
        · nofun
        · exact ih hnext
        · nofun

lemma extractMinimalPing_safe (hbytes : bytes.length + 2 ^ 32 < 2 ^ 64) :
    extractMinimalPingEnvelopeFast bytes ≠ .error .trap := by
  have hsafe : extractMinimalPingEnvelope bytes ≠ .error .trap := by
    unfold extractMinimalPingEnvelope
    have hheader := reads_mapHeader (Nat.zero_le bytes.length) hbytes
    cases hread : readMapHeader bytes 0 with
    | error e =>
      rintro ⟨⟩
      exact hheader.safe hread
    | ok result =>
      obtain ⟨len, pos⟩ := result
      have hping : pingEntries bytes 2 none none pos ≠ .error .trap := pingEntries_safe hbytes 2
        (hheader.stop_le (Nat.zero_le _) hread)
      change (if len ≠ 2 then _ else pingEntries bytes 2 none none pos >>= _) ≠ _
      split_ifs
      · nofun
      cases hentries : pingEntries bytes 2 none none pos with
      | error e =>
        rintro ⟨⟩
        exact hping hentries
      | ok result =>
        obtain _ | ⟨type, id, stop⟩ := result
        · nofun
        · change (if _ then _ else _) ≠ _
          split_ifs <;> nofun
  unfold extractMinimalPingEnvelopeFast
  split
  · nofun
  · nofun
  · exact hsafe

lemma extractMinimalPing_some_iff (envelope : Envelope) :
    extractMinimalPingEnvelopeFast bytes = .ok (some envelope) ↔ envelope.type = pingType ∧
      ∃ pos, readMapHeader bytes 0 = .ok (2, pos) ∧ pingEntries bytes 2 none none pos =
        .ok (some (some envelope.type, some envelope.id, bytes.length)) := by
  have hcaught : extractMinimalPingEnvelopeFast bytes = .ok (some envelope) ↔
      extractMinimalPingEnvelope bytes = .ok (some envelope) := by
    unfold extractMinimalPingEnvelopeFast
    split <;> simp [*]
  rw [hcaught]
  unfold extractMinimalPingEnvelope
  cases hheader : readMapHeader bytes 0 with
  | error e => exact ⟨nofun, fun ⟨_, _, h, _⟩ => nomatch h⟩
  | ok result =>
    obtain ⟨len, pos⟩ := result
    simp only [Except.ok.injEq, Prod.mk.injEq]
    by_cases hlen : len = 2
    · subst hlen
      cases hping : pingEntries bytes 2 none none pos with
      | error e => simp [bind, Except.bind, hping]
      | ok result =>
        obtain _ | ⟨type, id, stop⟩ := result
        · simp [bind, Except.bind, pure, Except.pure, hping]
        · obtain ⟨type', id'⟩ := envelope
          by_cases hstop : stop = bytes.length ∧ type = some pingType
          · obtain ⟨rfl, rfl⟩ := hstop
            cases id <;> simp [bind, Except.bind, pure, Except.pure, hping, eq_comm]
          · have hnone : stop ≠ bytes.length ∨ type ≠ some pingType := by tauto
            refine iff_of_false (by simp [bind, Except.bind, pure, Except.pure, hping, hnone]) ?_
            rintro ⟨rfl, p, ⟨-, rfl⟩, hentries⟩
            rw [hping] at hentries
            cases hentries
            exact hstop ⟨rfl, rfl⟩
    · simp [bind, Except.bind, pure, Except.pure, hlen]

/-- The short way of a ping is taken exactly by a map of nothing but its type and its id, with nothing
behind it. -/
lemma extractMinimalPing_iff (hdecode : Decodes decodeConsumed) (hbytes : bytes.length + 2 ^ 32 < 2 ^ 64)
    (envelope : Envelope) : extractMinimalPingEnvelopeFast bytes = .ok (some envelope) ↔
      envelope.type = pingType ∧ ∃ entries : List (Entry P), MapOf decodeConsumed envelopeTable entries bytes ∧
        entries.length = 2 ∧
        envelopeTable.view (decoded entries) = envelopeRequest (some envelope.type) (some envelope.id) := by
  rw [extractMinimalPing_some_iff]
  refine and_congr_right fun _ => ⟨?_, ?_⟩
  · rintro ⟨pos, hheader, hping⟩
    have hpos := (reads_mapHeader (Nat.zero_le _) hbytes).stop_le (Nat.zero_le _) hheader
    obtain ⟨header, rest, hdrop, rfl, hformat⟩ :=
      ((reads_mapHeader (Nat.zero_le _) hbytes).ok_iff _ _).mp hheader
    obtain ⟨hentries, -⟩ := (pingEntries_iff decodeConsumed _ _ _ _ _ _ _).mp hping
    rw [envelopeRequest_none] at hentries
    obtain ⟨item, rest', hdrop', hstop, entries, hlength, h, rfl, hrequest⟩ :=
      ((reads_entries hdecode hbytes hpos envelopeTable 2 _).ok_iff _ _).mp hentries
    rw [drop_of_append hdrop] at hdrop'
    rw [drop_zero, hdrop'] at hdrop
    have hempty : rest' = [] := by
      have hlength' := congrArg List.length hdrop
      simp only [length_append] at hlength'
      exact length_eq_zero_iff.mp (by omega)
    rw [hempty, append_nil] at hdrop
    refine ⟨entries, ⟨header, by rwa [hlength], hdrop, h⟩, hlength, ?_⟩
    rw [← foldl_assign, hrequest]
  · rintro ⟨entries, ⟨header, hformat, hbytes', h⟩, hlength, hrequest⟩
    rw [hlength] at hformat
    have hheader := ((reads_mapHeader (Nat.zero_le _) hbytes).ok_iff _ _).mpr
      ⟨header, entries.flatMap Entry.bytes, by rwa [drop_zero], rfl, hformat⟩
    have hpos := (reads_mapHeader (Nat.zero_le _) hbytes).stop_le (Nat.zero_le _) hheader
    refine ⟨_, hheader, (pingEntries_iff decodeConsumed _ _ _ _ _ _ _).mpr ⟨?_, rfl⟩⟩
    rw [envelopeRequest_none]
    refine ((reads_entries hdecode hbytes hpos envelopeTable 2 _).ok_iff _ _).mpr
      ⟨entries.flatMap Entry.bytes, [], ?_, ?_, entries, hlength, h, rfl, ?_⟩
    · rw [Nat.zero_add, hbytes', drop_left, append_nil]
    · rw [hbytes', length_append, Nat.zero_add]
    · rw [foldl_assign, hrequest]

end Ping

section Results

/-- What each extractor of a message does, and the short way of a ping: no read is outside the message. The
known keys of the map at the front have to be right wherever they occur, and the last one counts; a write is
also looked through for its acknowledgement. -/
theorem messages_extracted {ε P : Type} {decodeConsumed : Bytes → Except ε (P × ℕ)}
    (hdecode : Decodes decodeConsumed) {bytes : Bytes} (hbytes : bytes.length + 2 ^ 32 < 2 ^ 64) :
    (∀ table, extractMap decodeConsumed bytes table ≠ .error (.wire .trap) ∧
      ∀ request, extractMap decodeConsumed bytes table = .ok request ↔
        ∃ item rest entries, bytes = item ++ rest ∧ (∃ t, Formatted t item) ∧
          MapOf decodeConsumed table entries item ∧
          (∀ f ∈ table.fields, f.required → ∃ e ∈ entries, e.key = f.keyBytes) ∧
          request = table.view (decoded entries)) ∧
      (∀ table, extractWrite decodeConsumed bytes table ≠ .error (.wire .trap) ∧
        ∀ request writeId, extractWrite decodeConsumed bytes table = .ok (request, writeId) ↔
          extractMap decodeConsumed bytes table = .ok request ∧
            Acked ((request "confirm").bind (·.str?)) ((request "write_id").bind (·.str?)) writeId) ∧
      extractMinimalPingEnvelopeFast bytes ≠ .error .trap ∧
      (∀ envelope, extractMinimalPingEnvelopeFast bytes = .ok (some envelope) →
        extractEnvelopeFast decodeConsumed bytes =
          .ok (envelopeRequest (some envelope.type) (some envelope.id))) ∧
      ∀ envelope, extractMinimalPingEnvelopeFast bytes = .ok (some envelope) ↔
        envelope.type = pingType ∧ ∃ entries : List (Entry P),
          MapOf decodeConsumed envelopeTable entries bytes ∧ entries.length = 2 ∧
          envelopeTable.view (decoded entries) = envelopeRequest (some envelope.type) (some envelope.id) := by
  have hmap := extractMap_ok_iff hdecode hbytes
  refine ⟨fun table => ⟨(hmap table).1, fun request => ?_⟩,
    fun table => ⟨extractWrite_safe (hmap table).1, extractWrite_ok_iff table⟩, extractMinimalPing_safe hbytes,
    fun envelope hping => ?_, extractMinimalPing_iff decodeConsumed hdecode hbytes⟩
  · rw [(hmap table).2]
    constructor
    · rintro ⟨item, rest, entries, heq, hitem, h⟩
      exact ⟨item, rest, entries, heq, hitem.formatted hdecode, hitem, h⟩
    · rintro ⟨item, rest, entries, heq, -, h⟩
      exact ⟨item, rest, entries, heq, h⟩
  · obtain ⟨-, entries, hitem, -, hrequest⟩ :=
      (extractMinimalPing_iff decodeConsumed hdecode hbytes envelope).mp hping
    refine ((hmap envelopeTable).2 _).mpr
      ⟨bytes, [], entries, (append_nil bytes).symm, hitem, fun f hf _ => ?_, hrequest.symm⟩
    rw [← decoded_isSome _ _ hitem.choose_spec.2.2 hf, ← envelopeTable.view_field hf (decoded entries), hrequest]
    obtain rfl | hf := mem_cons.mp hf
    · rfl
    · obtain rfl := mem_singleton.mp hf
      rfl

def decodeNull : Bytes → Except Unit (Unit × ℕ)
  | 0xc0 :: _ => .ok ((), 1)
  | _ => .error ()

lemma decodeNull_decodes : Decodes decodeNull where
  formatted {b p n} h := by
    unfold decodeNull at h
    split at h
    · cases h
      exact ⟨[0xc0], _, .leaf, rfl, rfl, .nil⟩
    · cases h
  behind {item p} rest rest' h := by
    unfold decodeNull at h
    split at h
    · rename_i heq
      obtain ⟨-, hlength⟩ := Prod.mk.inj (Except.ok.inj h)
      obtain ⟨b, rfl⟩ := length_eq_one_iff.mp hlength.symm
      obtain ⟨rfl, -⟩ := List.cons.inj heq
      rfl
    · cases h

/-- A message whose data comes twice, after an unknown key of which the value holds an extension and a map. -/
def repeated : Bytes := [0xde, 0, 3, 0xa1, 0x78, 0x92, 0xd4, 1, 0, 0x81, 0xa1, 0x61, 0x90, 0xd9, 4, 0x64, 0x61,
  0x74, 0x61, 0xc0, 0xa4, 0x64, 0x61, 0x74, 0x61, 0xc0]

def ping : Bytes := [0xde, 0, 2, 0xa2, 0x69, 0x64, 0xcd, 1, 0, 0xa4, 0x74, 0x79, 0x70, 0x65, 0x02]

lemma exists_of_isOk {ε α : Type} {x : Except ε α} (h : x.isOk) : ∃ a, x = .ok a := by
  cases x with
  | error e => cases h
  | ok a => exact ⟨a, rfl⟩

theorem messages_extracted_repeated :
    (∃ request item rest, ∃ entries : List (Entry Unit), extractPresenceSetFast decodeNull repeated = .ok request ∧
      repeated = item ++ rest ∧ (∃ t, Formatted t item) ∧ MapOf decodeNull presenceSetTable entries item ∧
      (∀ f ∈ presenceSetTable.fields, f.required → ∃ e ∈ entries, e.key = f.keyBytes) ∧
      request = presenceSetTable.view (decoded entries)) ∧
    extractEnvelopeFast decodeNull ping = .ok (envelopeRequest (some pingType) (some 256)) := by
  have hrepeated := messages_extracted decodeNull_decodes (show repeated.length + 2 ^ 32 < 2 ^ 64 by decide)
  have hping := messages_extracted decodeNull_decodes (show ping.length + 2 ^ 32 < 2 ^ 64 by decide)
  obtain ⟨request, hrequest⟩ :=
    exists_of_isOk (show (extractPresenceSetFast decodeNull repeated).isOk by decide +kernel)
  obtain ⟨item, rest, entries, h⟩ := ((hrepeated.1 presenceSetTable).2 request).mp hrequest
  exact ⟨⟨request, item, rest, entries, hrequest, h⟩, hping.2.2.2.1 ⟨pingType, 256⟩ (by decide +kernel)⟩

def trailing : Bytes := [0x82, 0xa4, 0x74, 0x79, 0x70, 0x65, 0x02, 0xa2, 0x69, 0x64, 0x01, 0xc0]

/-- An envelope is accepted in front of other bytes, though it is not the whole of them; then the short way
of a ping does not agree. -/
theorem trailing_accepted : (∃ request, extractEnvelopeFast decodeNull trailing = .ok request) ∧
    (¬ ∃ entries, MapOf decodeNull envelopeTable entries trailing) ∧
    extractMinimalPingEnvelopeFast trailing = .ok none := by
  have hstop : (extractWalk decodeNull trailing envelopeTable).toOption.map Prod.snd = some 11 := by
    decide +kernel
  have hwalk := reads_map decodeNull_decodes (show trailing.length + 2 ^ 32 < 2 ^ 64 by decide) envelopeTable
  refine ⟨?_, ?_, by decide +kernel⟩
  · exact exists_of_isOk (by decide +kernel)
  · rintro ⟨entries, hitem⟩
    have hall := (hwalk.ok_iff _ _).mpr ⟨trailing, [], by simp, rfl, entries, rfl, hitem⟩
    rw [hall] at hstop
    cases hstop

end Results

end Wire
end ZyncBase
