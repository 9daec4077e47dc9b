import ZyncBase.Sql.Value
import ZyncBase.Typed.Codec

/-! MessagePack bytes: the writers of strings, byte strings and array headers, what is assumed of the
library that writes the other payloads and reads them all, and a reader that meets it. -/
namespace ZyncBase

open List Option BigEndian

def maxStringLength : ℕ := 2 ^ 20

def maxArrayLength : ℕ := 100000

def writeMsgPackStr (s : Bytes) : Bytes :=
  (if s.length ≤ 31 then [UInt8.ofNat (0xa0 + s.length)]
  else if s.length ≤ 0xff then 0xd9 :: bytes 1 s.length
  else if s.length ≤ 0xffff then 0xda :: bytes 2 s.length
  else 0xdb :: bytes 4 s.length) ++ s

def writeMsgPackBin (bytes : Bytes) : Bytes :=
  (if bytes.length ≤ 0xff then 0xc4 :: BigEndian.bytes 1 bytes.length
  else if bytes.length ≤ 0xffff then 0xc5 :: BigEndian.bytes 2 bytes.length
  else 0xc6 :: BigEndian.bytes 4 bytes.length) ++ bytes

def encodeArrayHeader (len : ℕ) : Bytes :=
  if len ≤ 15 then [UInt8.ofNat (0x90 + len)]
  else if len ≤ 0xffff then 0xdc :: bytes 2 len
  else 0xdd :: bytes 4 len

section Values

variable (encode : Payload → Bytes)

def encodeScalarMsgPack : ScalarValue → Bytes
  | .docId id => writeMsgPackBin (DocId.toBytes id)
  | .integer v => if 0 ≤ v then encode (.uint v.toNat) else encode (.int v)
  | .real v => encode (.float v.negative v.magnitude)
  | .text v => writeMsgPackStr v
  | .boolean v => encode (.bool v)
  | .binary v => writeMsgPackBin v

def encodeMsgPack : Value → Bytes
  | .nil => encode .nil
  | .scalar s => encodeScalarMsgPack encode s
  | .array items => encodeArrayHeader items.length ++ items.flatMap (encodeScalarMsgPack encode)

end Values

/-- A payload without parts, in the range of its type. -/
def Payload.Plain : Payload → Prop
  | .nil | .bool _ => True
  | .uint v => v < 2 ^ 64
  | .int v => -2 ^ 63 ≤ v ∧ v < 0
  | .float _ magnitude => magnitude < 2 ^ 63
  | _ => False

/-- The bytes that are written for a payload whose arrays are nested at most so deep. -/
inductive Written (encode : Payload → Bytes) : ℕ → Bytes → Payload → Prop
  | plain {depth : ℕ} {p : Payload} (h : p.Plain) : Written encode depth (encode p) p
  | str {depth : ℕ} {s : Bytes} (h : s.length ≤ maxStringLength) :
    Written encode depth (writeMsgPackStr s) (.str s)
  | bin {depth : ℕ} {s : Bytes} (h : s.length ≤ maxStringLength) :
    Written encode depth (writeMsgPackBin s) (.bin s)
  | arr {depth : ℕ} {items : List (Bytes × Payload)} (hlength : items.length ≤ maxArrayLength)
    (h : ∀ item ∈ items, Written encode depth item.1 item.2) :
    Written encode (depth + 1) (encodeArrayHeader items.length ++ items.flatMap Prod.fst)
      (.arr (items.map Prod.snd))

/-- The library reads what is written within the limits, and consumes no more than that. -/
def ReadsMessagePack (encode : Payload → Bytes) (decodeConsumed : Bytes → Option (Payload × ℕ)) : Prop :=
  ∀ bytes p rest, Written encode 31 bytes p → decodeConsumed (bytes ++ rest) = some (p, bytes.length)

variable {items : List (Bytes × Payload)}

namespace MsgPack

section Reader

def encode : Payload → Bytes
  | .nil => [0xc0]
  | .bool b => if b then [0xc3] else [0xc2]
  | .uint v =>
    if v < 0x80 then [UInt8.ofNat v]
    else if v < 0x100 then 0xcc :: bytes 1 v
    else if v < 0x10000 then 0xcd :: bytes 2 v
    else if v < 0x100000000 then 0xce :: bytes 4 v
    else 0xcf :: bytes 8 v
  | .int v =>
    if -0x20 ≤ v then [UInt8.ofNat (v + 0x100).toNat]
    else if -0x80 ≤ v then 0xd0 :: bytes 1 (v + 0x100).toNat
    else if -0x8000 ≤ v then 0xd1 :: bytes 2 (v + 0x10000).toNat
    else if -0x80000000 ≤ v then 0xd2 :: bytes 4 (v + 0x100000000).toNat
    else 0xd3 :: bytes 8 (v + 0x10000000000000000).toNat
  | .float negative magnitude =>
    0xcb :: bytes 8 (negative.toNat * 0x8000000000000000 + magnitude)
  | _ => []

def readBytes (n : ℕ) (bs : Bytes) : Option (Bytes × Bytes) :=
  if n ≤ bs.length then some (bs.take n, bs.drop n) else none

def readNumber (n : ℕ) (bs : Bytes) : Option (ℕ × Bytes) :=
  (readBytes n bs).map fun r => (r.1.foldl (fun acc b => acc * 256 + b.toNat) 0, r.2)

def readSigned (n : ℕ) (bs : Bytes) : Option (Payload × Bytes) :=
  (readNumber n bs).map fun r =>
    (.int (if 2 * r.1 < 256 ^ n then r.1 else r.1 - (256 ^ n : ℕ)), r.2)

def readSized (make : Bytes → Payload) (n : ℕ) (bs : Bytes) : Option (Payload × Bytes) := do
  let (length, bs) ← readNumber n bs
  let (s, bs) ← readBytes length bs
  some (make s, bs)

variable (read : Bytes → Option (Payload × Bytes)) in
def readMany : ℕ → Bytes → Option (List Payload × Bytes)
  | 0, bs => some ([], bs)
  | n + 1, bs => do
    let (p, bs) ← read bs
    let (ps, bs) ← readMany n bs
    some (p :: ps, bs)

def readArray (read : Bytes → Option (Payload × Bytes)) (n : ℕ) (bs : Bytes) : Option (Payload × Bytes) :=
  (readMany read n bs).map fun r => (.arr r.1, r.2)

/-- A payload by its tag, which counts from `0xc0`. -/
def readTagged (read : Bytes → Option (Payload × Bytes)) (tag : ℕ) (bs : Bytes) : Option (Payload × Bytes) :=
  match tag with
  | 0x00 => some (.nil, bs)
  | 0x02 => some (.bool false, bs)
  | 0x03 => some (.bool true, bs)
  | 0x04 => readSized .bin 1 bs
  | 0x05 => readSized .bin 2 bs
  | 0x06 => readSized .bin 4 bs
  | 0x0b => (readNumber 8 bs).map fun r =>
    (.float (decide (0x8000000000000000 ≤ r.1)) (r.1 % 0x8000000000000000), r.2)
  | 0x0c => (readNumber 1 bs).map fun r => (.uint r.1, r.2)
  | 0x0d => (readNumber 2 bs).map fun r => (.uint r.1, r.2)
  | 0x0e => (readNumber 4 bs).map fun r => (.uint r.1, r.2)
  | 0x0f => (readNumber 8 bs).map fun r => (.uint r.1, r.2)
  | 0x10 => readSigned 1 bs
  | 0x11 => readSigned 2 bs
  | 0x12 => readSigned 4 bs
  | 0x13 => readSigned 8 bs
  | 0x19 => readSized .str 1 bs
  | 0x1a => readSized .str 2 bs
  | 0x1b => readSized .str 4 bs
  | 0x1c => do
    let (n, bs) ← readNumber 2 bs
    readArray read n bs
  | 0x1d => do
    let (n, bs) ← readNumber 4 bs
    readArray read n bs
  | _ => none

/-- The next payload and what follows it. Maps are left out. -/
def readPayload : ℕ → Bytes → Option (Payload × Bytes)
  | 0, _ | _, [] => none
  | depth + 1, tag :: bs =>
    if tag.toNat < 0x80 then some (.uint tag.toNat, bs)
    else if tag.toNat < 0x90 then none
    else if tag.toNat < 0xa0 then readArray (readPayload depth) (tag.toNat - 0x90) bs
    else if tag.toNat < 0xc0 then
      (readBytes (tag.toNat - 0xa0) bs).map fun r => (.str r.1, r.2)
    else if tag.toNat < 0xe0 then readTagged (readPayload depth) (tag.toNat - 0xc0) bs
    else some (.int (tag.toNat - 0x100 : ℤ), bs)

def decodeConsumed (bs : Bytes) : Option (Payload × ℕ) :=
  (readPayload 32 bs).map fun r => (r.1, bs.length - r.2.length)

lemma readBytes_append (s rest : Bytes) : readBytes s.length (s ++ rest) = some (s, rest) := by
  rw [readBytes, if_pos (by rw [length_append]; omega), take_left, drop_left]

lemma readNumber_bytes {n x : ℕ} (h : x < 256 ^ n) (rest : Bytes) :
    readNumber n (bytes n x ++ rest) = some (x, rest) := by
  have hread := readBytes_append (bytes n x) rest
  rw [bytes_length] at hread
  rw [readNumber, hread, map_some, foldl_bytes n x 0 h, Nat.zero_mul, Nat.zero_add]

lemma readSized_bytes {make : Bytes → Payload} {n : ℕ} {s : Bytes} (h : s.length < 256 ^ n) (rest : Bytes) :
    readSized make n (bytes n s.length ++ s ++ rest) = some (make s, rest) := by
  rw [readSized, List.append_assoc, readNumber_bytes h]
  change (readBytes s.length (s ++ rest)).bind _ = _
  rw [readBytes_append]
  rfl

lemma readSigned_bytes {n m : ℕ} {v : ℤ} (hm : m = 256 ^ n) (hlow : -(m : ℤ) ≤ 2 * v)
    (hneg : v < 0) (rest : Bytes) :
    readSigned n (bytes n (v + m).toNat ++ rest) = some (.int v, rest) := by
  have hx : (v + m).toNat < m := by omega
  have hread : readNumber n (bytes n (v + m).toNat ++ rest) = some ((v + m).toNat, rest) :=
    readNumber_bytes (by rw [← hm]; exact hx) rest
  have hhalf : ¬2 * (v + m).toNat < m := by omega
  have hv : ((v + m).toNat : ℤ) - (m : ℤ) = v := by omega
  rw [readSigned, hread, map_some, ← hm, if_neg hhalf, hv]

variable {read : Bytes → Option (Payload × Bytes)}

lemma readMany_flatMap
    (h : ∀ item ∈ items, ∀ rest, read (item.1 ++ rest) = some (item.2, rest)) (rest : Bytes) :
    readMany read items.length (items.flatMap Prod.fst ++ rest) = some (items.map Prod.snd, rest) := by
  induction items with
  | nil => rfl
  | cons item items ih =>
    obtain ⟨hitem, hitems⟩ := forall_mem_cons.mp h
    rw [length_cons, readMany, flatMap_cons, List.append_assoc, hitem]
    change (readMany read items.length _).bind _ = _
    rw [ih hitems]
    rfl

lemma readArray_flatMap
    (h : ∀ item ∈ items, ∀ rest, read (item.1 ++ rest) = some (item.2, rest)) (rest : Bytes) :
    readArray read items.length (items.flatMap Prod.fst ++ rest) = some (.arr (items.map Prod.snd), rest) := by
  rw [readArray, readMany_flatMap h]
  rfl

variable {depth n : ℕ} {tag : UInt8} {bs rest : Bytes}

lemma toNat_ofNat (h : n < 256) : (UInt8.ofNat n).toNat = n := UInt8.toNat_ofNat_of_lt' h

lemma readPayload_tagged (htag : tag.toNat = 0xc0 + n) (hn : n < 0x20) :
    readPayload (depth + 1) (tag :: bs) = readTagged (readPayload depth) n bs := by
  rw [readPayload, if_neg (by omega), if_neg (by omega), if_neg (by omega), if_neg (by omega),
    if_pos (by omega), htag, Nat.add_sub_cancel_left]

lemma readPayload_plain {p : Payload} (h : p.Plain) :
    readPayload (depth + 1) (encode p ++ rest) = some (p, rest) := by
  cases p with
  | nil => exact readPayload_tagged (n := 0x00) rfl (by decide)
  | bool b =>
    cases b
    · exact readPayload_tagged (n := 0x02) rfl (by decide)
    · exact readPayload_tagged (n := 0x03) rfl (by decide)
  | uint v =>
    have htag (n : ℕ) (hn : v < 256 ^ n) : (readNumber n (bytes n v ++ rest)).map
        (fun r => (Payload.uint r.1, r.2)) = some (.uint v, rest) := by
      rw [readNumber_bytes hn, map_some]
    rw [encode]
    split_ifs with h1 h2 h3 h4
    · have hv : (UInt8.ofNat v).toNat = v := toNat_ofNat (by omega)
      rw [singleton_append, readPayload, hv, if_pos h1]
    · exact (readPayload_tagged (n := 0x0c) rfl (by decide)).trans (htag 1 h2)
    · exact (readPayload_tagged (n := 0x0d) rfl (by decide)).trans (htag 2 h3)
    · exact (readPayload_tagged (n := 0x0e) rfl (by decide)).trans (htag 4 h4)
    · exact (readPayload_tagged (n := 0x0f) rfl (by decide)).trans (htag 8 h)
  | int v =>
    obtain ⟨hlow, hneg⟩ := h
    rw [encode]
    split_ifs with h1 h2 h3 h4
    · have hv : (UInt8.ofNat (v + 0x100).toNat).toNat = (v + 0x100).toNat :=
        toNat_ofNat (by omega)
      have hback : (((v + 0x100).toNat : ℤ) - 0x100) = v := by omega
      rw [singleton_append, readPayload, hv, if_neg (by omega), if_neg (by omega),
        if_neg (by omega), if_neg (by omega), if_neg (by omega), hback]
    · exact (readPayload_tagged (n := 0x10) rfl (by decide)).trans
        (readSigned_bytes (n := 1) (m := 0x100) (by decide) (by omega) hneg rest)
    · exact (readPayload_tagged (n := 0x11) rfl (by decide)).trans
        (readSigned_bytes (n := 2) (m := 0x10000) (by decide) (by omega) hneg rest)
    · exact (readPayload_tagged (n := 0x12) rfl (by decide)).trans
        (readSigned_bytes (n := 4) (m := 0x100000000) (by decide) (by omega) hneg rest)
    · exact (readPayload_tagged (n := 0x13) rfl (by decide)).trans
        (readSigned_bytes (n := 8) (m := 0x10000000000000000) (by decide) (by omega) hneg rest)
  | float negative magnitude =>
    have hm : magnitude < 0x8000000000000000 := h
    have hbits : negative.toNat * 0x8000000000000000 + magnitude < 256 ^ 8 := by
      cases negative
      · change 0 * _ + _ < _
        omega
      · change 1 * _ + _ < _
        omega
    have hsign : decide (0x8000000000000000 ≤ negative.toNat * 0x8000000000000000 + magnitude) =
        negative := by
      cases negative
      · exact decide_eq_false (by change ¬_ ≤ 0 * _ + _; omega)
      · exact decide_eq_true (by change _ ≤ 1 * _ + _; omega)
    have hrest : (negative.toNat * 0x8000000000000000 + magnitude) % 0x8000000000000000 =
        magnitude := by
      rw [Nat.mul_add_mod_self_right, Nat.mod_eq_of_lt hm]
    have hread : (readNumber 8
        (bytes 8 (negative.toNat * 0x8000000000000000 + magnitude) ++ rest)).map (fun r =>
          (Payload.float (decide (0x8000000000000000 ≤ r.1)) (r.1 % 0x8000000000000000), r.2)) =
        some (.float negative magnitude, rest) := by
      rw [readNumber_bytes hbits, map_some, hsign, hrest]
    exact (readPayload_tagged (n := 0x0b) rfl (by decide)).trans hread
  | str s => cases h
  | bin s => cases h
  | arr ps => cases h
  | map entries => cases h

lemma readPayload_str {s : Bytes} (h : s.length ≤ maxStringLength) :
    readPayload (depth + 1) (writeMsgPackStr s ++ rest) = some (.str s, rest) := by
  have hlength : s.length ≤ 0x100000 := h
  rw [writeMsgPackStr]
  split_ifs with h1 h2 h3
  · have htag : (UInt8.ofNat (0xa0 + s.length)).toNat = 0xa0 + s.length :=
      toNat_ofNat (by omega)
    rw [singleton_append, cons_append, readPayload, htag, if_neg (by omega), if_neg (by omega),
      if_neg (by omega), if_pos (by omega), Nat.add_sub_cancel_left, readBytes_append, map_some]
  · exact (readPayload_tagged (n := 0x19) rfl (by decide)).trans (readSized_bytes (n := 1) (by omega) rest)
  · exact (readPayload_tagged (n := 0x1a) rfl (by decide)).trans (readSized_bytes (n := 2) (by omega) rest)
  · exact (readPayload_tagged (n := 0x1b) rfl (by decide)).trans (readSized_bytes (n := 4) (by omega) rest)

lemma readPayload_bin {s : Bytes} (h : s.length ≤ maxStringLength) :
    readPayload (depth + 1) (writeMsgPackBin s ++ rest) = some (.bin s, rest) := by
  have hlength : s.length ≤ 0x100000 := h
  rw [writeMsgPackBin]
  split_ifs with h1 h2
  · exact (readPayload_tagged (n := 0x04) rfl (by decide)).trans (readSized_bytes (n := 1) (by omega) rest)
  · exact (readPayload_tagged (n := 0x05) rfl (by decide)).trans (readSized_bytes (n := 2) (by omega) rest)
  · exact (readPayload_tagged (n := 0x06) rfl (by decide)).trans (readSized_bytes (n := 4) (by omega) rest)

lemma readPayload_arr (hlength : items.length ≤ maxArrayLength)
    (h : ∀ item ∈ items, ∀ rest, readPayload depth (item.1 ++ rest) = some (item.2, rest)) :
    readPayload (depth + 1) (encodeArrayHeader items.length ++ items.flatMap Prod.fst ++ rest) =
      some (.arr (items.map Prod.snd), rest) := by
  have hmax : items.length ≤ 100000 := hlength
  have hitems := readArray_flatMap h rest
  have hlong {n : ℕ} (hn : items.length < 256 ^ n) :
      ((readNumber n (bytes n items.length ++ items.flatMap Prod.fst ++ rest)).bind
        fun r => readArray (readPayload depth) r.1 r.2) = some (.arr (items.map Prod.snd), rest) := by
    rw [List.append_assoc, readNumber_bytes hn, bind_some]
    exact hitems
  rw [encodeArrayHeader]
  split_ifs with h1 h2
  · have htag : (UInt8.ofNat (0x90 + items.length)).toNat = 0x90 + items.length :=
      toNat_ofNat (by omega)
    rw [singleton_append, cons_append, readPayload, htag, if_neg (by omega),
      if_neg (by omega), if_pos (by omega), Nat.add_sub_cancel_left, hitems]
  · exact (readPayload_tagged (n := 0x1c) rfl (by decide)).trans (hlong (n := 2) (by omega))
  · exact (readPayload_tagged (n := 0x1d) rfl (by decide)).trans (hlong (n := 4) (by omega))

lemma readPayload_written {bytes : Bytes} {p : Payload} (h : Written encode depth bytes p) :
    readPayload (depth + 1) (bytes ++ rest) = some (p, rest) := by
  induction h generalizing rest with
  | plain hp => exact readPayload_plain hp
  | str hs => exact readPayload_str hs
  | bin hs => exact readPayload_bin hs
  | arr hlength _ ih => exact readPayload_arr hlength fun item hitem rest => ih item hitem

lemma readsMessagePack : ReadsMessagePack encode decodeConsumed := by
  intro bytes p rest h
  rw [decodeConsumed, readPayload_written h, map_some, length_append, Nat.add_sub_cancel]

end Reader
end MsgPack
end ZyncBase
