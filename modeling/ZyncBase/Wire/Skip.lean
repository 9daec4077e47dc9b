import Mathlib.Tactic.IntervalCases
import ZyncBase.Typed.MsgPack

/-! The walk over MessagePack values that are not decoded: each read is checked against the buffer, and no
sum or difference leaves the range of an index. -/
namespace ZyncBase

open BigEndian List

variable {levels pos : ℕ} {b item : Bytes}

namespace Wire

/-- `trap` is a read outside the buffer, or arithmetic that leaves the 64 bits of an index. -/
inductive SkipError where
  | invalidMessageFormat | maxDepthExceeded | trap
  deriving DecidableEq, Repr

abbrev Skip (α : Type) := Except SkipError α

/-- What a marker says of the value that it begins. -/
inductive SkipAction where
  | invalid
  | immediate
  | fixed (len : ℕ)
  | str
  | bin
  | array
  | map
  | ext
  deriving DecidableEq, Repr

section Model

def add (x y : ℕ) : Skip ℕ := if x + y < 2 ^ 64 then .ok (x + y) else .error .trap

def sub (x y : ℕ) : Skip ℕ := if y ≤ x then .ok (x - y) else .error .trap

def markerAction (marker : UInt8) : SkipAction :=
  let m := marker.toNat
  if m < 0x80 then .immediate
  else if m < 0x90 then .map
  else if m < 0xa0 then .array
  else if m < 0xc0 then .str
  else if 0xe0 ≤ m then .immediate
  else
    match m with
    | 0xc0 | 0xc2 | 0xc3 => .immediate
    | 0xc4 | 0xc5 | 0xc6 => .bin
    | 0xc7 | 0xc8 | 0xc9 => .ext
    | 0xca => .fixed 4
    | 0xcb => .fixed 8
    | 0xcc => .fixed 1
    | 0xcd => .fixed 2
    | 0xce => .fixed 4
    | 0xcf => .fixed 8
    | 0xd0 => .fixed 1
    | 0xd1 => .fixed 2
    | 0xd2 => .fixed 4
    | 0xd3 => .fixed 8
    | 0xd4 => .fixed 2
    | 0xd5 => .fixed 3
    | 0xd6 => .fixed 5
    | 0xd7 => .fixed 9
    | 0xd8 => .fixed 17
    | 0xd9 | 0xda | 0xdb => .str
    | 0xdc | 0xdd => .array
    | 0xde | 0xdf => .map
    | _ => .invalid

variable (bytes : Bytes)

def byteAt (pos : ℕ) : Skip UInt8 :=
  match bytes[pos]? with
  | some b => .ok b
  | none => .error .trap

/-- The bytes of a slice, both of whose ends are checked. -/
def slice (start stop : ℕ) : Skip Bytes :=
  if start ≤ stop ∧ stop ≤ bytes.length then .ok ((bytes.drop start).take (stop - start)) else .error .trap

def readLen (n pos : ℕ) : Skip (ℕ × ℕ) := do
  let stop ← add pos n
  if bytes.length < stop then .error .invalidMessageFormat
  else
    let digits ← slice bytes pos stop
    return (digits.foldl (fun acc b => acc * 256 + b.toNat) 0, stop)

def skipPayload (len pos : ℕ) : Skip ℕ := do
  let left ← sub bytes.length pos
  if left < len then .error .invalidMessageFormat else add pos len

def skipStr (m pos : ℕ) : Skip ℕ :=
  if 0xa0 ≤ m ∧ m ≤ 0xbf then skipPayload bytes (m % 0x20) pos
  else do
    let (len, pos) ← match m with
      | 0xd9 => readLen bytes 1 pos
      | 0xda => readLen bytes 2 pos
      | 0xdb => readLen bytes 4 pos
      | _ => .error .invalidMessageFormat
    skipPayload bytes len pos

def skipBin (m pos : ℕ) : Skip ℕ := do
  let (len, pos) ← match m with
    | 0xc4 => readLen bytes 1 pos
    | 0xc5 => readLen bytes 2 pos
    | 0xc6 => readLen bytes 4 pos
    | _ => .error .invalidMessageFormat
  skipPayload bytes len pos

def skipMany (skip : ℕ → Skip ℕ) : ℕ → ℕ → Skip ℕ
  | 0, pos => .ok pos
  | n + 1, pos => do skipMany skip n (← skip pos)

variable (skip : ℕ → Skip ℕ)

def skipArray (m pos : ℕ) : Skip ℕ := do
  let (count, pos) ←
    if 0x90 ≤ m ∧ m ≤ 0x9f then pure (m % 0x10, pos)
    else
      match m with
      | 0xdc => readLen bytes 2 pos
      | 0xdd => readLen bytes 4 pos
      | _ => .error .invalidMessageFormat
  if (← sub bytes.length pos) < count then .error .invalidMessageFormat else skipMany skip count pos

def skipMap (m pos : ℕ) : Skip ℕ := do
  let (count, pos) ←
    if 0x80 ≤ m ∧ m ≤ 0x8f then pure (m % 0x10, pos)
    else
      match m with
      | 0xde => readLen bytes 2 pos
      | 0xdf => readLen bytes 4 pos
      | _ => .error .invalidMessageFormat
  if (← sub bytes.length pos) / 2 < count then .error .invalidMessageFormat
  else skipMany skip (← add count count) pos

def skipExt (m pos : ℕ) : Skip ℕ := do
  let (len, pos) ← match m with
    | 0xc7 => readLen bytes 1 pos
    | 0xc8 => readLen bytes 2 pos
    | 0xc9 => readLen bytes 4 pos
    | _ => .error .invalidMessageFormat
  if (← sub bytes.length pos) ≤ len then .error .invalidMessageFormat
  else skipPayload bytes (← add len 1) pos

/-- The depth is counted as what is left of it. -/
def skipValueDepth : ℕ → ℕ → Skip ℕ
  | 0, _ => .error .maxDepthExceeded
  | levels + 1, pos =>
    if bytes.length ≤ pos then .error .invalidMessageFormat
    else do
      let marker ← byteAt bytes pos
      let pos ← add pos 1
      match markerAction marker with
      | .invalid => .error .invalidMessageFormat
      | .immediate => .ok pos
      | .fixed len => skipPayload bytes len pos
      | .str => skipStr bytes marker.toNat pos
      | .bin => skipBin bytes marker.toNat pos
      | .array => skipArray bytes (skipValueDepth levels) marker.toNat pos
      | .map => skipMap bytes (skipValueDepth levels) marker.toNat pos
      | .ext => skipExt bytes marker.toNat pos

/-- At most 32 containers may be around a value. -/
def skipValue (pos : ℕ) : Skip ℕ := skipValueDepth bytes 33 pos

end Model

section Format

/-- How the containers of a value are nested. -/
inductive Shape where
  | leaf
  | node (children : List Shape)

mutual

/-- How many containers are around the innermost value. -/
def Shape.enclosure : Shape → ℕ
  | .leaf => 0
  | .node children => Shape.enclosures children

def Shape.enclosures : List Shape → ℕ
  | [] => 0
  | child :: children => max (child.enclosure + 1) (Shape.enclosures children)

end

mutual

/-- How deep the containers are nested. -/
def Shape.height : Shape → ℕ
  | .leaf => 0
  | .node children => Shape.heights children + 1

def Shape.heights : List Shape → ℕ
  | [] => 0
  | child :: children => max child.height (Shape.heights children)

end

/-- The formats of MessagePack, by family: `k` is the place of a format in its family. -/
inductive Formatted : Shape → Bytes → Prop
  | positiveFixint {n : ℕ} (hn : n < 0x80) : Formatted .leaf [UInt8.ofNat n]
  | negativeFixint {n : ℕ} (hn : n < 0x20) : Formatted .leaf [UInt8.ofNat (0xe0 + n)]
  | nil : Formatted .leaf [0xc0]
  | bool (b : Bool) : Formatted .leaf [if b then 0xc3 else 0xc2]
  | float {k : ℕ} {number : Bytes} (hk : k < 2) (hlength : number.length = 4 * 2 ^ k) :
    Formatted .leaf (UInt8.ofNat (0xca + k) :: number)
  | uint {k : ℕ} {number : Bytes} (hk : k < 4) (hlength : number.length = 2 ^ k) :
    Formatted .leaf (UInt8.ofNat (0xcc + k) :: number)
  | int {k : ℕ} {number : Bytes} (hk : k < 4) (hlength : number.length = 2 ^ k) :
    Formatted .leaf (UInt8.ofNat (0xd0 + k) :: number)
  | fixstr {s : Bytes} (hs : s.length < 0x20) : Formatted .leaf (UInt8.ofNat (0xa0 + s.length) :: s)
  | str {k : ℕ} {s : Bytes} (hk : k < 3) (hs : s.length < 256 ^ 2 ^ k) :
    Formatted .leaf (UInt8.ofNat (0xd9 + k) :: (BigEndian.bytes (2 ^ k) s.length ++ s))
  | bin {k : ℕ} {s : Bytes} (hk : k < 3) (hs : s.length < 256 ^ 2 ^ k) :
    Formatted .leaf (UInt8.ofNat (0xc4 + k) :: (BigEndian.bytes (2 ^ k) s.length ++ s))
  | fixext {k : ℕ} {data : Bytes} (type : UInt8) (hk : k < 5) (hlength : data.length = 2 ^ k) :
    Formatted .leaf (UInt8.ofNat (0xd4 + k) :: type :: data)
  | ext {k : ℕ} {data : Bytes} (type : UInt8) (hk : k < 3) (hdata : data.length < 256 ^ 2 ^ k) :
    Formatted .leaf (UInt8.ofNat (0xc7 + k) :: (BigEndian.bytes (2 ^ k) data.length ++ type :: data))
  | fixarray {items : List (Shape × Bytes)} (hlength : items.length < 0x10)
    (h : ∀ item ∈ items, Formatted item.1 item.2) : Formatted (.node (items.map Prod.fst))
      (UInt8.ofNat (0x90 + items.length) :: items.flatMap Prod.snd)
  | array {k : ℕ} {items : List (Shape × Bytes)} (hk : k < 2) (hlength : items.length < 256 ^ 2 ^ (k + 1))
    (h : ∀ item ∈ items, Formatted item.1 item.2) : Formatted (.node (items.map Prod.fst))
      (UInt8.ofNat (0xdc + k) :: (BigEndian.bytes (2 ^ (k + 1)) items.length ++ items.flatMap Prod.snd))
  | fixmap {n : ℕ} {items : List (Shape × Bytes)} (hn : n < 0x10) (hlength : items.length = 2 * n)
    (h : ∀ item ∈ items, Formatted item.1 item.2) : Formatted (.node (items.map Prod.fst))
      (UInt8.ofNat (0x80 + n) :: items.flatMap Prod.snd)
  | map {k n : ℕ} {items : List (Shape × Bytes)} (hk : k < 2) (hn : n < 256 ^ 2 ^ (k + 1))
    (hlength : items.length = 2 * n) (h : ∀ item ∈ items, Formatted item.1 item.2) :
    Formatted (.node (items.map Prod.fst))
      (UInt8.ofNat (0xde + k) :: (BigEndian.bytes (2 ^ (k + 1)) n ++ items.flatMap Prod.snd))

end Format

section Walks

variable {bytes : Bytes}

/-- A walk from the position does not trap, and succeeds exactly if bytes of the kind come there, behind
which it ends. -/
structure Skips (bytes : Bytes) (pos : ℕ) (kind : Bytes → Prop) (walk : Skip ℕ) : Prop where
  safe : walk ≠ .error .trap
  ok_iff : ∀ stop, walk = .ok stop ↔
    ∃ item rest, bytes.drop pos = item ++ rest ∧ stop = pos + item.length ∧ kind item

lemma Skips.congr {kind kind' : Bytes → Prop} {walk : Skip ℕ} (h : Skips bytes pos kind walk)
    (hkind : ∀ b, kind b ↔ kind' b) : Skips bytes pos kind' walk where
  safe := h.safe
  ok_iff stop := by simp only [h.ok_iff, hkind]

lemma skips_error {kind : Bytes → Prop} {e : SkipError} (he : e ≠ .trap)
    (hnone : ∀ item rest, bytes.drop pos = item ++ rest → ¬ kind item) : Skips bytes pos kind (.error e) where
  safe h := he (Except.error.inj h)
  ok_iff stop := by
    refine ⟨nofun, ?_⟩
    rintro ⟨item, rest, hdrop, -, hkind⟩
    exact absurd hkind (hnone item rest hdrop)

lemma length_drop_append {rest : Bytes} (hpos : pos ≤ bytes.length)
    (hdrop : bytes.drop pos = item ++ rest) : pos + item.length ≤ bytes.length := by
  have hlength := congrArg List.length hdrop
  rw [length_drop, length_append] at hlength
  omega

lemma drop_of_append {rest : Bytes} (hdrop : bytes.drop pos = item ++ rest) :
    bytes.drop (pos + item.length) = rest := by
  rw [← drop_drop, hdrop, drop_left]

lemma skips_nothing : Skips bytes pos (fun b => b = []) (.ok pos) where
  safe h := nomatch h
  ok_iff stop := by
    constructor
    · rintro ⟨⟩
      exact ⟨[], bytes.drop pos, rfl, rfl, rfl⟩
    · rintro ⟨item, rest, -, rfl, rfl⟩
      rfl

lemma Skips.cons {pos : ℕ} {kind kind' : Bytes → Prop} {walk : Skip ℕ} (h : Skips bytes (pos + 1) kind walk)
    (hpos : pos < bytes.length) (hkind : ∀ b, kind' (bytes[pos] :: b) ↔ kind b) (hnil : ¬ kind' []) : Skips bytes pos kind' walk where
  safe := h.safe
  ok_iff stop := by
    rw [h.ok_iff, drop_eq_getElem_cons hpos]
    constructor
    · rintro ⟨item, rest, hdrop, rfl, hitem⟩
      refine ⟨bytes[pos] :: item, rest, by rw [hdrop, cons_append], ?_, (hkind item).mpr hitem⟩
      rw [length_cons]
      omega
    · rintro ⟨item, rest, hdrop, rfl, hitem⟩
      cases item with
      | nil => exact absurd hitem hnil
      | cons b item =>
        obtain ⟨rfl, hbehind⟩ := List.cons.inj hdrop
        refine ⟨item, rest, hbehind, ?_, (hkind item).mp hitem⟩
        rw [length_cons]
        omega

lemma skips_many {skip : ℕ → Skip ℕ} {kind : Shape → Bytes → Prop}
    (h : ∀ pos ≤ bytes.length, Skips bytes pos (fun b => ∃ t, kind t b) (skip pos)) (count : ℕ)
    (hpos : pos ≤ bytes.length) :
    Skips bytes pos (fun b => ∃ items : List (Shape × Bytes), items.length = count ∧
      (∀ item ∈ items, kind item.1 item.2) ∧ b = items.flatMap Prod.snd) (skipMany skip count pos) := by
  induction count generalizing pos with
  | zero =>
    refine Skips.congr skips_nothing fun b => ⟨?_, ?_⟩
    · rintro rfl
      exact ⟨[], rfl, nofun, rfl⟩
    · rintro ⟨items, hlength, -, rfl⟩
      rw [length_eq_zero_iff.mp hlength]
      rfl
  | succ count ih =>
    have hfirst := h pos hpos
    rw [skipMany]
    cases hskip : skip pos with
    | error e =>
      refine skips_error (fun he => hfirst.safe (he ▸ hskip)) ?_
      rintro item rest hdrop ⟨items, hlength, hkind, rfl⟩
      cases items with
      | nil => cases hlength
      | cons first items =>
        rw [flatMap_cons, append_assoc] at hdrop
        have hok := (hfirst.ok_iff _).mpr ⟨first.2, _, hdrop, rfl, first.1, hkind first mem_cons_self⟩
        rw [hskip] at hok
        cases hok
    | ok next =>
      obtain ⟨first, rest, hdrop, rfl, t, ht⟩ := (hfirst.ok_iff next).mp hskip
      have hrest := ih (length_drop_append hpos hdrop)
      refine ⟨hrest.safe, fun stop => (hrest.ok_iff stop).trans ⟨?_, ?_⟩⟩
      · rintro ⟨b, rest', hdrop', rfl, items, hlength, hkind, rfl⟩
        rw [drop_of_append hdrop] at hdrop'
        refine ⟨_, rest', ?_, ?_, (t, first) :: items, ?_, ?_, rfl⟩
        · rw [flatMap_cons, hdrop, hdrop', append_assoc]
        · rw [flatMap_cons, length_append, Nat.add_assoc]
        · rw [length_cons, hlength]
        · exact forall_mem_cons.mpr ⟨ht, hkind⟩
      · rintro ⟨b, rest', hdrop', rfl, items, hlength, hkind, rfl⟩
        cases items with
        | nil => cases hlength
        | cons item items =>
          rw [flatMap_cons, append_assoc] at hdrop'
          obtain ⟨hitem, hitems⟩ := forall_mem_cons.mp hkind
          have hok := (hfirst.ok_iff _).mpr ⟨item.2, _, hdrop', rfl, item.1, hitem⟩
          rw [hskip, Except.ok.injEq, Nat.add_right_inj] at hok
          rw [hok, drop_of_append hdrop']
          refine ⟨items.flatMap Prod.snd, rest', rfl, ?_, items, Nat.succ.inj hlength, hitems, rfl⟩
          rw [flatMap_cons, length_append, Nat.add_assoc]

variable (hbytes : bytes.length + 8 < 2 ^ 64)
include hbytes

lemma skips_payload (hpos : pos ≤ bytes.length) (len : ℕ) :
    Skips bytes pos (fun s => s.length = len) (skipPayload bytes len pos) := by
  have heq : skipPayload bytes len pos =
      if bytes.length - pos < len then .error .invalidMessageFormat else .ok (pos + len) := by
    unfold skipPayload sub add
    rw [if_pos hpos]
    change (if _ then _ else _) = _
    split_ifs with hlen hwrap
    · rfl
    · rfl
    · omega
  rw [heq]
  split_ifs with hlen
  · refine skips_error (by simp) fun item rest hdrop hlength => ?_
    have := length_drop_append hpos hdrop
    omega
  · refine ⟨nofun, fun stop => ⟨?_, ?_⟩⟩
    · rintro ⟨⟩
      refine ⟨(bytes.drop pos).take len, (bytes.drop pos).drop len, (take_append_drop ..).symm, ?_, ?_⟩
      all_goals rw [length_take, length_drop]; omega
    · rintro ⟨item, rest, -, rfl, rfl⟩
      rfl

/-- A kind of bytes behind a length that is written in `width` bytes. -/
def Sized (width : ℕ) (kind : ℕ → Bytes → Prop) (b : Bytes) : Prop :=
  ∃ v rest, v < 256 ^ width ∧ b = BigEndian.bytes width v ++ rest ∧ kind v rest

lemma skips_sized {width : ℕ} (hpos : pos ≤ bytes.length) (hwidth : width ≤ 8)
    {kind : ℕ → Bytes → Prop} {walk : ℕ × ℕ → Skip ℕ}
    (h : ∀ v stop, stop ≤ bytes.length → Skips bytes stop (kind v) (walk (v, stop))) :
    Skips bytes pos (Sized width kind) (readLen bytes width pos >>= walk) := by
  have hadd : add pos width = .ok (pos + width) := if_pos (by omega)
  by_cases hend : bytes.length < pos + width
  · have heq : (readLen bytes width pos >>= walk) = .error .invalidMessageFormat := by
      unfold readLen
      rw [hadd]
      change ((if bytes.length < pos + width then _ else _ : Skip (ℕ × ℕ)) >>= walk) = _
      rw [if_pos hend]
      rfl
    rw [heq]
    refine skips_error (by simp) ?_
    rintro item rest hdrop ⟨v, b, -, rfl, -⟩
    have hlength := length_drop_append hpos hdrop
    rw [length_append, bytes_length] at hlength
    omega
  · generalize hdigits : (bytes.drop pos).take width = digits
    have hlength : digits.length = width := by
      rw [← hdigits, length_take, length_drop]
      omega
    have heq : (readLen bytes width pos >>= walk) =
        walk (digits.foldl (fun acc b => acc * 256 + b.toNat) 0, pos + width) := by
      unfold readLen slice
      rw [hadd]
      change ((if bytes.length < pos + width then _ else _ : Skip (ℕ × ℕ)) >>= walk) = _
      rw [if_neg hend, if_pos ⟨by omega, by omega⟩, Nat.add_sub_cancel_left, hdigits]
      rfl
    have hbig := bytes_foldl digits
    have hlt := foldl_lt digits
    rw [hlength] at hbig hlt
    have hdrop : bytes.drop pos = digits ++ bytes.drop (pos + width) := by
      rw [← drop_drop, ← hdigits, take_append_drop]
    have hwalk := h (digits.foldl (fun acc b => acc * 256 + b.toNat) 0) (pos + width) (by omega)
    rw [heq]
    refine ⟨hwalk.safe, fun stop => (hwalk.ok_iff stop).trans ⟨?_, ?_⟩⟩
    · rintro ⟨item, rest, hitem, rfl, hkind⟩
      refine ⟨digits ++ item, rest, by rw [hdrop, hitem, append_assoc], ?_, _, item, hlt, ?_, hkind⟩
      · rw [length_append, hlength, Nat.add_assoc]
      · rw [hbig]
    · rintro ⟨item, rest, hitem, rfl, v, b, hv, rfl, hkind⟩
      rw [hdrop, append_assoc] at hitem
      obtain ⟨hsame, hrest⟩ := append_inj hitem (by rw [hlength, bytes_length])
      have hvalue : digits.foldl (fun acc b => acc * 256 + b.toNat) 0 = v := by
        rw [hsame, foldl_bytes width v 0 hv, Nat.zero_mul, Nat.zero_add]
      rw [hvalue]
      refine ⟨b, rest, hrest, ?_, hkind⟩
      rw [length_append, bytes_length, Nat.add_assoc]

end Walks

section Values

/-- A number of values that have fewer than so many containers around what is in them. -/
def Items (levels count : ℕ) (b : Bytes) : Prop :=
  ∃ items : List (Shape × Bytes), items.length = count ∧
    (∀ item ∈ items, Formatted item.1 item.2 ∧ item.1.enclosure < levels) ∧ b = items.flatMap Prod.snd

def Follows (levels : ℕ) (m : UInt8) (b : Bytes) : Prop :=
  match markerAction m with
  | .invalid => False
  | .immediate => b = []
  | .fixed len => b.length = len
  | .str =>
    if m.toNat < 0xc0 then b.length = m.toNat % 0x20
    else Sized (2 ^ (m.toNat - 0xd9)) (fun len s => s.length = len) b
  | .bin => Sized (2 ^ (m.toNat - 0xc4)) (fun len s => s.length = len) b
  | .ext => Sized (2 ^ (m.toNat - 0xc7)) (fun len s => s.length = len + 1) b
  | .array =>
    if m.toNat < 0xc0 then Items levels (m.toNat % 0x10) b
    else Sized (2 ^ (m.toNat - 0xdb)) (Items levels) b
  | .map =>
    if m.toNat < 0xc0 then Items levels (2 * (m.toNat % 0x10)) b
    else Sized (2 ^ (m.toNat - 0xdd)) (fun n => Items levels (2 * n)) b

lemma enclosures_le {shapes : List Shape} {n : ℕ} :
    Shape.enclosures shapes ≤ n ↔ ∀ t ∈ shapes, t.enclosure < n := by
  induction shapes with
  | nil => simp [Shape.enclosures]
  | cons t shapes ih =>
    rw [Shape.enclosures, max_le_iff, ih, forall_mem_cons, Nat.succ_le_iff]

lemma Formatted.ne_nil {t : Shape} (h : Formatted t b) : b ≠ [] := by
  cases h <;> exact cons_ne_nil _ _

lemma Items.le_length {count : ℕ} (h : Items levels count b) : count ≤ b.length := by
  obtain ⟨items, rfl, hitems, rfl⟩ := h
  induction items with
  | nil => exact Nat.zero_le _
  | cons item items ih =>
    obtain ⟨hitem, hitems⟩ := forall_mem_cons.mp hitems
    have hpos := length_pos_iff.mpr hitem.1.ne_nil
    have hle := ih hitems
    rw [flatMap_cons, length_append, length_cons]
    omega

lemma toNat_marker {n : ℕ} (hn : n < 0x100) : (UInt8.ofNat n).toNat = n := UInt8.toNat_ofNat_of_lt' hn

/-- The markers whose values are walked over in a way. -/
def SkipAction.Markers (n : ℕ) : SkipAction → Prop
  | .invalid => n = 0xc1
  | .immediate => n < 0x80 ∨ 0xe0 ≤ n ∨ n = 0xc0 ∨ n = 0xc2 ∨ n = 0xc3
  | .fixed len => (∃ k < 2, n = 0xca + k ∧ len = 4 * 2 ^ k) ∨ (∃ k < 4, n = 0xcc + k ∧ len = 2 ^ k) ∨
    (∃ k < 4, n = 0xd0 + k ∧ len = 2 ^ k) ∨ ∃ k < 5, n = 0xd4 + k ∧ len = 2 ^ k + 1
  | .str => 0xa0 ≤ n ∧ n < 0xc0 ∨ 0xd9 ≤ n ∧ n < 0xdc
  | .bin => 0xc4 ≤ n ∧ n < 0xc7
  | .ext => 0xc7 ≤ n ∧ n < 0xca
  | .array => 0x90 ≤ n ∧ n < 0xa0 ∨ 0xdc ≤ n ∧ n < 0xde
  | .map => 0x80 ≤ n ∧ n < 0x90 ∨ 0xde ≤ n ∧ n < 0xe0

instance (n : ℕ) (action : SkipAction) : Decidable (action.Markers n) := by
  cases action <;> dsimp only [SkipAction.Markers] <;> infer_instance

lemma markerAction_markers : ∀ n < 0x100, (markerAction (UInt8.ofNat n)).Markers n := by
  decide +kernel

/-- The values behind a header, if the header does not announce more of them than there are bytes left. -/
lemma skips_items {bytes : Bytes} {skip : ℕ → Skip ℕ}
    (h : ∀ pos ≤ bytes.length, Skips bytes pos (fun b => ∃ t, Formatted t b ∧ t.enclosure < levels) (skip pos))
    (hpos : pos ≤ bytes.length) (count : ℕ) :
    Skips bytes pos (Items levels count) (do
      if (← sub bytes.length pos) < count then .error .invalidMessageFormat else skipMany skip count pos) := by
  rw [show sub bytes.length pos = .ok (bytes.length - pos) from if_pos hpos]
  change Skips _ _ _ (if _ then _ else _)
  split_ifs with hcount
  · refine skips_error (by simp) fun item rest hdrop hitems => ?_
    have := hitems.le_length
    have := length_drop_append hpos hdrop
    omega
  · exact skips_many h count hpos

/-- The pairs behind a header, if the header does not announce more of them than there are bytes left. -/
lemma skips_pairs {bytes : Bytes} (hbytes : bytes.length + 8 < 2 ^ 64) {skip : ℕ → Skip ℕ}
    (h : ∀ pos ≤ bytes.length, Skips bytes pos (fun b => ∃ t, Formatted t b ∧ t.enclosure < levels) (skip pos))
    (hpos : pos ≤ bytes.length) (n : ℕ) :
    Skips bytes pos (Items levels (2 * n)) (do
      if (← sub bytes.length pos) / 2 < n then .error .invalidMessageFormat
      else skipMany skip (← add n n) pos) := by
  rw [show sub bytes.length pos = .ok (bytes.length - pos) from if_pos hpos]
  change Skips _ _ _ (if _ then _ else _)
  split_ifs with hcount
  · refine skips_error (by simp) fun item rest hdrop hitems => ?_
    have := hitems.le_length
    have := length_drop_append hpos hdrop
    omega
  · rw [show add n n = .ok (2 * n) by rw [two_mul]; exact if_pos (by omega)]
    exact skips_many h (2 * n) hpos

section Actions

variable {bytes : Bytes} (hbytes : bytes.length + 8 < 2 ^ 64) {pos : ℕ} (hpos : pos ≤ bytes.length)
include hbytes hpos

variable {m : ℕ}

lemma skips_str (hm : 0xa0 ≤ m ∧ m < 0xc0 ∨ 0xd9 ≤ m ∧ m < 0xdc) :
    Skips bytes pos (fun b => if m < 0xc0 then b.length = m % 0x20
      else Sized (2 ^ (m - 0xd9)) (fun len s => s.length = len) b) (skipStr bytes m pos) := by
  unfold skipStr
  by_cases hfix : m < 0xc0
  · rw [if_pos (by omega)]
    exact (skips_payload hbytes hpos _).congr fun b => by rw [if_pos hfix]
  · rw [if_neg (by omega)]
    simp only [if_neg hfix]
    obtain ⟨hlo, hhi⟩ : 0xd9 ≤ m ∧ m < 0xdc := by omega
    interval_cases m <;>
      exact skips_sized hbytes hpos (by decide) fun v stop hstop => skips_payload hbytes hstop v

lemma skips_bin (hm : 0xc4 ≤ m ∧ m < 0xc7) :
    Skips bytes pos (Sized (2 ^ (m - 0xc4)) fun len s => s.length = len) (skipBin bytes m pos) := by
  unfold skipBin
  obtain ⟨hlo, hhi⟩ := hm
  interval_cases m <;>
    exact skips_sized hbytes hpos (by decide) fun v stop hstop => skips_payload hbytes hstop v

lemma skips_ext (hm : 0xc7 ≤ m ∧ m < 0xca) :
    Skips bytes pos (Sized (2 ^ (m - 0xc7)) fun len s => s.length = len + 1) (skipExt bytes m pos) := by
  have hdata (len stop : ℕ) (hstop : stop ≤ bytes.length) :
      Skips bytes stop (fun s => s.length = len + 1) (do
        if (← sub bytes.length stop) ≤ len then .error .invalidMessageFormat
        else skipPayload bytes (← add len 1) stop) := by
    rw [show sub bytes.length stop = .ok (bytes.length - stop) from if_pos hstop]
    change Skips _ _ _ (if _ then _ else _)
    split_ifs with hlen
    · refine skips_error (by simp) fun item rest hdrop hlength => ?_
      have := length_drop_append hstop hdrop
      omega
    · rw [show add len 1 = .ok (len + 1) from if_pos (by omega)]
      exact skips_payload hbytes hstop (len + 1)
  unfold skipExt
  obtain ⟨hlo, hhi⟩ := hm
  interval_cases m <;> exact skips_sized hbytes hpos (by decide) hdata

variable {skip : ℕ → Skip ℕ} {levels : ℕ}
  (h : ∀ pos ≤ bytes.length, Skips bytes pos (fun b => ∃ t, Formatted t b ∧ t.enclosure < levels) (skip pos))
include h

lemma skips_array (hm : 0x90 ≤ m ∧ m < 0xa0 ∨ 0xdc ≤ m ∧ m < 0xde) :
    Skips bytes pos (fun b => if m < 0xc0 then Items levels (m % 0x10) b
      else Sized (2 ^ (m - 0xdb)) (Items levels) b) (skipArray bytes skip m pos) := by
  unfold skipArray
  by_cases hfix : m < 0xc0
  · rw [if_pos (by omega)]
    exact (skips_items h hpos (m % 0x10)).congr fun b => by rw [if_pos hfix]
  · rw [if_neg (by omega)]
    simp only [if_neg hfix]
    obtain ⟨hlo, hhi⟩ : 0xdc ≤ m ∧ m < 0xde := by omega
    interval_cases m <;>
      exact skips_sized hbytes hpos (by decide) fun v stop hstop => skips_items h hstop v

lemma skips_map (hm : 0x80 ≤ m ∧ m < 0x90 ∨ 0xde ≤ m ∧ m < 0xe0) :
    Skips bytes pos (fun b => if m < 0xc0 then Items levels (2 * (m % 0x10)) b
      else Sized (2 ^ (m - 0xdd)) (fun n => Items levels (2 * n)) b) (skipMap bytes skip m pos) := by
  unfold skipMap
  by_cases hfix : m < 0xc0
  · rw [if_pos (by omega)]
    exact (skips_pairs hbytes h hpos (m % 0x10)).congr fun b => by rw [if_pos hfix]
  · rw [if_neg (by omega)]
    simp only [if_neg hfix]
    obtain ⟨hlo, hhi⟩ : 0xde ≤ m ∧ m < 0xe0 := by omega
    interval_cases m <;>
      exact skips_sized hbytes hpos (by decide) fun v stop hstop => skips_pairs hbytes h hstop v

end Actions

lemma Formatted.follows {t : Shape} (h : Formatted t item)
    (ht : t.enclosure ≤ levels) : ∃ m b, item = m :: b ∧ Follows levels m b := by
  have hitems {items : List (Shape × Bytes)} (hlevels : (Shape.node (items.map Prod.fst)).enclosure ≤ levels)
      (hformatted : ∀ item ∈ items, Formatted item.1 item.2) {count : ℕ} (hcount : items.length = count) :
      Items levels count (items.flatMap Prod.snd) := by
    refine ⟨items, hcount, fun item hmem => ⟨hformatted item hmem, ?_⟩, rfl⟩
    exact enclosures_le.mp hlevels item.1 (mem_map_of_mem hmem)
  cases h with
  | positiveFixint hn =>
    refine ⟨_, _, rfl, ?_⟩
    have haction : ∀ n < 0x80, markerAction (UInt8.ofNat n) = .immediate := by decide
    simp only [Follows, haction _ hn]
  | negativeFixint hn =>
    refine ⟨_, _, rfl, ?_⟩
    have haction : ∀ n < 0x20, markerAction (UInt8.ofNat (0xe0 + n)) = .immediate := by decide
    simp only [Follows, haction _ hn]
  | nil => exact ⟨_, _, rfl, rfl⟩
  | bool b => cases b <;> exact ⟨_, _, rfl, rfl⟩
  | @float k _ hk hlength => exact ⟨_, _, rfl, by interval_cases k <;> exact hlength⟩
  | @uint k _ hk hlength => exact ⟨_, _, rfl, by interval_cases k <;> exact hlength⟩
  | @int k _ hk hlength => exact ⟨_, _, rfl, by interval_cases k <;> exact hlength⟩
  | @fixstr s hs =>
    refine ⟨_, _, rfl, ?_⟩
    have haction : ∀ n < 0x20, markerAction (UInt8.ofNat (0xa0 + n)) = .str := by decide
    simp only [Follows, haction _ hs]
    rw [toNat_marker (by omega), if_pos (by omega)]
    omega
  | @str k _ hk hs => exact ⟨_, _, rfl, by interval_cases k <;> exact ⟨_, _, hs, rfl, rfl⟩⟩
  | @bin k _ hk hs => exact ⟨_, _, rfl, by interval_cases k <;> exact ⟨_, _, hs, rfl, rfl⟩⟩
  | @fixext k _ type hk hlength =>
    exact ⟨_, _, rfl, by interval_cases k <;> exact congrArg Nat.succ hlength⟩
  | @ext k _ type hk hdata => exact ⟨_, _, rfl, by interval_cases k <;> exact ⟨_, _, hdata, rfl, rfl⟩⟩
  | @fixarray items hlength hformatted =>
    refine ⟨_, _, rfl, ?_⟩
    have haction : ∀ n < 0x10, markerAction (UInt8.ofNat (0x90 + n)) = .array := by decide
    simp only [Follows, haction _ hlength]
    rw [toNat_marker (by omega), if_pos (by omega)]
    exact hitems ht hformatted (by omega)
  | @array k _ hk hlength hformatted =>
    exact ⟨_, _, rfl, by interval_cases k <;> exact ⟨_, _, hlength, rfl, hitems ht hformatted rfl⟩⟩
  | @fixmap n items hn hlength hformatted =>
    refine ⟨_, _, rfl, ?_⟩
    have haction : ∀ n < 0x10, markerAction (UInt8.ofNat (0x80 + n)) = .map := by decide
    simp only [Follows, haction _ hn]
    rw [toNat_marker (by omega), if_pos (by omega)]
    exact hitems ht hformatted (by omega)
  | @map k n _ hk hn hlength hformatted =>
    exact ⟨_, _, rfl, by interval_cases k <;> exact ⟨_, _, hn, rfl, hitems ht hformatted hlength⟩⟩

lemma Items.formatted {count : ℕ} (h : Items levels count b) :
    ∃ items : List (Shape × Bytes), items.length = count ∧ (∀ item ∈ items, Formatted item.1 item.2) ∧
      (Shape.node (items.map Prod.fst)).enclosure ≤ levels ∧ b = items.flatMap Prod.snd := by
  obtain ⟨items, hlength, hitems, rfl⟩ := h
  refine ⟨items, hlength, fun item hmem => (hitems item hmem).1, enclosures_le.mpr fun t ht => ?_, rfl⟩
  obtain ⟨item, hmem, rfl⟩ := mem_map.mp ht
  exact (hitems item hmem).2

lemma formatted_of_follows {m : UInt8} (h : Follows levels m b) :
    ∃ t, Formatted t (m :: b) ∧ t.enclosure ≤ levels := by
  have hleaf {item : Bytes} (hitem : Formatted .leaf item) :
      ∃ t, Formatted t item ∧ t.enclosure ≤ levels := ⟨.leaf, hitem, Nat.zero_le _⟩
  obtain ⟨n, hn, rfl⟩ : ∃ n, n < 0x100 ∧ m = UInt8.ofNat n := ⟨m.toNat, m.toNat_lt, by simp⟩
  have hmarkers := markerAction_markers n hn
  unfold Follows at h
  rw [toNat_marker hn] at h
  cases haction : markerAction (UInt8.ofNat n) <;> rw [haction] at h hmarkers
  case invalid => exact h.elim
  case immediate =>
    obtain rfl : b = [] := h
    obtain hm | hm | rfl | rfl | rfl := hmarkers
    · exact hleaf (.positiveFixint hm)
    · obtain ⟨k, rfl⟩ := Nat.exists_eq_add_of_le hm
      exact hleaf (.negativeFixint (by omega))
    · exact hleaf .nil
    · exact hleaf (.bool false)
    · exact hleaf (.bool true)
  case fixed =>
    obtain ⟨k, hk, rfl, rfl⟩ | ⟨k, hk, rfl, rfl⟩ | ⟨k, hk, rfl, rfl⟩ | ⟨k, hk, rfl, rfl⟩ := hmarkers
    · exact hleaf (.float hk h)
    · exact hleaf (.uint hk h)
    · exact hleaf (.int hk h)
    · obtain ⟨type, data, rfl⟩ := exists_cons_of_length_eq_add_one h
      exact hleaf (.fixext type hk (Nat.succ.inj h))
  case str =>
    obtain hm | ⟨hm, hhi⟩ := hmarkers
    · dsimp only at h
      rw [if_pos hm.2] at h
      obtain ⟨k, rfl⟩ := Nat.exists_eq_add_of_le hm.1
      obtain rfl : k = b.length := by omega
      exact hleaf (.fixstr (by omega))
    · dsimp only at h
      rw [if_neg (by omega)] at h
      obtain ⟨k, rfl⟩ := Nat.exists_eq_add_of_le hm
      rw [Nat.add_sub_cancel_left] at h
      obtain ⟨_, s, hs, rfl, rfl⟩ := h
      exact hleaf (.str (by omega) hs)
  case bin =>
    obtain ⟨k, rfl⟩ := Nat.exists_eq_add_of_le hmarkers.1
    rw [Nat.add_sub_cancel_left] at h
    obtain ⟨_, s, hs, rfl, rfl⟩ := h
    exact hleaf (.bin (Nat.lt_of_add_lt_add_left hmarkers.2) hs)
  case ext =>
    obtain ⟨k, rfl⟩ := Nat.exists_eq_add_of_le hmarkers.1
    rw [Nat.add_sub_cancel_left] at h
    obtain ⟨len, s, hs, rfl, hlength⟩ := h
    obtain ⟨type, data, rfl⟩ := exists_cons_of_length_eq_add_one hlength
    obtain rfl : data.length = len := Nat.succ.inj hlength
    exact hleaf (.ext type (Nat.lt_of_add_lt_add_left hmarkers.2) hs)
  case array =>
    obtain hm | ⟨hm, hhi⟩ := hmarkers
    · dsimp only at h
      rw [if_pos (by omega)] at h
      obtain ⟨k, rfl⟩ := Nat.exists_eq_add_of_le hm.1
      obtain ⟨items, hlength, hformatted, hlevels, rfl⟩ := h.formatted
      obtain rfl : k = items.length := by omega
      exact ⟨_, .fixarray (by omega) hformatted, hlevels⟩
    · dsimp only at h
      rw [if_neg (by omega)] at h
      obtain ⟨k, rfl⟩ := Nat.exists_eq_add_of_le hm
      rw [show 0xdc + k - 0xdb = k + 1 by omega] at h
      obtain ⟨_, _, hlt, rfl, hitems⟩ := h
      obtain ⟨items, rfl, hformatted, hlevels, rfl⟩ := hitems.formatted
      exact ⟨_, .array (by omega) hlt hformatted, hlevels⟩
  case map =>
    obtain hm | ⟨hm, hhi⟩ := hmarkers
    · dsimp only at h
      rw [if_pos (by omega)] at h
      obtain ⟨k, rfl⟩ := Nat.exists_eq_add_of_le hm.1
      obtain ⟨items, hlength, hformatted, hlevels, rfl⟩ := h.formatted
      exact ⟨_, .fixmap (n := k) (by omega) (by omega) hformatted, hlevels⟩
    · dsimp only at h
      rw [if_neg (by omega)] at h
      obtain ⟨k, rfl⟩ := Nat.exists_eq_add_of_le hm
      rw [show 0xde + k - 0xdd = k + 1 by omega] at h
      obtain ⟨_, _, hlt, rfl, hitems⟩ := h
      obtain ⟨items, hlength, hformatted, hlevels, rfl⟩ := hitems.formatted
      exact ⟨_, .map (by omega) hlt hlength hformatted, hlevels⟩

lemma skips_follows {bytes : Bytes} (hbytes : bytes.length + 8 < 2 ^ 64) (hpos : pos ≤ bytes.length)
    {skip : ℕ → Skip ℕ}
    (h : ∀ pos ≤ bytes.length, Skips bytes pos (fun b => ∃ t, Formatted t b ∧ t.enclosure < levels) (skip pos))
    (marker : UInt8) : Skips bytes pos (Follows levels marker)
      (match markerAction marker with
      | .invalid => .error .invalidMessageFormat
      | .immediate => .ok pos
      | .fixed len => skipPayload bytes len pos
      | .str => skipStr bytes marker.toNat pos
      | .bin => skipBin bytes marker.toNat pos
      | .array => skipArray bytes skip marker.toNat pos
      | .map => skipMap bytes skip marker.toNat pos
      | .ext => skipExt bytes marker.toNat pos) := by
  have hmarkers := markerAction_markers marker.toNat marker.toNat_lt
  rw [UInt8.ofNat_toNat] at hmarkers
  unfold Follows
  cases haction : markerAction marker <;> rw [haction] at hmarkers
  case invalid => exact skips_error (by simp) fun _ _ _ hnone => hnone
  case immediate => exact skips_nothing
  case fixed len => exact skips_payload hbytes hpos len
  case str => exact skips_str hbytes hpos hmarkers
  case bin => exact skips_bin hbytes hpos hmarkers
  case array => exact skips_array hbytes hpos h hmarkers
  case map => exact skips_map hbytes hpos h hmarkers
  case ext => exact skips_ext hbytes hpos hmarkers

lemma skips_value {bytes : Bytes} (hbytes : bytes.length + 8 < 2 ^ 64) (levels : ℕ)
    (hpos : pos ≤ bytes.length) :
    Skips bytes pos (fun b => ∃ t, Formatted t b ∧ t.enclosure < levels) (skipValueDepth bytes levels pos) := by
  induction levels generalizing pos with
  | zero =>
    refine skips_error (by simp) ?_
    rintro - - - ⟨t, -, ht⟩
    exact Nat.not_lt_zero _ ht
  | succ levels ih =>
    rw [skipValueDepth]
    split_ifs with hend
    · refine skips_error (by simp) ?_
      rintro item rest hdrop ⟨t, hformatted, -⟩
      rw [drop_eq_nil_of_le hend] at hdrop
      exact hformatted.ne_nil (append_eq_nil_iff.mp hdrop.symm).1
    · have hlt : pos < bytes.length := by omega
      rw [show byteAt bytes pos = .ok bytes[pos] by simp [byteAt, hlt],
        show add pos 1 = .ok (pos + 1) from if_pos (by omega)]
      have hafter := skips_follows hbytes (Nat.succ_le_of_lt hlt) (fun pos hpos => ih hpos) bytes[pos]
      refine hafter.cons hlt (fun b => ?_) fun ⟨t, ht, _⟩ => ht.ne_nil rfl
      · constructor
        · rintro ⟨t, hformatted, ht⟩
          obtain ⟨m, b', heq, hfollows⟩ := hformatted.follows (Nat.le_of_lt_succ ht)
          obtain ⟨rfl, rfl⟩ := List.cons.inj heq
          exact hfollows
        · intro hfollows
          obtain ⟨t, hformatted, ht⟩ := formatted_of_follows hfollows
          exact ⟨t, hformatted, Nat.lt_succ_of_le ht⟩

end Values

section Nesting

/-- A walk over a value does not trap. It succeeds exactly if a value of the formats is in the buffer at the
position, and every value in it is in at most 32 containers: it ends behind the value. -/
theorem skipValue_ok_iff {bytes : Bytes} (hbytes : bytes.length + 8 < 2 ^ 64) (pos : ℕ) :
    skipValue bytes pos ≠ .error .trap ∧ ∀ stop, skipValue bytes pos = .ok stop ↔
      ∃ before item rest t, bytes = before ++ item ++ rest ∧ before.length = pos ∧
        stop = pos + item.length ∧ Formatted t item ∧ t.enclosure ≤ 32 := by
  by_cases hpos : pos ≤ bytes.length
  · have hwalk := skips_value hbytes 33 hpos
    refine ⟨hwalk.safe, fun stop => (hwalk.ok_iff stop).trans ⟨?_, ?_⟩⟩
    · rintro ⟨item, rest, hdrop, hstop, t, hformatted, ht⟩
      refine ⟨bytes.take pos, item, rest, t, ?_, length_take_of_le hpos, hstop, hformatted, ?_⟩
      · rw [List.append_assoc, ← hdrop, take_append_drop]
      · exact Nat.le_of_lt_succ ht
    · rintro ⟨before, item, rest, t, heq, rfl, hstop, hformatted, ht⟩
      refine ⟨item, rest, ?_, hstop, t, hformatted, Nat.lt_succ_of_le ht⟩
      rw [heq, List.append_assoc, drop_left]
  · have herror : skipValue bytes pos = .error .invalidMessageFormat := by
      rw [skipValue, skipValueDepth, if_pos (by omega)]
    rw [herror]
    refine ⟨by simp, fun stop => ⟨nofun, ?_⟩⟩
    rintro ⟨before, item, rest, t, heq, rfl, -⟩
    have hlength := congrArg List.length heq
    simp only [length_append] at hlength
    omega

/-- Behind a byte, an array with a header of 16 bits, of an extension, a text and a map that holds a double
and an array; another byte follows. -/
def mixed : Bytes := [0xc0, 0xdc, 0, 3, 0xc7, 1, 5, 9, 0xda, 0, 1, 0x61, 0x82, 0xa1, 0x62, 0xcb, 0, 0, 0, 0, 0, 0,
  0, 0, 0xa1, 0x63, 0x91, 0x90, 0xc1]

theorem skipValue_ok_iff_mixed : skipValue mixed 1 = .ok 28 ∧ ∃ before item rest t,
    mixed = before ++ item ++ rest ∧ before.length = 1 ∧ 28 = 1 + item.length ∧ Formatted t item ∧
      t.enclosure ≤ 32 := by
  have hwalk : skipValue mixed 1 = .ok 28 := by decide
  exact ⟨hwalk, ((skipValue_ok_iff (by decide) 1).2 28).mp hwalk⟩

lemma Formatted.of_fixarray {t : Shape} {n : ℕ} (h : Formatted t item) (hn : n < 0x10)
    (hitem : item = UInt8.ofNat (0x90 + n) :: b) : ∃ items : List (Shape × Bytes), items.length = n ∧
      (∀ item ∈ items, Formatted item.1 item.2) ∧ t = .node (items.map Prod.fst) ∧
      b = items.flatMap Prod.snd := by
  have hother {k : ℕ} (hk : k < 0x100) (hne : k ≠ 0x90 + n) : UInt8.ofNat k ≠ UInt8.ofNat (0x90 + n) := by
    intro heq
    have := congrArg UInt8.toNat heq
    rw [toNat_marker hk, toNat_marker (by omega)] at this
    exact hne this
  have hhead := congrArg List.head? hitem
  cases h
  case fixarray items hlength hformatted =>
    obtain ⟨hm, rfl⟩ := List.cons.inj hitem
    have hcount := congrArg UInt8.toNat hm
    rw [toNat_marker (by omega), toNat_marker (by omega)] at hcount
    exact ⟨items, by omega, hformatted, rfl, rfl⟩
  case nil => exact absurd (Option.some.inj hhead) (hother (k := 0xc0) (by omega) (by omega))
  case bool b =>
    cases b
    · exact absurd (Option.some.inj hhead) (hother (k := 0xc2) (by omega) (by omega))
    · exact absurd (Option.some.inj hhead) (hother (k := 0xc3) (by omega) (by omega))
  all_goals exact absurd (Option.some.inj hhead) (hother (by omega) (by omega))

/-- An array around an array, and so on; the innermost is empty. -/
def nested : ℕ → Bytes
  | 0 => [0x90]
  | n + 1 => 0x91 :: nested n

lemma Formatted.height_nested {n : ℕ} {t : Shape} {rest : Bytes} (h : Formatted t item)
    (heq : nested n = item ++ rest) : n + 1 ≤ t.height := by
  induction n generalizing t item rest with
  | zero =>
    obtain ⟨m, b, rfl, -⟩ := h.follows le_rfl
    obtain ⟨rfl, -⟩ := List.cons.inj heq
    obtain ⟨items, -, -, rfl, -⟩ := h.of_fixarray (n := 0) (by omega) rfl
    rw [Shape.height]
    omega
  | succ n ih =>
    obtain ⟨m, b, rfl, -⟩ := h.follows le_rfl
    obtain ⟨rfl, hbehind⟩ := List.cons.inj heq
    obtain ⟨items, hlength, hformatted, rfl, rfl⟩ := h.of_fixarray (n := 1) (by omega) rfl
    obtain ⟨item, rfl⟩ := length_eq_one_iff.mp hlength
    have hle := ih (hformatted item mem_cons_self) (by simpa using hbehind)
    simp only [map_cons, map_nil, Shape.height, Shape.heights]
    omega

/-- Of 33 arrays in each other the innermost may be empty. -/
theorem skipValue_not_height_le : ¬ ∀ bytes : Bytes, bytes.length + 8 < 2 ^ 64 → ∀ pos stop,
    skipValue bytes pos = .ok stop ↔ ∃ before item rest t, bytes = before ++ item ++ rest ∧
      before.length = pos ∧ stop = pos + item.length ∧ Formatted t item ∧ t.height ≤ 32 := by
  intro h
  have hok : skipValue (nested 32) 0 = .ok 33 := by decide +kernel
  obtain ⟨before, item, rest, t, heq, hbefore, -, hformatted, hheight⟩ :=
    (h (nested 32) (by decide +kernel) 0 33).mp hok
  rw [length_eq_zero_iff.mp hbefore, nil_append] at heq
  have hle := hformatted.height_nested heq
  omega

end Nesting

end Wire
end ZyncBase
