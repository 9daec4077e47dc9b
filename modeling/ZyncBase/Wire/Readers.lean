import ZyncBase.Wire.Skip

/-! The readers of strings, numbers and headers in MessagePack bytes, and what each of them reads. -/
namespace ZyncBase

open BigEndian List

namespace Wire

section Model

variable (bytes : Bytes)

def readMarker (pos : ℕ) : Skip (UInt8 × ℕ) :=
  if bytes.length ≤ pos then .error .invalidMessageFormat
  else do
    let m ← byteAt bytes pos
    return (m, ← add pos 1)

/-- The next bytes, as many as a length says. -/
def readSlice (len pos : ℕ) : Skip (Bytes × ℕ) := do
  let stop ← add pos len
  if bytes.length < stop then .error .invalidMessageFormat
  else return (← slice bytes pos stop, stop)

def readMapHeader (pos : ℕ) : Skip (ℕ × ℕ) := do
  let (m, pos) ← readMarker bytes pos
  if 0x80 ≤ m.toNat ∧ m.toNat ≤ 0x8f then return (m.toNat % 0x10, pos)
  else
    match m.toNat with
    | 0xde => readLen bytes 2 pos
    | 0xdf => readLen bytes 4 pos
    | _ => .error .invalidMessageFormat

def readStr (pos : ℕ) : Skip (Bytes × ℕ) := do
  let (m, pos) ← readMarker bytes pos
  if 0xa0 ≤ m.toNat ∧ m.toNat ≤ 0xbf then readSlice bytes (m.toNat % 0x20) pos
  else
    match m.toNat with
    | 0xd9 => do let (len, pos) ← readLen bytes 1 pos; readSlice bytes len pos
    | 0xda => do let (len, pos) ← readLen bytes 2 pos; readSlice bytes len pos
    | 0xdb => do let (len, pos) ← readLen bytes 4 pos; readSlice bytes len pos
    | _ => .error .invalidMessageFormat

def readU64 (pos : ℕ) : Skip (ℕ × ℕ) := do
  let (m, pos) ← readMarker bytes pos
  if m.toNat ≤ 0x7f then return (m.toNat, pos)
  else
    match m.toNat with
    | 0xcc => readLen bytes 1 pos
    | 0xcd => readLen bytes 2 pos
    | 0xce => readLen bytes 4 pos
    | 0xcf => readLen bytes 8 pos
    | _ => .error .invalidMessageFormat

def readBool (pos : ℕ) : Skip (Bool × ℕ) := do
  let (m, pos) ← readMarker bytes pos
  match m.toNat with
  | 0xc2 => return (false, pos)
  | 0xc3 => return (true, pos)
  | _ => .error .invalidMessageFormat

end Model

section Readers

variable {E α β : Type} {trap : E} {bytes : Bytes} {pos : ℕ}

/-- A reader at the position does not trap, and gives a value exactly if bytes for it come there, behind
which it ends. -/
structure Reads {E α : Type} (trap : E) (bytes : Bytes) (pos : ℕ) (kind : α → Bytes → Prop)
    (walk : Except E (α × ℕ)) : Prop where
  safe : walk ≠ .error trap
  ok_iff : ∀ a stop, walk = .ok (a, stop) ↔
    ∃ item rest, bytes.drop pos = item ++ rest ∧ stop = pos + item.length ∧ kind a item

variable {kind : α → Bytes → Prop} {walk : Except E (α × ℕ)}

lemma Reads.congr {kind' : α → Bytes → Prop} (h : Reads trap bytes pos kind walk)
    (hkind : ∀ a b, kind a b ↔ kind' a b) : Reads trap bytes pos kind' walk where
  safe := h.safe
  ok_iff a stop := by simp only [h.ok_iff, hkind]

lemma reads_error {e : E} (he : e ≠ trap)
    (hnone : ∀ a item rest, bytes.drop pos = item ++ rest → ¬ kind a item) :
    Reads trap bytes pos kind (.error e) where
  safe h := he (Except.error.inj h)
  ok_iff a stop := by
    refine ⟨nofun, ?_⟩
    rintro ⟨item, rest, hdrop, -, hkind⟩
    exact absurd hkind (hnone a item rest hdrop)

lemma reads_pure (a : α) : Reads trap bytes pos (fun c b => c = a ∧ b = []) (.ok (a, pos)) where
  safe := nofun
  ok_iff c stop := by
    constructor
    · rintro ⟨⟩
      exact ⟨[], bytes.drop pos, rfl, rfl, rfl, rfl⟩
    · rintro ⟨item, rest, -, rfl, rfl, rfl⟩
      rfl

lemma Reads.stop_le (h : Reads trap bytes pos kind walk) (hpos : pos ≤ bytes.length) {a : α} {stop : ℕ}
    (hwalk : walk = .ok (a, stop)) : stop ≤ bytes.length := by
  obtain ⟨item, rest, hdrop, rfl, -⟩ := (h.ok_iff a stop).mp hwalk
  exact length_drop_append hpos hdrop

lemma Reads.bind {kind' : α → β → Bytes → Prop} {next : α × ℕ → Except E (β × ℕ)}
    (h : Reads trap bytes pos kind walk) (hpos : pos ≤ bytes.length)
    (hnext : ∀ a stop, (∃ b, kind a b) → stop ≤ bytes.length → Reads trap bytes stop (kind' a) (next (a, stop))) :
    Reads trap bytes pos (fun c b => ∃ a first second, b = first ++ second ∧ kind a first ∧ kind' a c second)
      (walk >>= next) := by
  cases hwalk : walk with
  | error e =>
    refine ⟨fun he => h.safe (hwalk.trans (congrArg _ (Except.error.inj he))), fun c stop => ⟨nofun, ?_⟩⟩
    rintro ⟨_, rest, hdrop, -, a, first, second, rfl, hfirst, -⟩
    rw [List.append_assoc] at hdrop
    have hok := (h.ok_iff a _).mpr ⟨first, _, hdrop, rfl, hfirst⟩
    rw [hwalk] at hok
    cases hok
  | ok result =>
    obtain ⟨a, middle⟩ := result
    have hle := h.stop_le hpos hwalk
    obtain ⟨first, rest, hdrop, rfl, hfirst⟩ := (h.ok_iff a middle).mp hwalk
    have hafter := hnext a _ ⟨first, hfirst⟩ hle
    refine ⟨hafter.safe, fun c stop => (hafter.ok_iff c stop).trans ⟨?_, ?_⟩⟩
    · rintro ⟨second, rest', hdrop', rfl, hsecond⟩
      rw [drop_of_append hdrop] at hdrop'
      refine ⟨_, rest', by rw [hdrop, hdrop', List.append_assoc], ?_, a, first, second, rfl, hfirst, hsecond⟩
      rw [length_append, Nat.add_assoc]
    · rintro ⟨_, rest', hdrop', rfl, a', first', second, rfl, hfirst', hsecond⟩
      rw [List.append_assoc] at hdrop'
      have hok := (h.ok_iff a' _).mpr ⟨first', _, hdrop', rfl, hfirst'⟩
      rw [hwalk, Except.ok.injEq, Prod.mk.injEq, Nat.add_right_inj] at hok
      obtain ⟨rfl, hlength⟩ := hok
      rw [hlength, drop_of_append hdrop']
      refine ⟨second, rest', rfl, ?_, hsecond⟩
      rw [length_append, Nat.add_assoc]

lemma Reads.map (h : Reads trap bytes pos kind walk) (hpos : pos ≤ bytes.length) (f : α → β) :
    Reads trap bytes pos (fun c b => ∃ a, c = f a ∧ kind a b) (walk >>= fun (a, stop) => .ok (f a, stop)) := by
  refine (h.bind hpos fun a stop _ _ => reads_pure (f a)).congr fun c b => ⟨?_, ?_⟩
  · rintro ⟨a, first, _, rfl, hfirst, rfl, rfl⟩
    exact ⟨a, rfl, by rwa [append_nil]⟩
  · rintro ⟨a, rfl, h⟩
    exact ⟨a, b, [], (append_nil b).symm, h, rfl, rfl⟩

lemma Reads.mapError {E' : Type} {f : E → E'} (hf : Function.Injective f)
    (h : Reads trap bytes pos kind walk) : Reads (f trap) bytes pos kind (walk.mapError f) := by
  cases hwalk : walk with
  | error e =>
    rw [hwalk] at h
    exact ⟨fun he => h.safe (congrArg _ (hf (Except.error.inj he))),
      fun a stop => ⟨nofun, fun hitem => nomatch (h.ok_iff a stop).mpr hitem⟩⟩
  | ok result =>
    rw [hwalk] at h
    refine ⟨nofun, fun a stop => Iff.trans ?_ (h.ok_iff a stop)⟩
    rw [Except.mapError, Except.ok.injEq, Except.ok.injEq]

section

variable (hpos : pos ≤ bytes.length) (hbytes : bytes.length + 2 ^ 32 < 2 ^ 64)
include hpos hbytes

omit hpos in
lemma reads_marker : Reads .trap bytes pos (fun m b => b = [m]) (readMarker bytes pos) := by
  unfold readMarker
  split_ifs with hend
  · refine reads_error (by simp) ?_
    rintro m _ rest hdrop rfl
    rw [drop_eq_nil_of_le hend] at hdrop
    cases hdrop
  · have hlt : pos < bytes.length := by omega
    rw [show byteAt bytes pos = .ok bytes[pos] by simp [byteAt, hlt],
      show add pos 1 = .ok (pos + 1) from if_pos (by omega)]
    refine ⟨fun herror => (by cases herror), fun m stop => ⟨?_, ?_⟩⟩
    · rintro ⟨⟩
      exact ⟨[bytes[pos]], bytes.drop (pos + 1), drop_eq_getElem_cons hlt, rfl, rfl⟩
    · rintro ⟨_, rest, hdrop, rfl, rfl⟩
      rw [drop_eq_getElem_cons hlt] at hdrop
      obtain ⟨rfl, -⟩ := List.cons.inj hdrop
      rfl

lemma reads_slice {len : ℕ} (hlen : len < 2 ^ 32) :
    Reads .trap bytes pos (fun s b => s.length = len ∧ b = s) (readSlice bytes len pos) := by
  unfold readSlice
  rw [show add pos len = .ok (pos + len) from if_pos (by omega)]
  change Reads _ _ _ _ (if _ then _ else _)
  split_ifs with hend
  · refine reads_error (by simp) ?_
    rintro s _ rest hdrop ⟨hlength, rfl⟩
    have := length_drop_append hpos hdrop
    omega
  · rw [slice, if_pos (by omega), Nat.add_sub_cancel_left]
    have hlength : ((bytes.drop pos).take len).length = len := by
      rw [length_take, length_drop]
      omega
    refine ⟨nofun, fun s stop => ⟨?_, ?_⟩⟩
    · rintro ⟨⟩
      exact ⟨_, (bytes.drop pos).drop len, (take_append_drop ..).symm, by rw [hlength], hlength, rfl⟩
    · rintro ⟨_, rest, hdrop, rfl, rfl, rfl⟩
      rw [hdrop, take_left]
      rfl

lemma reads_len {n : ℕ} (hn : n ≤ 8) :
    Reads .trap bytes pos (fun v b => v < 256 ^ n ∧ b = BigEndian.bytes n v) (readLen bytes n pos) := by
  have hslice : readLen bytes n pos = readSlice bytes n pos >>= fun (digits, stop) =>
      .ok (digits.foldl (fun acc b => acc * 256 + b.toNat) 0, stop) := by
    unfold readLen readSlice
    rw [show add pos n = .ok (pos + n) from if_pos (by omega)]
    change (if _ then _ else _) = (if _ then _ else _ : Skip (Bytes × ℕ)) >>= _
    split_ifs with hend
    · rfl
    · cases slice bytes pos (pos + n) <;> rfl
  rw [hslice]
  have hread := reads_slice hpos hbytes (show n < 2 ^ 32 by omega)
  have hvalue (digits : Bytes) (stop : ℕ) : Reads SkipError.trap bytes stop
      (fun v b => v = digits.foldl (fun acc b => acc * 256 + b.toNat) 0 ∧ b = [])
      (.ok (digits.foldl (fun acc b => acc * 256 + b.toNat) 0, stop)) := reads_pure _
  refine (hread.bind hpos fun digits stop _ _ => hvalue digits stop).congr fun v b => ?_
  constructor
  · rintro ⟨_, digits, _, rfl, ⟨rfl, rfl⟩, rfl, rfl⟩
    exact ⟨foldl_lt digits, by rw [bytes_foldl, append_nil]⟩
  · rintro ⟨hv, rfl⟩
    refine ⟨_, _, [], (append_nil _).symm, ⟨bytes_length n v, rfl⟩, ?_, rfl⟩
    rw [foldl_bytes n v 0 hv, Nat.zero_mul, Nat.zero_add]

end

section Formats

def StrFormat (s b : Bytes) : Prop :=
  s.length < 0x20 ∧ b = UInt8.ofNat (0xa0 + s.length) :: s ∨ ∃ k < 3, s.length < 256 ^ 2 ^ k ∧
    b = UInt8.ofNat (0xd9 + k) :: (BigEndian.bytes (2 ^ k) s.length ++ s)

/-- The formats of a number that is not negative. -/
def U64Format (v : ℕ) (b : Bytes) : Prop :=
  v < 0x80 ∧ b = [UInt8.ofNat v] ∨ ∃ k < 4, v < 256 ^ 2 ^ k ∧
    b = UInt8.ofNat (0xcc + k) :: BigEndian.bytes (2 ^ k) v

def BoolFormat (v : Bool) (b : Bytes) : Prop := b = [if v then 0xc3 else 0xc2]

/-- The headers of a map of so many entries. -/
def MapFormat (n : ℕ) (b : Bytes) : Prop :=
  n < 0x10 ∧ b = [UInt8.ofNat (0x80 + n)] ∨ ∃ k < 2, n < 256 ^ 2 ^ (k + 1) ∧
    b = UInt8.ofNat (0xde + k) :: BigEndian.bytes (2 ^ (k + 1)) n

lemma reads_family {n base count : ℕ} {short : Prop} [Decidable short] {kshort : α → Bytes → Prop}
    {kind : ℕ → α → Bytes → Prop} {first second : Skip (α × ℕ)} (hbase : short → n < base)
    (hfirst : short → Reads .trap bytes pos kshort first)
    (hfamily : ∀ k < count, n = base + k → Reads .trap bytes pos (kind k) second)
    (hother : ¬ short → (∀ k < count, n ≠ base + k) → second = .error .invalidMessageFormat) :
    Reads .trap bytes pos (fun a b => short ∧ kshort a b ∨ ∃ k < count, n = base + k ∧ kind k a b)
      (if short then first else second) := by
  split_ifs with hshort
  · refine (hfirst hshort).congr fun a b => ⟨fun h => .inl ⟨hshort, h⟩, ?_⟩
    rintro (⟨-, h⟩ | ⟨k, -, rfl, -⟩)
    · exact h
    · exact absurd (hbase hshort) (by omega)
  · by_cases hk : ∃ k < count, n = base + k
    · obtain ⟨k, hlt, rfl⟩ := hk
      refine (hfamily k hlt rfl).congr fun a b => ⟨fun h => .inr ⟨k, hlt, rfl, h⟩, ?_⟩
      rintro (⟨h, -⟩ | ⟨k', -, heq, h⟩)
      · exact absurd h hshort
      · obtain rfl := Nat.add_left_cancel heq
        exact h
    · rw [hother hshort fun k hlt heq => hk ⟨k, hlt, heq⟩]
      refine reads_error (by simp) ?_
      rintro a item rest - (⟨h, -⟩ | ⟨k, hlt, heq, -⟩)
      · exact hshort h
      · exact hk ⟨k, hlt, heq⟩

variable (hpos : pos ≤ bytes.length) (hbytes : bytes.length + 2 ^ 32 < 2 ^ 64)
include hpos hbytes

lemma reads_marked (kind : ℕ → α → Bytes → Prop) {next : UInt8 × ℕ → Skip (α × ℕ)}
    (h : ∀ n < 0x100, ∀ stop ≤ bytes.length, Reads .trap bytes stop (kind n) (next (UInt8.ofNat n, stop))) :
    Reads .trap bytes pos (fun a b => ∃ n < 0x100, ∃ rest, b = UInt8.ofNat n :: rest ∧ kind n a rest)
      (readMarker bytes pos >>= next) := by
  have hnext (m : UInt8) (stop : ℕ) (hstop : stop ≤ bytes.length) :
      Reads .trap bytes stop (kind m.toNat) (next (m, stop)) := by
    have hmarker := h m.toNat m.toNat_lt stop hstop
    rwa [UInt8.ofNat_toNat] at hmarker
  refine ((reads_marker hbytes).bind hpos fun m stop _ hstop => hnext m stop hstop).congr fun a b => ⟨?_, ?_⟩
  · rintro ⟨m, _, rest, rfl, rfl, hrest⟩
    exact ⟨m.toNat, m.toNat_lt, rest, by rw [UInt8.ofNat_toNat]; rfl, hrest⟩
  · rintro ⟨n, hn, rest, rfl, hrest⟩
    exact ⟨UInt8.ofNat n, _, rest, rfl, rfl, by rwa [toNat_marker hn]⟩

lemma reads_u64 : Reads .trap bytes pos U64Format (readU64 bytes pos) := by
  refine (reads_marked hpos hbytes (fun n v b => n ≤ 0x7f ∧ (v = n ∧ b = []) ∨ ∃ k < 4, n = 0xcc + k ∧
    (v < 256 ^ 2 ^ k ∧ b = BigEndian.bytes (2 ^ k) v)) ?_).congr ?_
  · intro n hn stop hstop
    dsimp only
    rw [toNat_marker hn]
    refine reads_family (by omega) (fun _ => reads_pure n) ?_ ?_
    · rintro k hk rfl
      interval_cases k <;> exact reads_len hstop hbytes (by decide)
    · intro _ hother
      split
      · exact absurd rfl (hother 0 (by omega))
      · exact absurd rfl (hother 1 (by omega))
      · exact absurd rfl (hother 2 (by omega))
      · exact absurd rfl (hother 3 (by omega))
      · rfl
  · intro v b
    constructor
    · rintro ⟨n, -, rest, rfl, ⟨hn, rfl, rfl⟩ | ⟨k, hk, rfl, hv, rfl⟩⟩
      · exact .inl ⟨by omega, rfl⟩
      · exact .inr ⟨k, hk, hv, rfl⟩
    · rintro (⟨hv, rfl⟩ | ⟨k, hk, hv, rfl⟩)
      · exact ⟨v, by omega, [], rfl, .inl ⟨by omega, rfl, rfl⟩⟩
      · exact ⟨_, by omega, _, rfl, .inr ⟨k, hk, rfl, hv, rfl⟩⟩

lemma reads_bool : Reads .trap bytes pos BoolFormat (readBool bytes pos) := by
  refine (reads_marked hpos hbytes (fun n v b => False ∧ False ∨ ∃ k < 2, n = 0xc2 + k ∧
    (v = decide (k = 1) ∧ b = [])) ?_).congr ?_
  · intro n hn stop hstop
    dsimp only
    rw [toNat_marker hn]
    change Reads _ _ _ _ (if False then .error .invalidMessageFormat else _)
    refine reads_family nofun nofun ?_ ?_
    · rintro k hk rfl
      interval_cases k <;> exact reads_pure _
    · intro _ hother
      split
      · exact absurd rfl (hother 0 (by omega))
      · exact absurd rfl (hother 1 (by omega))
      · rfl
  · intro v b
    constructor
    · rintro ⟨n, -, rest, rfl, ⟨⟨⟩, -⟩ | ⟨k, hk, rfl, rfl, rfl⟩⟩
      interval_cases k <;> rfl
    · rintro rfl
      cases v
      · exact ⟨0xc2, by omega, [], rfl, .inr ⟨0, by omega, rfl, rfl, rfl⟩⟩
      · exact ⟨0xc3, by omega, [], rfl, .inr ⟨1, by omega, rfl, rfl, rfl⟩⟩

lemma reads_mapHeader : Reads .trap bytes pos MapFormat (readMapHeader bytes pos) := by
  refine (reads_marked hpos hbytes (fun n v b => (0x80 ≤ n ∧ n ≤ 0x8f) ∧ (v = n % 0x10 ∧ b = []) ∨
    ∃ k < 2, n = 0xde + k ∧ (v < 256 ^ 2 ^ (k + 1) ∧ b = BigEndian.bytes (2 ^ (k + 1)) v)) ?_).congr ?_
  · intro n hn stop hstop
    dsimp only
    rw [toNat_marker hn]
    refine reads_family (by omega) (fun _ => reads_pure (n % 0x10)) ?_ ?_
    · rintro k hk rfl
      interval_cases k <;> exact reads_len hstop hbytes (by decide)
    · intro _ hother
      split
      · exact absurd rfl (hother 0 (by omega))
      · exact absurd rfl (hother 1 (by omega))
      · rfl
  · intro v b
    constructor
    · rintro ⟨n, -, rest, rfl, ⟨hn, rfl, rfl⟩ | ⟨k, hk, rfl, hv, rfl⟩⟩
      · refine .inl ⟨by omega, ?_⟩
        rw [show 0x80 + n % 0x10 = n by omega]
      · exact .inr ⟨k, hk, hv, rfl⟩
    · rintro (⟨hv, rfl⟩ | ⟨k, hk, hv, rfl⟩)
      · exact ⟨0x80 + v, by omega, [], rfl, .inl ⟨by omega, by omega, rfl⟩⟩
      · exact ⟨_, by omega, _, rfl, .inr ⟨k, hk, rfl, hv, rfl⟩⟩

lemma reads_str : Reads .trap bytes pos StrFormat (readStr bytes pos) := by
  refine (reads_marked hpos hbytes (fun n s b => (0xa0 ≤ n ∧ n ≤ 0xbf) ∧ (s.length = n % 0x20 ∧ b = s) ∨
    ∃ k < 3, n = 0xd9 + k ∧ ∃ len first second, b = first ++ second ∧
      (len < 256 ^ 2 ^ k ∧ first = BigEndian.bytes (2 ^ k) len) ∧ (s.length = len ∧ second = s)) ?_).congr ?_
  · intro n hn stop hstop
    dsimp only
    rw [toNat_marker hn]
    refine reads_family (by omega) (fun _ => reads_slice hstop hbytes (by omega)) ?_ ?_
    · rintro k hk rfl
      have hpow : 256 ^ 2 ^ k ≤ 2 ^ 32 := by interval_cases k <;> decide
      have hafter (len stop : ℕ) (h : ∃ b, len < 256 ^ 2 ^ k ∧ b = BigEndian.bytes (2 ^ k) len)
          (hstop : stop ≤ bytes.length) := reads_slice hstop hbytes (h.choose_spec.1.trans_le hpow)
      interval_cases k <;> exact (reads_len hstop hbytes (by decide)).bind hstop hafter
    · intro _ hother
      split
      · exact absurd rfl (hother 0 (by omega))
      · exact absurd rfl (hother 1 (by omega))
      · exact absurd rfl (hother 2 (by omega))
      · rfl
  · intro s b
    constructor
    · rintro ⟨n, -, rest, rfl, ⟨hn, hs, rfl⟩ | ⟨k, hk, rfl, len, first, second, rfl, ⟨hlen, rfl⟩, rfl, rfl⟩⟩
      · refine .inl ⟨by omega, ?_⟩
        rw [hs, show 0xa0 + n % 0x20 = n by omega]
      · exact .inr ⟨k, hk, hlen, rfl⟩
    · rintro (⟨hs, rfl⟩ | ⟨k, hk, hs, rfl⟩)
      · exact ⟨0xa0 + s.length, by omega, s, rfl, .inl ⟨by omega, by omega, rfl⟩⟩
      · exact ⟨_, by omega, _, rfl, .inr ⟨k, hk, rfl, _, _, _, rfl, ⟨hs, rfl⟩, rfl, rfl⟩⟩

end Formats

end Readers

end Wire
end ZyncBase
