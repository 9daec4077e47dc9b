import ZyncBase.Lib.Outcome
import ZyncBase.Schema.Types

/-! Decoding of MessagePack payloads into typed values. -/
namespace ZyncBase

open Outcome

/-- A decoded MessagePack payload. Doubles keep their sign bit and the other 63 bits. -/
inductive Payload where
  | nil
  | bool (value : Bool)
  | int (value : ℤ)
  | uint (value : ℕ)
  | float (negative : Bool) (magnitude : ℕ)
  | str (value : Bytes)
  | bin (value : Bytes)
  | arr (items : List Payload)
  | map (entries : List (Payload × Payload))

/-- `aborted` stands for a checked cast or union access that stops the program. -/
inductive CodecError where
  | typeMismatch | overflow | invalidLength | nullNotAllowed | invalidArrayElement | aborted
  deriving DecidableEq, Repr

namespace Payload

def isNil : Payload → Bool
  | nil => true
  | _ => false

def toUsize : Payload → Option ℕ
  | uint v => some v
  | int v => if 0 ≤ v then some v.toNat else none
  | _ => none

def toInt : Payload → Except CodecError ℤ
  | int v => .ok v
  | uint v => if v < 2 ^ 63 then .ok v else .error .overflow
  | _ => .error .typeMismatch

/-- The encoding of the double nearest to a natural number, ties to even. -/
def magnitudeOfNat (n : ℕ) : ℕ :=
  if n = 0 then 0
  else
    let e := n.log2
    let significand :=
      if e ≤ 52 then n * 2 ^ (52 - e)
      else
        let quotient := n / 2 ^ (e - 52)
        let rest := n % 2 ^ (e - 52)
        let half := 2 ^ (e - 53)
        if half < rest ∨ (rest = half ∧ quotient % 2 = 1) then quotient + 1 else quotient
    (e + 1023) * 2 ^ 52 + (significand - 2 ^ 52)

def finiteReal (negative : Bool) (magnitude : ℕ) : Except CodecError Real64 :=
  if h : magnitude < 0x7FF0000000000000 then .ok ⟨negative, magnitude, h⟩
  else .error .typeMismatch

def toFloat : Payload → Except CodecError Real64
  | float negative magnitude => finiteReal negative magnitude
  | int v => finiteReal (v < 0) (magnitudeOfNat v.natAbs)
  | uint v => finiteReal false (magnitudeOfNat v)
  | _ => .error .typeMismatch

def toBool : Payload → Except CodecError Bool
  | bool v => .ok v
  | _ => .error .typeMismatch

end Payload

/-- Sixteen bytes in big-endian order. -/
def docIdFromBytes (bytes : Bytes) : Except CodecError DocId :=
  if bytes.length = 16 then
    .ok (Fin.ofNat _ (bytes.foldl (fun acc b => acc * 256 + b.toNat) 0))
  else .error .invalidLength

def scalarFromPayload (fieldType : FieldType) (p : Payload) : Except CodecError ScalarValue :=
  match fieldType, p with
  | .docId, .bin b => (docIdFromBytes b).map .docId
  | .docId, _ => .error .typeMismatch
  | .text, .str s => .ok (.text s)
  | .text, _ => .error .typeMismatch
  | .integer, p => p.toInt.map .integer
  | .real, p => p.toFloat.map .real
  | .boolean, p => p.toBool.map .boolean
  | .bytes, .bin b => .ok (.binary b)
  | .bytes, _ => .error .typeMismatch
  | .array, _ => .error .invalidArrayElement

def scalarsFromPayload (itemsType : FieldType) : List Payload → Except CodecError (List ScalarValue)
  | [] => .ok []
  | p :: ps => do
    if p.isNil then throw .nullNotAllowed
    let s ← scalarFromPayload itemsType p
    return s :: (← scalarsFromPayload itemsType ps)

def buildArrayValue (itemsType : Option FieldType) (p : Payload) : Except CodecError Value :=
  match itemsType, p with
  | none, _ => .error .typeMismatch
  | some t, .arr items => do return (Value.array (← scalarsFromPayload t items)).sortedSet
  | some _, _ => .error .aborted

def fromPayload (fieldType : FieldType) (itemsType : Option FieldType) (p : Payload) :
    Except CodecError Value :=
  if p.isNil then .ok .nil
  else if fieldType = .array then buildArrayValue itemsType p
  else do return .scalar (← scalarFromPayload fieldType p)

lemma scalarFromPayload_accepts {t : FieldType} {p : Payload} {s : ScalarValue}
    (h : scalarFromPayload t p = .ok s) : t.accepts s := by
  cases t with
  | docId =>
    cases p with
    | bin b => obtain ⟨id, -, rfl⟩ := map_eq_ok.mp h; rfl
    | _ => simp [scalarFromPayload] at h
  | text =>
    cases p with
    | str b => cases h; rfl
    | _ => simp [scalarFromPayload] at h
  | bytes =>
    cases p with
    | bin b => cases h; rfl
    | _ => simp [scalarFromPayload] at h
  | integer => obtain ⟨v, -, rfl⟩ := map_eq_ok.mp h; rfl
  | real => obtain ⟨v, -, rfl⟩ := map_eq_ok.mp h; rfl
  | boolean => obtain ⟨v, -, rfl⟩ := map_eq_ok.mp h; rfl
  | array => simp [scalarFromPayload] at h

lemma scalarsFromPayload_accepts {t : FieldType} {ps : List Payload} {ss : List ScalarValue}
    (h : scalarsFromPayload t ps = .ok ss) : ∀ s ∈ ss, t.accepts s := by
  induction ps generalizing ss with
  | nil => cases h; simp
  | cons p ps ih =>
    rw [scalarsFromPayload] at h
    split_ifs at h
    · obtain ⟨_, he, -⟩ := bind_eq_ok.mp h
      cases he
    · obtain ⟨s, hs, h⟩ := bind_eq_ok.mp h
      obtain ⟨rest, hr, h⟩ := bind_eq_ok.mp h
      cases h
      intro x hx
      rcases List.mem_cons.mp hx with rfl | hx
      · exact scalarFromPayload_accepts hs
      · exact ih hr x hx

/-- A value of a storage type: a scalar it accepts, or a strictly increasing array of items. -/
def DecodesAs (t : FieldType) (items : Option FieldType) : Value → Prop
  | .nil => False
  | .scalar s => t ≠ .array ∧ t.accepts s
  | .array ss => t = .array ∧ (∃ i, items = some i ∧ ∀ s ∈ ss, i.accepts s) ∧
      SortedSearch.Strict ScalarValue.order ss

lemma buildArrayValue_decodes {items : Option FieldType} {p : Payload} {v : Value}
    (h : buildArrayValue items p = .ok v) : DecodesAs .array items v := by
  cases items with
  | none => simp [buildArrayValue] at h
  | some t =>
    cases p with
    | arr ps =>
      obtain ⟨ss, hs, h⟩ := bind_eq_ok.mp h
      cases h
      exact ⟨rfl, ⟨t, rfl, fun s hm => scalarsFromPayload_accepts hs s
        (SortedSearch.mem_of_mem_sortedSet _ s ss hm)⟩, SortedSearch.strict_sortedSet _ ss⟩
    | _ => simp [buildArrayValue] at h

lemma fromPayload_decodes {t : FieldType} {items : Option FieldType} {p : Payload} {v : Value}
    (hp : p.isNil = false) (h : fromPayload t items p = .ok v) : DecodesAs t items v := by
  simp only [fromPayload, hp, Bool.false_eq_true, if_false] at h
  split_ifs at h with ht
  · subst ht
    exact buildArrayValue_decodes h
  · obtain ⟨s, hs, h⟩ := bind_eq_ok.mp h
    cases h
    exact ⟨ht, scalarFromPayload_accepts hs⟩

end ZyncBase
