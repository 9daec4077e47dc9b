import ZyncBase.Subscription.Deltas
import ZyncBase.Typed.MsgPack

/-! The bytes of the deltas of a change. What the matches of an operation share is encoded once and put
after the header and the id of each subscription; every message is what its delta is encoded to on its
own. -/
namespace ZyncBase

open AssocMap List Option

section Encoding

variable (encode : Payload → Bytes)

/-- An array of five, with the type of the message first. -/
def storeDeltaHeader : Bytes := [0x95, 0x18]

def DeltaSuffix.opCode : DeltaSuffix → ℕ
  | .set .. => 0
  | .remove .. => 1

def encodeRecord (r : Record) : Bytes :=
  encodeArrayHeader r.values.length ++ r.values.flatMap (encodeMsgPack encode)

def encodeSetDeltaSuffix (t : Table) (r : Record) : Option Bytes :=
  if r.values.length ≠ t.fields.length then none
  else some (encode (.uint 0) ++ encode (.uint t.index) ++ encodeRecord encode r)

def encodeDeleteDeltaSuffix (t : Table) (id : Value) : Bytes :=
  encode (.uint 1) ++ encode (.uint t.index) ++ encodeMsgPack encode id

def encodeStoreDelta (d : StoreDelta) : Bytes :=
  match d.suffix with
  | .set tableIndex r => encodeArrayHeader 5 ++ [0x18] ++ encode (.uint d.subscriptionId) ++
      encode (.uint 0) ++ encode (.uint tableIndex) ++
        (encodeArrayHeader r.values.length ++ r.values.flatMap (encodeMsgPack encode))
  | .remove tableIndex id => encodeArrayHeader 5 ++ [0x18] ++ encode (.uint d.subscriptionId) ++
      encode (.uint 1) ++ encode (.uint tableIndex) ++ encodeMsgPack encode id

structure SuffixBytes where
  set : Option Bytes := none
  remove : Option Bytes := none

def SuffixBytes.of (suffixes : SuffixBytes) : MatchOp → Option Bytes
  | .setOp => suffixes.set
  | .remove => suffixes.remove

section Worker

variable (t : Table) (change : OwnedRecordChange) (id : Value)

def encodeSuffixBytes (suffixes : SuffixBytes) : MatchOp → Option SuffixBytes
  | .setOp =>
    if suffixes.set.isSome then some suffixes
    else match change.newRecord with
      | none => none
      | some r => (encodeSetDeltaSuffix encode t r).map fun bytes => { suffixes with set := some bytes }
  | .remove =>
    if suffixes.remove.isSome then some suffixes
    else some { suffixes with remove := some (encodeDeleteDeltaSuffix encode t id) }

/-- The suffixes that the matches need, unless one cannot be encoded. -/
def encodeSuffixesBytes : List Match → SuffixBytes → Option SuffixBytes
  | [], suffixes => some suffixes
  | m :: ms, suffixes =>
    match encodeSuffixBytes encode t change id suffixes m.op with
    | none => none
    | some suffixes =>
      if suffixes.set.isSome && suffixes.remove.isSome then some suffixes
      else encodeSuffixesBytes ms suffixes

end Worker

/-- The entries of the send queue for the matches. A message that is made for a subscription id and an
operation is used again. -/
def dispatchBytesToMatches (suffixes : SuffixBytes) :
    List Match → List ((ℕ × MatchOp) × Bytes) → List (ℕ × Bytes)
  | [], _ => []
  | m :: ms, messages =>
    match suffixes.of m.op with
    | none => dispatchBytesToMatches suffixes ms messages
    | some suffix =>
      match find eqKey (m.subscriptionId, m.op) messages with
      | some message => (m.connectionId, message) :: dispatchBytesToMatches suffixes ms messages
      | none =>
        let message := storeDeltaHeader ++ encode (.uint m.subscriptionId) ++ suffix
        (m.connectionId, message) :: dispatchBytesToMatches suffixes ms
          (put eqKey (m.subscriptionId, m.op) message messages)

end Encoding

section Refinement

variable (encode : Payload → Bytes) {t : Table} {change : OwnedRecordChange} {id : Value}

def DeltaSuffix.bytes : DeltaSuffix → Bytes
  | .set tableIndex r => encode (.uint 0) ++ encode (.uint tableIndex) ++ encodeRecord encode r
  | .remove tableIndex id => encode (.uint 1) ++ encode (.uint tableIndex) ++ encodeMsgPack encode id

def DeltaSuffixes.bytes (suffixes : DeltaSuffixes) : SuffixBytes :=
  ⟨suffixes.set.map (DeltaSuffix.bytes encode), suffixes.remove.map (DeltaSuffix.bytes encode)⟩

lemma DeltaSuffixes.of_bytes (suffixes : DeltaSuffixes) (op : MatchOp) :
    (suffixes.bytes encode).of op = (suffixes.of op).map (DeltaSuffix.bytes encode) := by
  cases op <;> rfl

lemma encodeStoreDelta_eq (subscriptionId : ℕ) (suffix : DeltaSuffix) :
    storeDeltaHeader ++ encode (.uint subscriptionId) ++ suffix.bytes encode =
      encodeStoreDelta encode ⟨subscriptionId, suffix⟩ := by
  have hheader : storeDeltaHeader = encodeArrayHeader 5 ++ [0x18] := rfl
  rw [hheader]
  cases suffix with
  | set tableIndex r =>
    simp only [DeltaSuffix.bytes, encodeRecord, encodeStoreDelta, List.append_assoc]
  | remove tableIndex id => simp only [DeltaSuffix.bytes, encodeStoreDelta, List.append_assoc]

lemma encodeSuffixBytes_eq (suffixes : DeltaSuffixes) (op : MatchOp) :
    encodeSuffixBytes encode t change id (suffixes.bytes encode) op =
      (encodeDeltaSuffix t change id suffixes op).map (DeltaSuffixes.bytes encode) := by
  cases op with
  | setOp =>
    rw [encodeSuffixBytes, encodeDeltaSuffix, DeltaSuffixes.bytes, isSome_map]
    split_ifs with hset
    · rfl
    · cases change.newRecord with
      | none => rfl
      | some r =>
        dsimp only
        rw [encodeSetDeltaSuffix]
        split_ifs <;> rfl
  | remove =>
    rw [encodeSuffixBytes, encodeDeltaSuffix, DeltaSuffixes.bytes, isSome_map]
    split_ifs <;> rfl

lemma encodeSuffixesBytes_eq (ms : List Match) (suffixes : DeltaSuffixes) :
    encodeSuffixesBytes encode t change id ms (suffixes.bytes encode) =
      (encodeDeltaSuffixes t change id ms suffixes).map (DeltaSuffixes.bytes encode) := by
  induction ms generalizing suffixes with
  | nil => rfl
  | cons m ms ih =>
    rw [encodeSuffixesBytes, encodeDeltaSuffixes, encodeSuffixBytes_eq]
    cases encodeDeltaSuffix t change id suffixes m.op with
    | none => rfl
    | some suffixes' =>
      dsimp only [map_some]
      rw [ih, DeltaSuffixes.bytes, isSome_map, isSome_map]
      split_ifs <;> rfl

lemma dispatchBytesToMatches_eq (suffixes : DeltaSuffixes) (ms : List Match)
    (messages : List ((ℕ × MatchOp) × StoreDelta)) :
    dispatchBytesToMatches encode (suffixes.bytes encode) ms
        (messages.map fun e => (e.1, encodeStoreDelta encode e.2)) =
      (dispatchDeltasToMatches suffixes ms messages).map fun d => (d.1, encodeStoreDelta encode d.2) := by
  induction ms generalizing messages with
  | nil => rfl
  | cons m ms ih =>
    rw [dispatchBytesToMatches, dispatchDeltasToMatches, DeltaSuffixes.of_bytes]
    cases suffixes.of m.op with
    | none => exact ih messages
    | some suffix =>
      dsimp only [map_some]
      rw [find_mapped]
      cases find eqKey (m.subscriptionId, m.op) messages with
      | some message =>
        dsimp only [map_some]
        rw [ih, map_cons]
      | none =>
        dsimp only [map_none]
        rw [encodeStoreDelta_eq, put_mapped, ih, map_cons]

end Refinement

section Dispatch

variable {s : Schema} {t : Table} {change : OwnedRecordChange}

lemma nodup_keys {ms : List Match} {reg : Registry}
    (h : ∀ key, ms.filter (·.key = key) = expectedMatches reg change.recordChange key) :
    (ms.map Match.key).Nodup := by
  rw [nodup_iff_count_le_one]
  intro key
  have hone : (expectedMatches reg change.recordChange key).length ≤ 1 := by
    rw [expectedMatches]
    cases reg key with
    | none => exact Nat.zero_le 1
    | some p =>
      dsimp only
      split_ifs <;> simp
  have hcount : (ms.map Match.key).count key = (ms.filter (·.key = key)).length := by
    rw [List.count, countP_map, countP_eq_length_filter]
    exact congrArg List.length (filter_congr fun m _ => by simp [Bool.beq_eq_decide_eq])
  rw [hcount, h key]
  exact hone

/-- For each match of a change, and in their order, one message goes to its connection. Its bytes are
those of the delta of the subscription, encoded on its own. -/
theorem dispatched (encode : Payload → Bytes) {calls : List SubscriptionCall}
    (hcalls : ∀ coll filter key, .subscribe coll filter key ∈ calls → AcceptedFilter filter)
    (hc : change.Deliverable s) (ht : s.tableByIndex change.key.tableIndex = some t) :
    ∃ ms suffixes, (SubscriptionEngine.run calls).handleRecordChange change.recordChange = .ok ms ∧
      (ms.map Match.key).Nodup ∧
      encodeSuffixesBytes encode t change (.scalar (.docId change.key.id)) ms {} = some suffixes ∧
      List.Forall₂ (fun m entry => entry.1 = m.connectionId ∧ ∃ suffix,
        change.suffix m.op = some suffix ∧
          entry.2 = encodeStoreDelta encode ⟨m.subscriptionId, suffix⟩)
        ms (dispatchBytesToMatches encode suffixes ms []) := by
  have hcoherent := SubscriptionEngine.coherent_run calls fun coll filter key hm =>
    (hcalls coll filter key hm).hasOperands
  obtain ⟨ms, hms, hexact⟩ := hcoherent.handleRecordChange change.recordChange fun key coll filter hr =>
      (hcalls coll filter key (Registry.subscribed_of_run hr)).hasOperands
  have hset : ∀ m ∈ ms, m.op = .setOp → ∃ r, change.newRecord = some r ∧ r.values.length = t.fields.length := by
    intro m hm hop
    have hexpected : m ∈ expectedMatches (Registry.run calls) change.recordChange m.key := by
      rw [← hexact m.key]
      exact mem_filter.mpr ⟨hm, decide_eq_true rfl⟩
    obtain ⟨r, hr⟩ := newRecord_of_expected hexpected hop
    obtain ⟨t', ht', hlength, _⟩ := hc.2 r (Or.inr hr)
    rw [ht, Option.some.injEq] at ht'
    exact ⟨r, hr, ht' ▸ hlength⟩
  obtain ⟨suffixes, hencode, hof, _⟩ := encodeDeltaSuffixes_spec
    (index_of_tableByIndex ht) rfl (DeltaSuffixes.right_empty change) hset
  refine ⟨ms, suffixes.bytes encode, hms, nodup_keys hexact, ?_, ?_⟩
  · have hbytes := congrArg (Option.map (DeltaSuffixes.bytes encode)) hencode
    rw [← encodeSuffixesBytes_eq] at hbytes
    exact hbytes
  · have hdispatch := dispatchBytesToMatches_eq encode suffixes ms []
    rw [dispatchDeltasToMatches_eq fun _ _ _ hm => by cases hm] at hdispatch
    rw [map_nil] at hdispatch
    rw [hdispatch]
    clear hms hexact hencode hdispatch
    induction ms with
    | nil => exact .nil
    | cons m ms ih =>
      rw [forall_mem_cons] at hset hof
      obtain ⟨suffix, hsuffix⟩ : ∃ suffix, change.suffix m.op = some suffix := by
        cases hop : m.op with
        | setOp =>
          obtain ⟨r, hr, -⟩ := hset.1 hop
          exact ⟨_, congrArg (Option.map _) hr⟩
        | remove => exact ⟨_, rfl⟩
      rw [filterMap_cons_some (by rw [hof.1, hsuffix]; rfl), map_cons]
      exact .cons ⟨rfl, suffix, hsuffix, rfl⟩ (ih hset.2 hof.2)

end Dispatch
namespace DeltaExample

open MatchExample

def create : OwnedRecordChange where
  namespaceId := 1
  key := ⟨0, 7⟩
  operation := .insert
  oldRecord := none
  newRecord := some ⟨[.scalar (.docId 7), .scalar (.integer 1), .scalar (.docId 2),
    .scalar (.integer 50), .scalar (.integer 50)]⟩

lemma deliverable_create : create.Deliverable eventSchema := by
  refine ⟨.inr rfl, fun r hr => ?_⟩
  rcases hr with hr | hr
  · cases hr
  · cases hr
    exact ⟨eventTable, rfl, rfl, rfl⟩

lemma accepted_allEvents : AcceptedFilter allEvents := by
  have hprepared : prepareQueryRead (fun _ => none) eventSchema (.boolean true) {} ⟨7, 1⟩ 0 (.map [])
      none = .ok ⟨7, 0, 1, allEvents, none⟩ := rfl
  exact ⟨_, _, _, _, _, _, _, _, _, eventTable, rfl, rfl, hprepared, rfl⟩

theorem dispatched_create : ∃ ms suffixes,
    (SubscriptionEngine.run calls).handleRecordChange create.recordChange = .ok ms ∧ (ms.map Match.key).Nodup ∧
      encodeSuffixesBytes MsgPack.encode eventTable create (.scalar (.docId 7)) ms {} = some suffixes ∧
      List.Forall₂ (fun m entry => entry.1 = m.connectionId ∧ ∃ suffix, create.suffix m.op = some suffix ∧
          entry.2 = encodeStoreDelta MsgPack.encode ⟨m.subscriptionId, suffix⟩)
        ms (dispatchBytesToMatches MsgPack.encode suffixes ms []) := by
  refine dispatched MsgPack.encode (fun coll filter key hm => ?_) deliverable_create rfl
  simp only [calls, mem_cons, not_mem_nil, or_false, SubscriptionCall.subscribe.injEq, reduceCtorEq] at hm
  rcases hm with ⟨-, rfl, -⟩ | ⟨-, rfl, -⟩
  · exact accepted_allEvents
  · exact accepted_allEvents

end DeltaExample
end ZyncBase
