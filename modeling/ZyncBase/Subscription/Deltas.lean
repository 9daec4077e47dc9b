import ZyncBase.Subscription.Registration

/-! The deltas of a change: the subscription worker encodes once what they share and sends a delta to
every match. -/
namespace ZyncBase

open AssocMap

/-- A delta from its operation on: a record that was set, or the id of one that was removed. -/
inductive DeltaSuffix where
  | set (tableIndex : ℕ) (record : Record)
  | remove (tableIndex : ℕ) (id : Value)

structure StoreDelta where
  subscriptionId : ℕ
  suffix : DeltaSuffix

structure DeltaSuffixes where
  set : Option DeltaSuffix := none
  remove : Option DeltaSuffix := none

def DeltaSuffixes.of (suffixes : DeltaSuffixes) : MatchOp → Option DeltaSuffix
  | .setOp => suffixes.set
  | .remove => suffixes.remove

section Worker

variable (t : Table) (change : OwnedRecordChange) (id : Value)

/-- The suffix for a match, unless it is there already. A record has as many values as its table has
fields. -/
def encodeDeltaSuffix (suffixes : DeltaSuffixes) : MatchOp → Option DeltaSuffixes
  | .setOp =>
    if suffixes.set.isSome then some suffixes
    else match change.newRecord with
      | none => none
      | some r =>
        if r.values.length ≠ t.fields.length then none
        else some { suffixes with set := some (.set t.index r) }
  | .remove =>
    if suffixes.remove.isSome then some suffixes
    else some { suffixes with remove := some (.remove t.index id) }

def encodeDeltaSuffixes : List Match → DeltaSuffixes → Option DeltaSuffixes
  | [], suffixes => some suffixes
  | m :: ms, suffixes =>
    match encodeDeltaSuffix t change id suffixes m.op with
    | none => none
    | some suffixes =>
      if suffixes.set.isSome && suffixes.remove.isSome then some suffixes
      else encodeDeltaSuffixes ms suffixes

/-- The messages for the matches, with the connections they go to. Matches of one subscription id and
operation share a message. -/
def dispatchDeltasToMatches (suffixes : DeltaSuffixes) :
    List Match → List ((ℕ × MatchOp) × StoreDelta) → List (ℕ × StoreDelta)
  | [], _ => []
  | m :: ms, messages =>
    match suffixes.of m.op with
    | none => dispatchDeltasToMatches suffixes ms messages
    | some suffix =>
      match find eqKey (m.subscriptionId, m.op) messages with
      | some message => (m.connectionId, message) :: dispatchDeltasToMatches suffixes ms messages
      | none =>
        let message : StoreDelta := ⟨m.subscriptionId, suffix⟩
        (m.connectionId, message) :: dispatchDeltasToMatches suffixes ms
          (put eqKey (m.subscriptionId, m.op) message messages)

end Worker

section Exactness

variable {s : Schema} {e : SubscriptionEngine} {t : Table} {change : OwnedRecordChange} {id : Value}
  {suffixes : DeltaSuffixes} {ms : List Match}

/-- The suffix that the matches of an operation are owed. -/
def OwnedRecordChange.suffix (change : OwnedRecordChange) : MatchOp → Option DeltaSuffix
  | .setOp => change.newRecord.map (.set change.key.tableIndex)
  | .remove => some (.remove change.key.tableIndex (.scalar (.docId change.key.id)))

/-- The suffixes that are there are those that are owed. -/
def DeltaSuffixes.Right (suffixes : DeltaSuffixes) (change : OwnedRecordChange) : Prop :=
  ∀ op, suffixes.of op = none ∨ suffixes.of op = change.suffix op

lemma DeltaSuffixes.right_empty (change : OwnedRecordChange) : DeltaSuffixes.Right {} change := by
  intro op
  cases op with
  | setOp => exact .inl rfl
  | remove => exact .inl rfl

lemma encodeDeltaSuffix_spec {op : MatchOp} (hindex : t.index = change.key.tableIndex)
    (hid : id = .scalar (.docId change.key.id)) (hright : suffixes.Right change)
    (hset : op = .setOp → ∃ r, change.newRecord = some r ∧ r.values.length = t.fields.length) :
    ∃ suffixes', encodeDeltaSuffix t change id suffixes op = some suffixes' ∧
      suffixes'.Right change ∧ suffixes'.of op = change.suffix op ∧
      ∀ op', (suffixes.of op').isSome → suffixes'.of op' = suffixes.of op' := by
  cases op with
  | setOp =>
    obtain ⟨r, hr, hlength⟩ := hset rfl
    rw [encodeDeltaSuffix]
    by_cases hthere : suffixes.set.isSome
    · rw [if_pos hthere]
      refine ⟨suffixes, rfl, hright, (hright .setOp).resolve_left fun hnone => ?_, fun _ _ => rfl⟩
      change suffixes.set = none at hnone
      rw [hnone] at hthere
      cases hthere
    · rw [if_neg hthere, hr]
      dsimp only
      rw [if_neg (not_not_intro hlength), hindex]
      have hnew : some (DeltaSuffix.set change.key.tableIndex r) = change.suffix .setOp := by
        rw [OwnedRecordChange.suffix, hr]
        rfl
      refine ⟨_, rfl, fun op => ?_, hnew, fun op hop => ?_⟩
      · cases op with
        | setOp => exact .inr hnew
        | remove => exact hright .remove
      · cases op with
        | setOp => exact absurd hop hthere
        | remove => rfl
  | remove =>
    rw [encodeDeltaSuffix]
    by_cases hthere : suffixes.remove.isSome
    · rw [if_pos hthere]
      refine ⟨suffixes, rfl, hright, (hright .remove).resolve_left fun hnone => ?_, fun _ _ => rfl⟩
      change suffixes.remove = none at hnone
      rw [hnone] at hthere
      cases hthere
    · rw [if_neg hthere, hindex, hid]
      refine ⟨_, rfl, fun op => ?_, rfl, fun op hop => ?_⟩
      · cases op with
        | setOp => exact hright .setOp
        | remove => exact .inr rfl
      · cases op with
        | setOp => rfl
        | remove => exact absurd hop hthere

lemma encodeDeltaSuffixes_spec (hindex : t.index = change.key.tableIndex)
    (hid : id = .scalar (.docId change.key.id)) (hright : suffixes.Right change)
    (hset : ∀ m ∈ ms, m.op = .setOp →
      ∃ r, change.newRecord = some r ∧ r.values.length = t.fields.length) :
    ∃ suffixes', encodeDeltaSuffixes t change id ms suffixes = some suffixes' ∧
      (∀ m ∈ ms, suffixes'.of m.op = change.suffix m.op) ∧
      ∀ op, (suffixes.of op).isSome → suffixes'.of op = suffixes.of op := by
  induction ms generalizing suffixes with
  | nil => exact ⟨suffixes, rfl, by simp, fun _ _ => rfl⟩
  | cons m ms ih =>
    rw [List.forall_mem_cons] at hset
    obtain ⟨suffixes₁, hencode, hright₁, hof, hkept⟩ :=
      encodeDeltaSuffix_spec hindex hid hright hset.1
    rw [encodeDeltaSuffixes, hencode]
    dsimp only
    by_cases hboth : (suffixes₁.set.isSome && suffixes₁.remove.isSome) = true
    · -- Both suffixes are there, so the rest of the matches needs nothing more.
      rw [if_pos hboth]
      rw [Bool.and_eq_true] at hboth
      refine ⟨suffixes₁, rfl, fun m' _ => (hright₁ m'.op).resolve_left fun hnone => ?_, hkept⟩
      cases hop : m'.op with
      | setOp =>
        rw [hop] at hnone
        change suffixes₁.set = none at hnone
        rw [hnone] at hboth
        cases hboth.1
      | remove =>
        rw [hop] at hnone
        change suffixes₁.remove = none at hnone
        rw [hnone] at hboth
        cases hboth.2
    · rw [if_neg hboth]
      obtain ⟨suffixes₂, hrest, hms, hkept₂⟩ := ih hright₁ hset.2
      have hsuffix : (change.suffix m.op).isSome := by
        cases hop : m.op with
        | setOp =>
          obtain ⟨r, hr, _⟩ := hset.1 hop
          rw [OwnedRecordChange.suffix, hr]
          rfl
        | remove => rfl
      refine ⟨suffixes₂, hrest, List.forall_mem_cons.mpr ⟨?_, hms⟩, fun op hop => ?_⟩
      · rw [hkept₂ m.op (by rwa [hof]), hof]
      · have hsame := hkept op hop
        rw [hkept₂ op (by rwa [hsame]), hsame]

lemma dispatchDeltasToMatches_eq {messages : List ((ℕ × MatchOp) × StoreDelta)}
    (hcached : ∀ subId op message, find eqKey (subId, op) messages = some message →
      ∀ suffix, suffixes.of op = some suffix → message = ⟨subId, suffix⟩) :
    dispatchDeltasToMatches suffixes ms messages = ms.filterMap fun m =>
      (suffixes.of m.op).map fun suffix => (m.connectionId, ⟨m.subscriptionId, suffix⟩) := by
  induction ms generalizing messages with
  | nil => rfl
  | cons m ms ih =>
    rw [dispatchDeltasToMatches]
    cases hof : suffixes.of m.op with
    | none =>
      dsimp only
      rw [ih hcached, List.filterMap_cons_none (by rw [hof]; rfl)]
    | some suffix =>
      dsimp only
      rw [List.filterMap_cons_some (by rw [hof]; rfl)]
      cases hfind : find eqKey (m.subscriptionId, m.op) messages with
      | some message =>
        dsimp only
        rw [ih hcached, hcached _ _ _ hfind suffix hof]
      | none =>
        dsimp only
        rw [ih]
        intro subId op message hm suffix' hof'
        rw [find_put] at hm
        split_ifs at hm with hk
        · rw [eqKey_iff, Prod.mk.injEq] at hk
          obtain ⟨rfl, rfl⟩ := hk
          rw [hof, Option.some.injEq] at hof'
          cases hm
          rw [hof']
        · exact hcached subId op message hm suffix' hof'

/-- The change has a record, and its records have the values of their table. -/
def OwnedRecordChange.Deliverable (s : Schema) (change : OwnedRecordChange) : Prop :=
  (change.oldRecord.isSome ∨ change.newRecord.isSome) ∧ change.Records fun _ => Record.Fits s

lemma newRecord_of_expected {reg : Registry} {key : SubscriberKey} {m : Match}
    (h : m ∈ expectedMatches reg change.recordChange key) (hop : m.op = .setOp) :
    ∃ r, change.newRecord = some r := by
  rw [expectedMatches] at h
  cases hr : reg key with
  | none =>
    rw [hr] at h
    cases h
  | some p =>
    obtain ⟨coll, filter⟩ := p
    simp only [hr] at h
    split_ifs at h with hc hnew hold
    · cases h
    · cases hrecord : change.newRecord with
      | none =>
        change filter.predicate.matchesRecord change.newRecord = true at hnew
        rw [hrecord] at hnew
        cases hnew
      | some r => exact ⟨r, rfl⟩
    · rw [List.mem_singleton] at h
      rw [h] at hop
      cases hop
    · cases h

end Exactness
end ZyncBase
