import Mathlib.Algebra.Order.Ring.Rat
import Mathlib.Data.List.Nodup
import Mathlib.Data.List.Range

/-! The updates of its own presence that a client sends, at most one in an interval, and the promises of the
calls. What the client runs between two suspensions is one step. -/
namespace ZyncBase.Sdk

open List

/-- The fields of an update and their values. -/
abbrev PresenceData (V : Type) := String → Option V

def spreadData {V : Type} (pending data : PresenceData V) : PresenceData V := fun field =>
  (data field).or (pending field)

inductive ResetReason where
  | supersededByRemove
  | supersededByScopeChange
  | connectionClosed
  deriving DecidableEq, Repr

/-- How a promise is settled: as the dispatch that its waiter was handed to, or by a reset. -/
inductive SetOutcome (ε : Type) where
  | dispatch (outcome : Except ε Unit)
  | reset (reason : ResetReason)

/-- A dispatch, with the waiters that get its outcome. -/
structure PresenceDispatch (V ε : Type) where
  data : PresenceData V
  waiters : List ℕ
  outcome : Option (Except ε Unit) := none

/-- The promises are numbered by their calls. -/
structure PresenceSets (V ε : Type) where
  lastSetTime : ℚ := 0
  pendingSetData : Option (PresenceData V) := none
  pendingSetWaiters : List ℕ := []
  throttleTimer : Bool := false
  promises : ℕ := 0
  dispatches : List (PresenceDispatch V ε) := []
  settlements : List (ℕ × SetOutcome ε) := []

inductive PresenceSetEvent (V ε : Type) where
  | set (data : PresenceData V) (now : ℚ)
  | timer (now : ℚ)
  | answer (i : ℕ) (outcome : Except ε Unit)
  | remove
  | invalidate
  | disconnect

/-- What an event resets the throttle with. -/
def PresenceSetEvent.reason {V ε : Type} : PresenceSetEvent V ε → Option ResetReason
  | .remove => some .supersededByRemove
  | .invalidate => some .supersededByScopeChange
  | .disconnect => some .connectionClosed
  | _ => none

namespace PresenceSets

variable {V ε : Type}

def throttleInterval : ℚ := 16

def sendSet (data : PresenceData V) (waiters : List ℕ) (s : PresenceSets V ε) : PresenceSets V ε :=
  { s with dispatches := s.dispatches ++ [{ data, waiters }] }

/-- What a call does behind its waiter. -/
def throttle (data : PresenceData V) (now : ℚ) (s : PresenceSets V ε) : PresenceSets V ε :=
  if throttleInterval ≤ now - s.lastSetTime then
    sendSet (match s.pendingSetData with | some pending => spreadData pending data | none => data)
      s.pendingSetWaiters
      { s with throttleTimer := false, pendingSetData := none, lastSetTime := now, pendingSetWaiters := [] }
  else
    { s with
      pendingSetData := some (spreadData (s.pendingSetData.getD fun _ => none) data)
      throttleTimer := true }

def set (data : PresenceData V) (now : ℚ) (s : PresenceSets V ε) : PresenceSets V ε :=
  throttle data now { s with
    pendingSetWaiters := s.pendingSetWaiters ++ [s.promises]
    promises := s.promises + 1 }

/-- The callback of the timer, if it is armed. -/
def fireTimer (now : ℚ) (s : PresenceSets V ε) : PresenceSets V ε :=
  if s.throttleTimer then
    match s.pendingSetData with
    | some data => sendSet data s.pendingSetWaiters
        { s with throttleTimer := false, lastSetTime := now, pendingSetWaiters := [], pendingSetData := none }
    | none => { s with throttleTimer := false }
  else s

/-- The promise of a dispatch settles, once. -/
def answer (i : ℕ) (outcome : Except ε Unit) (s : PresenceSets V ε) : PresenceSets V ε :=
  match s.dispatches[i]? with
  | some d =>
    if d.outcome.isSome then s
    else { s with
      dispatches := s.dispatches.set i { d with outcome := some outcome }
      settlements := s.settlements ++ d.waiters.map (·, .dispatch outcome) }
  | none => s

def clearThrottle (reason : ResetReason) (s : PresenceSets V ε) : PresenceSets V ε :=
  { s with
    throttleTimer := false
    pendingSetData := none
    settlements := s.settlements ++ s.pendingSetWaiters.map (·, .reset reason)
    pendingSetWaiters := []
    lastSetTime := 0 }

def remove : PresenceSets V ε → PresenceSets V ε := clearThrottle .supersededByRemove

def invalidate : PresenceSets V ε → PresenceSets V ε := clearThrottle .supersededByScopeChange

def handleDisconnect : PresenceSets V ε → PresenceSets V ε := clearThrottle .connectionClosed

def step (s : PresenceSets V ε) : PresenceSetEvent V ε → PresenceSets V ε
  | .set data now => s.set data now
  | .timer now => s.fireTimer now
  | .answer i outcome => s.answer i outcome
  | .remove => s.remove
  | .invalidate => s.invalidate
  | .disconnect => s.handleDisconnect

end PresenceSets

open PresenceSets

section Spec

variable {V ε : Type}

/-- The updates of the calls, in their order. -/
def calls (events : List (PresenceSetEvent V ε)) : List (PresenceData V) :=
  events.filterMap fun
    | .set data _ => some data
    | _ => none

/-- The record after updates, the last write of a field counting. -/
def record (updates : List (PresenceData V)) : PresenceData V := updates.foldl spreadData fun _ => none

lemma spreadData_assoc (a b c : PresenceData V) :
    spreadData (spreadData a b) c = spreadData a (spreadData b c) := by
  funext field
  exact (Option.or_assoc).symm

lemma spreadData_empty (a : PresenceData V) : spreadData (fun _ => none) a = a := by
  funext field
  exact Option.or_none

lemma record_append (a b : List (PresenceData V)) : record (a ++ b) = spreadData (record a) (record b) := by
  induction b using List.reverseRecOn with
  | nil =>
    rw [append_nil]
    rfl
  | append_singleton b data ih =>
    have hlast (c : List (PresenceData V)) : record (c ++ [data]) = spreadData (record c) data := by
      rw [record, foldl_append, foldl_cons, foldl_nil, ← record]
    rw [← append_assoc, hlast, hlast, ih, spreadData_assoc]

end Spec

section Invariant

variable {V ε : Type}

/-- The calls whose data a dispatch carries. -/
def PresenceSets.carried (s : PresenceSets V ε) : List ℕ := s.dispatches.flatMap PresenceDispatch.waiters

/-- The calls whose data a reset discarded. -/
def PresenceSets.discarded (s : PresenceSets V ε) : List ℕ :=
  s.settlements.filterMap fun
    | (id, .reset _) => some id
    | _ => none

/-- The updates of some of the calls. -/
def chosen (sets : List (PresenceData V)) (ids : List ℕ) : List (PresenceData V) := ids.filterMap (sets[·]?)

/-- Every call is carried, pending or discarded, in the order of the calls. -/
structure Throttled (s : PresenceSets V ε) (sets : List (PresenceData V)) : Prop where
  promises : s.promises = sets.length
  pending : s.pendingSetData =
    if s.pendingSetWaiters = [] then none else some (record (chosen sets s.pendingSetWaiters))
  armed : s.pendingSetWaiters ≠ [] → s.throttleTimer
  data : ∀ d ∈ s.dispatches, d.data = record (chosen sets d.waiters)
  ordered : (s.carried ++ s.pendingSetWaiters).Pairwise (· < ·)
  fate : ∀ id, id < s.promises ↔ id ∈ s.carried ∨ id ∈ s.pendingSetWaiters ∨ id ∈ s.discarded
  dropped : ∀ id ∈ s.discarded, id ∉ s.carried ∧ id ∉ s.pendingSetWaiters
  answered : ∀ id outcome, (id, .dispatch outcome) ∈ s.settlements ↔
    ∃ d ∈ s.dispatches, id ∈ d.waiters ∧ d.outcome = some outcome
  nodup : (s.settlements.map Prod.fst).Nodup

lemma throttled_init : Throttled ({} : PresenceSets V ε) [] where
  promises := rfl
  pending := rfl
  armed h := absurd rfl h
  data := nofun
  ordered := .nil
  fate id := by simp [carried, discarded]
  dropped := nofun
  answered id outcome := by simp
  nodup := .nil

variable {s : PresenceSets V ε} {sets : List (PresenceData V)}

lemma chosen_append {ids : List ℕ} (h : ∀ id ∈ ids, id < sets.length) (data : PresenceData V) :
    chosen (sets ++ [data]) ids = chosen sets ids := by
  unfold chosen
  refine filterMap_congr fun id hid => ?_
  exact getElem?_append_left (h id hid)

lemma PresenceSets.mem_discarded {id : ℕ} :
    id ∈ s.discarded ↔ ∃ reason, (id, SetOutcome.reset reason) ∈ s.settlements := by
  unfold discarded
  rw [mem_filterMap]
  constructor
  · rintro ⟨⟨id', outcome | reason⟩, hmem, heq⟩
    · cases heq
    · cases heq
      exact ⟨reason, hmem⟩
  · rintro ⟨reason, hmem⟩
    exact ⟨_, hmem, rfl⟩

lemma PresenceSets.discarded_answered (waiters : List ℕ) (outcome : Except ε Unit) :
    { s with settlements := s.settlements ++ waiters.map (·, SetOutcome.dispatch outcome) }.discarded =
      s.discarded := by
  unfold discarded
  rw [filterMap_append, filterMap_map]
  exact (congrArg _ (filterMap_eq_nil_iff.mpr fun _ _ => rfl)).trans (append_nil _)

lemma Throttled.push (h : Throttled s sets) (data : PresenceData V) : Throttled
    { s with
      pendingSetWaiters := s.pendingSetWaiters ++ [s.promises]
      promises := s.promises + 1
      pendingSetData := some (spreadData (s.pendingSetData.getD fun _ => none) data)
      throttleTimer := true } (sets ++ [data]) := by
  have hlt {id : ℕ} (hid : id ∈ s.carried ++ s.pendingSetWaiters) : id < sets.length := by
    rw [← h.promises, h.fate]
    obtain hid | hid := mem_append.mp hid
    · exact .inl hid
    · exact .inr (.inl hid)
  have hcarried {d : PresenceDispatch V ε} (hd : d ∈ s.dispatches) : ∀ id ∈ d.waiters, id < sets.length :=
    fun id hid => hlt (mem_append_left _ (mem_flatMap.mpr ⟨d, hd, hid⟩))
  refine ⟨?_, ?_, fun _ => rfl, ?_, ?_, ?_, ?_, h.answered, h.nodup⟩
  · rw [h.promises, length_append, length_singleton]
  · have hlast : (sets ++ [data])[s.promises]? = some data := by
      rw [h.promises, getElem?_concat_length]
    have hchosen : chosen (sets ++ [data]) (s.pendingSetWaiters ++ [s.promises]) =
        chosen sets s.pendingSetWaiters ++ [data] := by
      rw [← chosen_append (fun id hid => hlt (mem_append_right _ hid)) data, chosen, filterMap_append,
        filterMap_cons, hlast]
      rfl
    have hdata : s.pendingSetData.getD (fun _ => none) = record (chosen sets s.pendingSetWaiters) := by
      rw [h.pending]
      split_ifs with hnil
      · rw [hnil]
        rfl
      · rfl
    rw [if_neg (append_ne_nil_of_right_ne_nil _ (cons_ne_nil _ _)), hchosen, record_append, hdata]
    exact congrArg (fun r => some (spreadData _ r)) (spreadData_empty data).symm
  · intro d hd
    rw [h.data d hd, chosen_append (hcarried hd)]
  · change (s.carried ++ (s.pendingSetWaiters ++ [s.promises])).Pairwise (· < ·)
    rw [← append_assoc, pairwise_append]
    refine ⟨h.ordered, pairwise_singleton _ _, fun id hid id' hid' => ?_⟩
    rw [mem_singleton.mp hid', h.promises]
    exact hlt hid
  · intro id
    change id < s.promises + 1 ↔ id ∈ s.carried ∨ id ∈ s.pendingSetWaiters ++ [s.promises] ∨ id ∈ s.discarded
    rw [mem_append, mem_singleton, Nat.lt_succ_iff_lt_or_eq, h.fate]
    tauto
  · intro id hid
    refine ⟨(h.dropped id hid).1, fun hmem => ?_⟩
    obtain hmem | hmem := mem_append.mp hmem
    · exact (h.dropped id hid).2 hmem
    · have hfate := (h.fate id).mpr (.inr (.inr hid))
      rw [mem_singleton.mp hmem] at hfate
      exact Nat.lt_irrefl _ hfate

lemma Throttled.dispatch (h : Throttled s sets) {data : PresenceData V}
    (hdata : data = record (chosen sets s.pendingSetWaiters)) (now : ℚ) : Throttled
    (sendSet data s.pendingSetWaiters { s with
      throttleTimer := false, pendingSetData := none, lastSetTime := now, pendingSetWaiters := [] }) sets := by
  have hcarried : (sendSet data s.pendingSetWaiters { s with
      throttleTimer := false, pendingSetData := none, lastSetTime := now, pendingSetWaiters := [] }).carried =
        s.carried ++ s.pendingSetWaiters := by
    unfold carried sendSet
    rw [flatMap_append, flatMap_singleton]
  refine ⟨h.promises, rfl, fun hne => absurd rfl hne, ?_, ?_, ?_, ?_, ?_, h.nodup⟩
  · intro d hd
    obtain hd | hd := mem_append.mp hd
    · exact h.data d hd
    · rw [mem_singleton.mp hd]
      exact hdata
  · rw [hcarried]
    exact (append_nil _).symm ▸ h.ordered
  · intro id
    rw [hcarried]
    change id < s.promises ↔ id ∈ s.carried ++ s.pendingSetWaiters ∨ id ∈ [] ∨ id ∈ s.discarded
    rw [h.fate, mem_append, or_assoc]
    simp
  · intro id hid
    rw [hcarried, mem_append]
    exact ⟨not_or.mpr (h.dropped id hid), not_mem_nil⟩
  · intro id outcome
    change (id, SetOutcome.dispatch outcome) ∈ s.settlements ↔ ∃ d ∈ s.dispatches ++ [_], _
    rw [h.answered]
    constructor
    · rintro ⟨d, hd, hid⟩
      exact ⟨d, mem_append_left _ hd, hid⟩
    · rintro ⟨d, hd, hid, houtcome⟩
      obtain hd | hd := mem_append.mp hd
      · exact ⟨d, hd, hid, houtcome⟩
      · rw [mem_singleton.mp hd] at houtcome
        cases houtcome

lemma Throttled.set (h : Throttled s sets) (data : PresenceData V) (now : ℚ) :
    Throttled (s.set data now) (sets ++ [data]) := by
  have hpush := h.push data
  unfold PresenceSets.set throttle
  split_ifs with helapsed
  · have hdata := hpush.pending
    rw [if_neg (append_ne_nil_of_right_ne_nil _ (cons_ne_nil _ _)), Option.some.injEq] at hdata
    have hmerged : (match s.pendingSetData with | some pending => spreadData pending data | none => data) =
        spreadData (s.pendingSetData.getD fun _ => none) data := by
      cases s.pendingSetData with
      | none => exact (spreadData_empty data).symm
      | some pending => rfl
    exact hpush.dispatch (hmerged.trans hdata) now
  · exact hpush

lemma Throttled.fireTimer (h : Throttled s sets) (now : ℚ) : Throttled (s.fireTimer now) sets := by
  have hpending := h.pending
  unfold PresenceSets.fireTimer
  split_ifs with harmed
  · cases hdata : s.pendingSetData with
    | some data =>
      rw [hdata] at hpending
      split_ifs at hpending with hnil
      exact h.dispatch (Option.some.inj hpending) now
    | none =>
      rw [hdata] at hpending
      have hnil : s.pendingSetWaiters = [] := by
        by_contra hne
        rw [if_neg hne] at hpending
        cases hpending
      exact ⟨h.promises, (if_pos hnil).symm, fun hne => absurd hnil hne, h.data, h.ordered, h.fate, h.dropped,
        h.answered, h.nodup⟩
  · exact h

lemma Throttled.clearThrottle (h : Throttled s sets) (reason : ResetReason) :
    Throttled (s.clearThrottle reason) sets := by
  have hdiscarded : (s.clearThrottle reason).discarded = s.discarded ++ s.pendingSetWaiters := by
    unfold PresenceSets.discarded PresenceSets.clearThrottle
    rw [filterMap_append, filterMap_map]
    exact congrArg _ (filterMap_some (l := s.pendingSetWaiters))
  obtain ⟨hcarried, hpending, hlt⟩ := pairwise_append.mp h.ordered
  have hnot {id : ℕ} (hid : id ∈ s.pendingSetWaiters) : id ∉ s.carried := fun hmem =>
    Nat.lt_irrefl _ (hlt id hmem id hid)
  refine ⟨h.promises, rfl, fun hne => absurd rfl hne, h.data, ?_, ?_, ?_, ?_, ?_⟩
  · exact (append_nil _).symm ▸ hcarried
  · intro id
    rw [hdiscarded]
    change id < s.promises ↔ id ∈ s.carried ∨ id ∈ [] ∨ id ∈ s.discarded ++ s.pendingSetWaiters
    rw [h.fate, mem_append]
    simp only [not_mem_nil, false_or]
    tauto
  · intro id hid
    rw [hdiscarded] at hid
    refine ⟨?_, not_mem_nil⟩
    obtain hid | hid := mem_append.mp hid
    · exact (h.dropped id hid).1
    · exact hnot hid
  · intro id outcome
    change (id, SetOutcome.dispatch outcome) ∈ s.settlements ++ _ ↔ _
    rw [mem_append, h.answered, or_iff_left]
    · rfl
    · rintro hmem
      obtain ⟨_, -, heq⟩ := mem_map.mp hmem
      cases heq
  · change ((s.settlements ++ s.pendingSetWaiters.map (·, SetOutcome.reset reason)).map Prod.fst).Nodup
    rw [map_append, map_map, nodup_append']
    refine ⟨h.nodup, ?_, ?_⟩
    · exact (map_id' s.pendingSetWaiters).symm ▸ hpending.imp Nat.ne_of_lt
    · intro id hsettled hid
      replace hid : id ∈ s.pendingSetWaiters := by simpa using hid
      obtain ⟨⟨_, outcome | reason⟩, hmem, rfl⟩ := mem_map.mp hsettled
      · obtain ⟨d, hd, hwaiter, -⟩ := (h.answered _ _).mp hmem
        exact hnot hid (mem_flatMap.mpr ⟨d, hd, hwaiter⟩)
      · exact (h.dropped _ (mem_discarded.mpr ⟨reason, hmem⟩)).2 hid

lemma Throttled.answer (h : Throttled s sets) (i : ℕ) (outcome : Except ε Unit) :
    Throttled (s.answer i outcome) sets := by
  unfold PresenceSets.answer
  cases hd : s.dispatches[i]? with
  | none => exact h
  | some d =>
    dsimp only
    split_ifs with hsome
    · exact h
    have hopen : d.outcome = none := by simpa using hsome
    obtain ⟨hi, hget⟩ := List.getElem?_eq_some_iff.mp hd
    obtain ⟨first, second, hsplit, hset⟩ : ∃ first second, s.dispatches = first ++ d :: second ∧
        s.dispatches.set i { d with outcome := some outcome } =
          first ++ { d with outcome := some outcome } :: second := by
      refine ⟨s.dispatches.take i, s.dispatches.drop (i + 1), ?_, set_eq_take_append_cons_drop.trans (if_pos hi)⟩
      rw [← hget, ← drop_eq_getElem_cons hi, take_append_drop]
    have hcarried : (first ++ { d with outcome := some outcome } :: second).flatMap PresenceDispatch.waiters =
        s.carried := by
      rw [carried, hsplit, flatMap_append, flatMap_append, flatMap_cons, flatMap_cons]
    have hwaits {id : ℕ} (hid : id ∈ d.waiters) : id ∈ s.carried := by
      rw [carried, hsplit]
      exact mem_flatMap.mpr ⟨d, mem_append_right _ mem_cons_self, hid⟩
    have hnodup : (first.flatMap PresenceDispatch.waiters ++
        (d.waiters ++ second.flatMap PresenceDispatch.waiters)).Nodup := by
      rw [← flatMap_cons, ← flatMap_append, ← hsplit]
      exact (pairwise_append.mp h.ordered).1.imp Nat.ne_of_lt
    rw [nodup_append', nodup_append'] at hnodup
    obtain ⟨-, ⟨hwaiters, -, hsecond⟩, hfirst⟩ := hnodup
    have hnew (id : ℕ) (hid : id ∈ d.waiters) (hsettled : id ∈ s.settlements.map Prod.fst) : False := by
      obtain ⟨⟨_, o | reason⟩, hmem, rfl⟩ := mem_map.mp hsettled
      · obtain ⟨d', hd', hid', ho⟩ := (h.answered _ _).mp hmem
        rw [hsplit] at hd'
        obtain hd' | hd' := mem_append.mp hd'
        · exact hfirst (mem_flatMap.mpr ⟨d', hd', hid'⟩) (mem_append_left _ hid)
        obtain rfl | hd' := mem_cons.mp hd'
        · rw [hopen] at ho
          cases ho
        · exact hsecond hid (mem_flatMap.mpr ⟨d', hd', hid'⟩)
      · exact (h.dropped _ (mem_discarded.mpr ⟨reason, hmem⟩)).1 (hwaits hid)
    have hdiscarded := discarded_answered (s := s) d.waiters outcome
    unfold discarded at hdiscarded
    dsimp only at hdiscarded
    rw [hset]
    refine ⟨h.promises, h.pending, h.armed, ?_, ?_, ?_, ?_, ?_, ?_⟩
    · intro d' hd'
      obtain hd' | hd' := mem_append.mp hd'
      · exact h.data d' (hsplit ▸ mem_append_left _ hd')
      obtain rfl | hd' := mem_cons.mp hd'
      · exact h.data d (hsplit ▸ mem_append_right _ mem_cons_self)
      · exact h.data d' (hsplit ▸ mem_append_right _ (mem_cons_of_mem _ hd'))
    · unfold carried
      rw [hcarried]
      exact h.ordered
    · unfold carried discarded
      dsimp only
      rw [hcarried, hdiscarded]
      exact h.fate
    · unfold carried discarded
      dsimp only
      rw [hcarried, hdiscarded]
      exact h.dropped
    · intro id o
      rw [mem_append, h.answered, hsplit, mem_map]
      simp only [mem_append, mem_cons]
      constructor
      · rintro (⟨d', hd' | rfl | hd', hid, ho⟩ | ⟨_, hid, heq⟩)
        · exact ⟨d', .inl hd', hid, ho⟩
        · rw [hopen] at ho
          cases ho
        · exact ⟨d', .inr (.inr hd'), hid, ho⟩
        · cases heq
          exact ⟨_, .inr (.inl rfl), hid, rfl⟩
      · rintro ⟨d', hd' | rfl | hd', hid, ho⟩
        · exact .inl ⟨d', .inl hd', hid, ho⟩
        · cases ho
          exact .inr ⟨id, hid, rfl⟩
        · exact .inl ⟨d', .inr (.inr hd'), hid, ho⟩
    · rw [map_append, map_map, nodup_append']
      refine ⟨h.nodup, (map_id' d.waiters).symm ▸ hwaiters, fun id hsettled hid => ?_⟩
      exact hnew id (by simpa using hid) hsettled

lemma Throttled.step (h : Throttled s sets) (event : PresenceSetEvent V ε) :
    Throttled (s.step event) (sets ++ calls [event]) := by
  cases event with
  | set data now => exact h.set data now
  | timer now => exact (append_nil sets).symm ▸ h.fireTimer now
  | answer i outcome => exact (append_nil sets).symm ▸ h.answer i outcome
  | remove | invalidate | disconnect => exact (append_nil sets).symm ▸ h.clearThrottle _

lemma Throttled.run (h : Throttled s sets) (events : List (PresenceSetEvent V ε)) :
    Throttled (events.foldl PresenceSets.step s) (sets ++ calls events) := by
  induction events generalizing s sets with
  | nil => exact (append_nil sets).symm ▸ h
  | cons event events ih =>
    have hcalls : sets ++ calls (event :: events) = sets ++ calls [event] ++ calls events := by
      rw [append_assoc, calls, calls, calls, ← filterMap_append]
      rfl
    rw [hcalls]
    exact ih (h.step event)

end Invariant

section Results

variable {V ε : Type} {s : PresenceSets V ε} {sets : List (PresenceData V)}

lemma eq_filter_range {ids : List ℕ} {n : ℕ} (h : ids.Pairwise (· < ·)) (p : ℕ → Bool)
    (hmem : ∀ id, id ∈ ids ↔ id < n ∧ p id) : ids = (List.range n).filter p := by
  have hrange : ((List.range n).filter p).Pairwise (· < ·) := pairwise_lt_range.filter p
  refine List.Perm.eq_of_pairwise (fun a b _ _ hab hba => absurd hab (Nat.lt_asymm hba)) h hrange ?_
  refine (perm_ext_iff_of_nodup (h.imp Nat.ne_of_lt) (hrange.imp Nat.ne_of_lt)).mpr fun id => ?_
  rw [hmem, mem_filter, mem_range]

/-- The dispatches, applied in their order, are the calls they carry, in the order of the calls. -/
lemma Throttled.record_dispatches (h : Throttled s sets) :
    record (s.dispatches.map PresenceDispatch.data) = record (chosen sets s.carried) := by
  have hdata := h.data
  unfold carried
  generalize s.dispatches = dispatches at hdata
  induction dispatches with
  | nil => rfl
  | cons d dispatches ih =>
    obtain ⟨hd, hrest⟩ := forall_mem_cons.mp hdata
    have hsplit : chosen sets ((d :: dispatches).flatMap PresenceDispatch.waiters) =
        chosen sets d.waiters ++ chosen sets (dispatches.flatMap PresenceDispatch.waiters) := by
      rw [flatMap_cons, chosen, filterMap_append]
      rfl
    have hcons : record ((d :: dispatches).map PresenceDispatch.data) =
        spreadData (record [d.data]) (record (dispatches.map PresenceDispatch.data)) := by
      rw [← record_append]
      rfl
    rw [hsplit, record_append, hcons, ih hrest, ← hd]
    exact congrArg (spreadData · _) (spreadData_empty d.data)

lemma Throttled.record_pending (h : Throttled s sets) :
    s.pendingSetData.getD (fun _ => none) = record (chosen sets s.pendingSetWaiters) := by
  rw [h.pending]
  split_ifs with hnil
  · rw [hnil]
    rfl
  · rfl

lemma mem_reset_step (event : PresenceSetEvent V ε) (s : PresenceSets V ε) {id : ℕ} {reason : ResetReason} :
    (id, SetOutcome.reset reason) ∈ (s.step event).settlements ↔ (id, .reset reason) ∈ s.settlements ∨
      event.reason = some reason ∧ id ∈ s.pendingSetWaiters := by
  cases event with
  | set data now =>
    simp only [step, PresenceSets.set, throttle]
    split_ifs <;> simp [sendSet, PresenceSetEvent.reason]
  | timer now =>
    simp only [step, fireTimer]
    split_ifs
    · cases s.pendingSetData <;> simp [sendSet, PresenceSetEvent.reason]
    · simp [PresenceSetEvent.reason]
  | answer i outcome =>
    simp only [step, answer]
    cases s.dispatches[i]? with
    | none => simp [PresenceSetEvent.reason]
    | some d =>
      dsimp only
      split_ifs <;> simp [PresenceSetEvent.reason]
  | remove =>
    simp [step, remove, clearThrottle, PresenceSetEvent.reason, and_comm]
  | invalidate =>
    simp [step, invalidate, clearThrottle, PresenceSetEvent.reason, and_comm]
  | disconnect =>
    simp [step, handleDisconnect, clearThrottle, PresenceSetEvent.reason,
      and_comm]

lemma mem_reset_run (events : List (PresenceSetEvent V ε)) {id : ℕ} {reason : ResetReason} :
    (id, SetOutcome.reset reason) ∈ (events.foldl step s).settlements ↔
      (id, .reset reason) ∈ s.settlements ∨ ∃ before event after, events = before ++ event :: after ∧
        event.reason = some reason ∧ id ∈ (before.foldl step s).pendingSetWaiters := by
  induction events generalizing s with
  | nil => simp
  | cons event events ih =>
    rw [foldl_cons, ih, mem_reset_step, or_assoc]
    refine or_congr_right ⟨?_, ?_⟩
    · rintro (⟨hreason, hid⟩ | ⟨before, event', after, rfl, h⟩)
      · exact ⟨[], event, events, rfl, hreason, hid⟩
      · exact ⟨event :: before, event', after, rfl, h⟩
    · rintro ⟨_ | ⟨_, before⟩, event', after, hsplit, h⟩
      · cases hsplit
        exact .inl h
      · cases hsplit
        exact .inr ⟨before, event', after, rfl, h⟩

/-- The updates that are dispatched, in their order, and then the one that waits for the timer, are those of
the calls that no reset discarded, in the order of the calls. Each call is carried by a dispatch, waits, or is
discarded; a dispatch has the data of the calls whose waiters it has. A promise is settled at most once: as the
dispatch is, or by a reset at which it waits, with its reason. -/
theorem sets_throttled (events : List (PresenceSetEvent V ε)) :
    let s := events.foldl step {}
    let sets := calls events
    spreadData (record (s.dispatches.map PresenceDispatch.data)) (s.pendingSetData.getD fun _ => none) =
        record (chosen sets ((List.range sets.length).filter (· ∉ s.discarded))) ∧
      (∀ id < sets.length, (id ∈ s.carried ∧ id ∉ s.pendingSetWaiters ∧ id ∉ s.discarded) ∨
        (id ∉ s.carried ∧ id ∈ s.pendingSetWaiters ∧ id ∉ s.discarded) ∨
        (id ∉ s.carried ∧ id ∉ s.pendingSetWaiters ∧ id ∈ s.discarded)) ∧
      s.carried.Nodup ∧
      (∀ d ∈ s.dispatches, d.data = record (chosen sets d.waiters)) ∧
      (s.pendingSetWaiters ≠ [] → s.throttleTimer) ∧
      (s.pendingSetWaiters = [] → s.pendingSetData = none) ∧
      (s.settlements.map Prod.fst).Nodup ∧
      (∀ id outcome, (id, .dispatch outcome) ∈ s.settlements ↔
        ∃ d ∈ s.dispatches, id ∈ d.waiters ∧ d.outcome = some outcome) ∧
      (∀ id, id ∈ s.discarded ↔ ∃ reason, (id, .reset reason) ∈ s.settlements) ∧
      (∀ id reason, (id, .reset reason) ∈ s.settlements ↔
        ∃ before event after, events = before ++ event :: after ∧ event.reason = some reason ∧
          id ∈ (before.foldl step ({} : PresenceSets V ε)).pendingSetWaiters) ∧
      (s.throttleTimer = false → (∀ d ∈ s.dispatches, d.outcome.isSome) →
        ∀ id < sets.length, ∃ outcome, (id, outcome) ∈ s.settlements) := by
  intro s sets
  have h : Throttled s sets := throttled_init.run events
  obtain ⟨hcarried, -, hlt⟩ := pairwise_append.mp h.ordered
  have hsplit {id : ℕ} (hid : id ∈ s.pendingSetWaiters) : id ∉ s.carried := fun hmem =>
    Nat.lt_irrefl _ (hlt id hmem id hid)
  have hfate := h.fate
  rw [h.promises] at hfate
  refine ⟨?_, fun id hid => ?_, hcarried.imp Nat.ne_of_lt, h.data, h.armed, fun hnil => ?_, h.nodup, h.answered,
    fun id => mem_discarded, fun id reason => ?_, fun htimer hall id hid => ?_⟩
  · rw [h.record_dispatches, h.record_pending, ← record_append, chosen, chosen, ← filterMap_append, ← chosen]
    congr 2
    refine eq_filter_range h.ordered _ fun id => ?_
    have hdropped := h.dropped id
    have hid := hfate id
    rw [mem_append, decide_eq_true_iff]
    tauto
  · have hdropped := h.dropped id
    obtain hmem | hmem | hmem := (hfate id).mp hid
    · exact .inl ⟨hmem, fun hpending => hsplit hpending hmem, fun hdiscarded => (hdropped hdiscarded).1 hmem⟩
    · exact .inr (.inl ⟨hsplit hmem, hmem, fun hdiscarded => (hdropped hdiscarded).2 hmem⟩)
    · exact .inr (.inr ⟨(hdropped hmem).1, (hdropped hmem).2, hmem⟩)
  · rw [h.pending, if_pos hnil]
  · exact (mem_reset_run events).trans (or_iff_right not_mem_nil)
  · have hnone : s.pendingSetWaiters = [] := by
      by_contra hne
      rw [h.armed hne] at htimer
      cases htimer
    obtain hmem | hmem | hmem := (hfate id).mp hid
    · obtain ⟨d, hd, hwaits⟩ := mem_flatMap.mp hmem
      obtain ⟨outcome, houtcome⟩ := Option.isSome_iff_exists.mp (hall d hd)
      exact ⟨.dispatch outcome, (h.answered id outcome).mpr ⟨d, hd, hwaits, houtcome⟩⟩
    · rw [hnone] at hmem
      cases hmem
    · obtain ⟨reason, hreset⟩ := mem_discarded.mp hmem
      exact ⟨.reset reason, hreset⟩

/-- A call that waits when the connection is lost is not in any update. -/
theorem disconnect_discards :
    let first : PresenceData ℕ := fun field => if field = "x" then some 1 else none
    let second : PresenceData ℕ := fun field => if field = "x" then some 2 else none
    let events : List (PresenceSetEvent ℕ Unit) := [.set first 100, .set second 101, .disconnect]
    let s := events.foldl step {}
    record (s.dispatches.map PresenceDispatch.data) "x" = some 1 ∧ record (calls events) "x" = some 2 ∧
      s.throttleTimer = false ∧ s.settlements.map Prod.fst = [1] ∧ s.discarded = [1] := by
  decide +kernel

end Results

end ZyncBase.Sdk
