import ZyncBase.Query.Parser
import ZyncBase.Subscription.Coherence

/-! A record change is matched as if every subscription evaluated its own predicate. -/
namespace ZyncBase

open AssocMap Outcome List SubscriptionEngine

def FilterPredicate.matchesRecord (p : FilterPredicate) : Option Record → Bool
  | none => false
  | some r => evaluatePredicate p r = .ok true

/-- The matches of one subscription: one `set` when its predicate holds after the change, one
`remove` when it held before and no longer does. -/
def expectedMatches (reg : Registry) (change : RecordChange) (key : SubscriberKey) : List Match :=
  match reg key with
  | none => []
  | some (coll, filter) =>
    if coll ≠ change.collection then []
    else if filter.predicate.matchesRecord change.newRecord then
      [⟨key.connectionId, key.id, .setOp⟩]
    else if filter.predicate.matchesRecord change.oldRecord then
      [⟨key.connectionId, key.id, .remove⟩]
    else []

namespace SubscriptionEngine

variable {e : SubscriptionEngine} {reg : Registry}

lemma filterResidualMatches_eq (h : e.Coherent reg) (r : Record) (ids : List ℕ) :
    e.filterResidualMatches r ids = .ok (ids.filter fun id =>
      (e.group id).any fun g => residualHolds g.filter.predicate r) := by
  induction ids with
  | nil => rfl
  | cons id ids ih =>
    rw [filterResidualMatches, filter_cons]
    cases hg : e.group id with
    | none => simpa [hg] using ih
    | some g =>
      have hops : g.filter.predicate.HasOperands := h.indexed.operands id _ (keys_of_group hg)
      dsimp only
      rw [residualMatches_eq hops, ok_bind, ih, Option.any_some]
      split_ifs <;> rfl

lemma matchedGroups_spec (h : e.Coherent reg) (coll : CollectionKey) (r : Option Record) :
    ∃ ids, e.matchedGroups (e.trieAt coll) r = .ok ids ∧ ids.Nodup ∧
      ∀ id, id ∈ ids ↔ ∃ g, e.group id = some g ∧ g.collection = coll ∧ r.any g.filter.predicate.holds := by
  cases r with
  | none => exact ⟨[], rfl, nodup_nil, by simp⟩
  | some r =>
    have ht := h.indexed.tries coll
    have hwalk : (e.trieAt coll).collectFromNode r = .ok _ := ht.wellFormed.walks r
    refine ⟨_, by rw [matchedGroups, hwalk, ok_bind, filterResidualMatches_eq h],
      (ht.wellFormed.nodup_collected ht.single).filter _, fun id => ?_⟩
    rw [mem_filter, ht.wellFormed.mem_collected]
    constructor
    · rintro ⟨⟨path, hpath, hpass⟩, hres⟩
      obtain ⟨g, hg, hres⟩ := Option.any_eq_true _ _ |>.mp hres
      obtain ⟨hcoll, -, hsame⟩ := (ht.stored id _ (keys_of_group hg) path).mp hpath
      refine ⟨g, hg, hcoll, ?_⟩
      rw [Option.any_some, holds_eq_path, Bool.and_eq_true]
      refine ⟨?_, hres⟩
      exact (path_holds_congr hsame r).trans (all_eq_true.mpr hpass)
    · rintro ⟨g, hg, hcoll, hh⟩
      rw [Option.any_some, holds_eq_path, Bool.and_eq_true] at hh
      have hstate : g.filter.predicate.state ≠ .matchNone := by
        intro hs
        rw [residualHolds, hs] at hh
        exact absurd hh.2 (by simp)
      refine ⟨⟨_, (ht.stored id _ (keys_of_group hg) _).mpr
        ⟨hcoll, hstate, KeyTest.self (sameList sameStep) _⟩, all_eq_true.mp hh.1⟩, ?_⟩
      rw [hg]
      exact hh.2

lemma subscriberMatches_eq (op : MatchOp) (id : ℕ) :
    e.subscriberMatches op id = (e.members id).map fun key => ⟨key.connectionId, key.id, op⟩ := by
  rw [subscriberMatches, members]
  cases e.group id <;> rfl

lemma filter_subscriberMatches (h : e.Coherent reg) (op : MatchOp) (id : ℕ) (key : SubscriberKey) :
    (e.subscriberMatches op id).filter (·.key = key) =
      if e.active key = some id then [⟨key.connectionId, key.id, op⟩] else [] := by
  have hfilter : (e.members id).filter (· = key) =
      if key ∈ e.members id then [key] else [] := by
    rw [filter_eq, (h.subscribed.nodup id).count]
    split_ifs <;> rfl
  rw [subscriberMatches_eq, filter_map]
  change ((e.members id).filter (· = key)).map _ = _
  rw [hfilter]
  simp only [h.subscribed.active key id]
  split_ifs <;> rfl

lemma filter_flatMap_members (h : e.Coherent reg) (op : MatchOp) {ids : List ℕ}
    (hids : ids.Nodup) (key : SubscriberKey) :
    (ids.flatMap (e.subscriberMatches op)).filter (·.key = key) =
      if ∃ id ∈ ids, e.active key = some id then [⟨key.connectionId, key.id, op⟩] else [] := by
  induction ids with
  | nil => simp
  | cons id ids ih =>
    obtain ⟨hnot, hids⟩ := nodup_cons.mp hids
    rw [flatMap_cons, filter_append, filter_subscriberMatches h, ih hids]
    by_cases ha : e.active key = some id
    · simp [ha, hnot]
    · simp [ha]

lemma matchesRecord_eq {p : FilterPredicate} (h : p.HasOperands) (r : Option Record) :
    p.matchesRecord r = r.any p.holds := by
  cases r with
  | none => rfl
  | some r => simp [FilterPredicate.matchesRecord, p.evaluatePredicate_eq r h]

lemma any_holds_congr {a b : QueryFilter} (h : eqlFilter a b) (r : Option Record) :
    r.any a.predicate.holds = r.any b.predicate.holds := by
  cases r with
  | none => rfl
  | some r => exact FilterPredicate.holds_congr h r

lemma handleRecordChange_eq {change : RecordChange} {before after : List ℕ}
    (hb : e.matchedGroups (e.trieAt change.collection) change.oldRecord = .ok before)
    (ha : e.matchedGroups (e.trieAt change.collection) change.newRecord = .ok after) :
    e.handleRecordChange change = .ok (e.appendSubscriberMatches before after) := by
  rw [handleRecordChange]
  cases hf : find eqKey change.collection e.triesByCollection with
  | some n =>
    have hn : e.trieAt change.collection = n := by rw [trieAt, hf]; rfl
    rw [← hn]
    dsimp only
    rw [hb, ok_bind, ha]
    rfl
  | none =>
    have hn : e.trieAt change.collection = .empty := by rw [trieAt, hf]; rfl
    have hnone (r : Option Record) : e.matchedGroups .empty r = .ok [] := by cases r <;> rfl
    rw [hn, hnone] at hb ha
    cases hb
    cases ha
    rfl

lemma Coherent.handleRecordChange (h : e.Coherent reg) (change : RecordChange)
    (hops : ∀ key coll filter, reg key = some (coll, filter) → filter.predicate.HasOperands) :
    ∃ ms, e.handleRecordChange change = .ok ms ∧
      ∀ key, ms.filter (·.key = key) = expectedMatches reg change key := by
  obtain ⟨before, hb, hbn, hbm⟩ := matchedGroups_spec h change.collection change.oldRecord
  obtain ⟨after, ha, han, ham⟩ := matchedGroups_spec h change.collection change.newRecord
  refine ⟨_, handleRecordChange_eq hb ha, fun key => ?_⟩
  rw [appendSubscriberMatches, filter_append, filter_flatMap_members h _ han,
    filter_flatMap_members h _ (hbn.filter _)]
  have hreg := h.registered key
  rw [expectedMatches]
  cases hr : reg key with
  | none =>
    have hnone := h.isSome_active key
    rw [hr, Option.isSome_none, Option.isSome_eq_false_iff, Option.isNone_iff_eq_none] at hnone
    simp [hnone]
  | some p =>
    obtain ⟨coll, filter⟩ := p
    obtain ⟨id, hact⟩ : ∃ id, e.active key = some id := by
      have := h.isSome_active key
      rw [hr] at this
      exact Option.isSome_iff_exists.mp this
    obtain ⟨g, hg, -⟩ := group_of_active h hact
    rw [hr, hact, Option.bind_some, keys_of_group hg, Option.map_some, sameOption, eqlFilterKey_iff] at hreg
    obtain ⟨hcoll, hfilter⟩ := hreg
    have hin (ids : List ℕ) (r : Option Record)
        (hm : ∀ id, id ∈ ids ↔ ∃ g, e.group id = some g ∧ g.collection = change.collection ∧
          r.any g.filter.predicate.holds) :
        id ∈ ids ↔ coll = change.collection ∧ filter.predicate.matchesRecord r := by
      rw [hm, matchesRecord_eq (hops key coll filter hr), any_holds_congr hfilter,
        show coll = g.collection from hcoll]
      constructor
      · rintro ⟨g', hg', hc, hh⟩
        rw [hg] at hg'
        cases hg'
        exact ⟨hc, hh⟩
      · exact fun hh => ⟨g, hg, hh⟩
    simp only [hact, Option.some.injEq, exists_eq_right', mem_filter,
      hin after _ ham, hin before _ hbm, decide_eq_true_eq]
    by_cases hc : coll = change.collection
    · cases filter.predicate.matchesRecord change.newRecord <;>
        cases filter.predicate.matchesRecord change.oldRecord <;> simp [hc]
    · simp [hc]

end SubscriptionEngine

variable {filter : QueryFilter}

lemma Registry.call_cases {reg : Registry} {c : SubscriptionCall} {key : SubscriberKey}
    {coll : CollectionKey} (h : reg.call c key = some (coll, filter)) :
    reg key = some (coll, filter) ∨ c = .subscribe coll filter key := by
  have hremove (reg : Registry) (key' : SubscriberKey)
      (h : reg.remove key' key = some (coll, filter)) : reg key = some (coll, filter) := by
    rw [Registry.remove] at h
    split_ifs at h
    exact h
  cases c with
  | subscribe coll' filter' key' =>
    rw [Registry.call] at h
    cases hr : reg key' with
    | some p =>
      rw [hr] at h
      exact .inl h
    | none =>
      rw [hr] at h
      dsimp only at h
      split_ifs at h with hk
      · cases h
        rw [hk]
        exact .inr rfl
      · exact .inl h
  | unsubscribe connectionId id => exact .inl (hremove _ _ h)
  | unsubscribeMany connectionId ids =>
    rw [Registry.call] at h
    induction ids generalizing reg with
    | nil => exact .inl h
    | cons id ids ih =>
      cases ih h with
      | inl h => exact .inl (hremove _ _ h)
      | inr h => cases h

lemma Registry.subscribed_of_run {calls : List SubscriptionCall} {key : SubscriberKey} {coll : CollectionKey}
    (h : Registry.run calls key = some (coll, filter)) : .subscribe coll filter key ∈ calls := by
  have hrun (calls : List SubscriptionCall) (reg : Registry)
      (h : calls.foldl Registry.call reg key = some (coll, filter)) :
      reg key = some (coll, filter) ∨ .subscribe coll filter key ∈ calls := by
    induction calls generalizing reg with
    | nil => exact .inl h
    | cons c calls ih =>
      cases ih _ h with
      | inr h => exact .inr (mem_cons_of_mem _ h)
      | inl h =>
        refine (Registry.call_cases h).imp_right fun hc => ?_
        rw [hc]
        exact mem_cons_self
  cases hrun calls _ h with
  | inl h => cases h
  | inr h => exact h

/-- A filter that the parser returns for some table of some schema. -/
def ParsedFilter (filter : QueryFilter) : Prop :=
  ∃ decodeToken s tableIndex payload, parseQueryFilter decodeToken s tableIndex payload = .ok filter

lemma ParsedFilter.hasOperands (h : ParsedFilter filter) : filter.predicate.HasOperands := by
  obtain ⟨decodeToken, s, i, payload, hp⟩ := h
  obtain ⟨t, -, hw, -⟩ := parseQueryFilter_predicate hp
  exact hw.hasOperands

/-- After any calls with parsed filters, a change yields for every active subscription exactly the
matches that its own predicate gives, and for no other subscription any. -/
theorem handleRecordChange_exact (calls : List SubscriptionCall)
    (hp : ∀ coll filter key, .subscribe coll filter key ∈ calls → ParsedFilter filter)
    (change : RecordChange) :
    ∃ ms, (run calls).handleRecordChange change = .ok ms ∧
      ∀ key, ms.filter (·.key = key) = expectedMatches (Registry.run calls) change key :=
  (coherent_run calls fun coll filter key hm =>
    (hp coll filter key hm).hasOperands).handleRecordChange change fun key coll filter hr =>
      (hp coll filter key (Registry.subscribed_of_run hr)).hasOperands

namespace MatchExample

/-- A table without fields of its own. -/
def eventTable : Table where
  name := "events"
  userFields := []
  fields_wellFormed := no_fields_wellFormed
  names_nodup := system_names_nodup

def eventSchema : Schema := soloSchema eventTable rfl fun _ hf => absurd hf not_mem_nil

/-- The filter of a query without conditions. -/
def allEvents : QueryFilter where
  predicate := { state := .matchAll }
  orderBy := [{ fieldIndex := 3, desc := false }]

lemma parse_allEvents : parseQueryFilter (fun _ => none) eventSchema 0 (.map []) = .ok allEvents := rfl

def calls : List SubscriptionCall :=
  [.subscribe ⟨1, 0⟩ allEvents ⟨7, 1⟩, .subscribe ⟨1, 0⟩ allEvents ⟨8, 1⟩, .unsubscribe 7 1]

def created : RecordChange where
  namespaceId := 1
  tableIndex := 0
  newRecord := some ⟨[.scalar (.docId 7)]⟩
  oldRecord := none

theorem handleRecordChange_exact_created :
    ∃ ms, (run calls).handleRecordChange created = .ok ms ∧
      ∀ key, ms.filter (·.key = key) = expectedMatches (Registry.run calls) created key := by
  refine handleRecordChange_exact calls (fun coll filter key hm => ?_) created
  simp only [calls, mem_cons, not_mem_nil, or_false, SubscriptionCall.subscribe.injEq, reduceCtorEq] at hm
  rcases hm with ⟨-, rfl, -⟩ | ⟨-, rfl, -⟩ <;> exact ⟨_, _, _, _, parse_allEvents⟩

/-- Only the subscriber that stayed is told. -/
example : (run calls).handleRecordChange created = .ok [⟨8, 1, .setOp⟩] := rfl

end MatchExample
end ZyncBase
