import ZyncBase.Presence.Manager

/-! Subscribers of presence: the map of users that they keep by applying the snapshot and the
broadcasts, and what they read from patches, one appended to or merged into another. -/
namespace ZyncBase

open AssocMap List PresenceRecord

/-- The object that a client reads from the pairs of a record or a patch, by field. A later pair
overwrites an earlier one. -/
def decodePresenceUserValue {V : Type} : PresencePatch V → ℕ → Option V
  | [], _ => none
  | p :: ps, i => (decodePresenceUserValue ps i).or (if p.1 = i then some p.2 else none)

/-- The pairs of the slots from a position on. -/
def encodePresenceSlots {V : Type} : ℕ → PresenceRecord V → PresencePatch V
  | _, [] => []
  | i, v :: vs => (v.map fun x => (i, x)).toList ++ encodePresenceSlots (i + 1) vs

def encodePresenceRecord {V : Type} (record : PresenceRecord V) : PresencePatch V :=
  encodePresenceSlots 0 record

@[ext] structure PresenceEntry (V : Type) where
  data : ℕ → Option V
  joinedAt : ℤ

abbrev PresenceView (V : Type) := DocId → Option (PresenceEntry V)

/-- The user as a subscriber should see it. -/
def PresenceUser.entry {V : Type} (u : PresenceUser V) : PresenceEntry V := ⟨u.data.slot, u.joinedAt⟩

section Apply

variable {V : Type} (topKey : ℕ → ℕ)

/-- `{ ...existing, ...update }`: a property of the update replaces the whole property. -/
def spread (patch : PresencePatch V) (existing : ℕ → Option V) (i : ℕ) : Option V :=
  if patch.any fun p => topKey p.1 = topKey i then decodePresenceUserValue patch i else existing i

/-- A join replaces the entry of the user, an update is merged into it, a leave deletes it. -/
def applyBroadcastEntry (u : PendingUserUpdate V) (existing : Option (PresenceEntry V)) :
    Option (PresenceEntry V) :=
  let patch := u.patch.getD []
  if u.isLeave then none
  else if u.isNewUser then some ⟨decodePresenceUserValue patch, u.joinedAt⟩
  else match existing with
    | some e => some ⟨spread topKey patch e.data, e.joinedAt⟩
    | none => some ⟨decodePresenceUserValue patch, 0⟩

def handlePresenceBroadcast (updates : List (DocId × PendingUserUpdate V)) (view : PresenceView V) :
    PresenceView V :=
  updates.foldl (fun view e => Function.update view e.1 (applyBroadcastEntry topKey e.2 (view e.1))) view

end Apply

def setUserEntry {V : Type} (view : PresenceView V) (user : DocId × PresenceUser V) : PresenceView V :=
  Function.update view user.1
    (some ⟨decodePresenceUserValue (encodePresenceRecord user.2.data), user.2.joinedAt⟩)

def populateUserCacheFromSnapshot {V : Type} (users : List (DocId × PresenceUser V)) : PresenceView V :=
  users.foldl setUserEntry fun _ => none

/-- A subscriber of a namespace with the users it knows. -/
structure Watcher (V : Type) where
  namespaceId : ℤ
  subscriber : PresenceSubscriber
  users : PresenceView V

/-- The subscriber applies the messages that are sent to it, in order. -/
def Watcher.receive {V : Type} (topKey : ℕ → ℕ) (batches : List (UserUpdateBatch V))
    (w : Watcher V) : Watcher V :=
  { w with
    users := batches.foldl
      (fun view b =>
        if b.namespaceId = w.namespaceId ∧ w.subscriber ∈ b.subscribers then
          handlePresenceBroadcast topKey b.updates view
        else view) w.users }

/-- The presence manager with its subscribers. -/
structure PresenceSystem (V : Type) where
  manager : PresenceManager V := {}
  watchers : List (Watcher V) := []

inductive PresenceEvent (V : Type) where
  | setUser (namespaceId : ℤ) (userId : DocId) (patch : PresencePatch V) (now : ℤ)
  | removeUser (namespaceId : ℤ) (userId : DocId) (now : ℤ)
  | subscribe (namespaceId : ℤ) (subscriber : PresenceSubscriber)
  | unsubscribe (namespaceId : ℤ) (connId : ℕ)
  | removeAllForConnection (namespaceId : ℤ) (userId : DocId) (connId : ℕ) (now : ℤ)
  | evictExpiredGracePeriods (now : ℤ)
  | drain

namespace PresenceSystem

variable {V : Type} (s : PresenceSchema V)

def unwatch (namespaceId : ℤ) (connId : ℕ) (sys : PresenceSystem V) : List (Watcher V) :=
  sys.watchers.filter fun w => !(w.namespaceId = namespaceId && w.subscriber.connId = connId)

def step (sys : PresenceSystem V) : PresenceEvent V → PresenceSystem V
  | .setUser namespaceId userId patch now =>
    { sys with manager := sys.manager.setUser s namespaceId userId patch now }
  | .removeUser namespaceId userId now =>
    { sys with manager := sys.manager.removeUser namespaceId userId now }
  | .subscribe namespaceId subscriber =>
    let subscribed := sys.manager.onSubscribeUser namespaceId subscriber
    { manager := subscribed.1
      watchers := sys.watchers ++ [⟨namespaceId, subscriber, populateUserCacheFromSnapshot subscribed.2⟩] }
  | .unsubscribe namespaceId connId =>
    { manager := sys.manager.onUnsubscribeUser namespaceId connId
      watchers := sys.unwatch namespaceId connId }
  | .removeAllForConnection namespaceId userId connId now =>
    { manager := sys.manager.removeAllForConnection namespaceId userId connId now
      watchers := sys.unwatch namespaceId connId }
  | .evictExpiredGracePeriods now =>
    { sys with manager := sys.manager.evictExpiredGracePeriods now }
  | .drain =>
    let drained := sys.manager.drainPendingBatches
    { manager := drained.1, watchers := sys.watchers.map (Watcher.receive s.topKey drained.2) }

end PresenceSystem

variable {V : Type} {s : PresenceSchema V}
lemma decode_append (a b : PresencePatch V) (i : ℕ) : decodePresenceUserValue (a ++ b) i =
    (decodePresenceUserValue b i).or (decodePresenceUserValue a i) := by
  induction a with
  | nil => exact Option.or_none.symm
  | cons p a ih => rw [cons_append, decodePresenceUserValue, ih, Option.or_assoc]; rfl

lemma isSome_decode (patch : PresencePatch V) (i : ℕ) :
    (decodePresenceUserValue patch i).isSome ↔ i ∈ patch.map Prod.fst := by
  induction patch with
  | nil => simp [decodePresenceUserValue]
  | cons p ps ih =>
    rw [decodePresenceUserValue, Option.isSome_or, Bool.or_eq_true, ih, map_cons, mem_cons]
    by_cases h : p.1 = i
    · simp [h]
    · simp [h, Ne.symm h]

variable {patch : PresencePatch V}

lemma decode_eq_none {i : ℕ} (h : i ∉ patch.map Prod.fst) : decodePresenceUserValue patch i = none := by
  rw [← Option.not_isSome_iff_eq_none, isSome_decode]
  exact h

lemma keys_put {k : ℕ} (v : V) (h : k ∈ patch.map Prod.fst) :
    (put eqKey k v patch).map Prod.fst = patch.map Prod.fst := by
  induction patch with
  | nil => cases h
  | cons p ps ih =>
    rw [put]
    split_ifs with hp
    · rfl
    · rw [map_cons, map_cons, ih]
      rw [map_cons, mem_cons] at h
      exact h.resolve_left fun he => hp ((eqKey_iff _ _).mpr he.symm)

/-- A value that is put replaces the first value of its field. It is the one that is read when there is
no other. -/
lemma decode_put {k : ℕ} (v : V) (h : k ∈ patch.map Prod.fst) (i : ℕ) :
    decodePresenceUserValue (put eqKey k v patch) i =
      if k = i ∧ (patch.map Prod.fst).count k = 1 then some v
      else decodePresenceUserValue patch i := by
  induction patch with
  | nil => cases h
  | cons p ps ih =>
    rw [put, map_cons, count_cons]
    by_cases hp : p.1 = k
    · rw [if_pos ((eqKey_iff _ _).mpr hp), decodePresenceUserValue, decodePresenceUserValue]
      simp only [hp, beq_self_eq_true, if_true, Nat.add_eq_right, count_eq_zero]
      by_cases hi : k = i
      · subst hi
        by_cases hlater : k ∈ ps.map Prod.fst
        · obtain ⟨w, hw⟩ := Option.isSome_iff_exists.mp ((isSome_decode ps k).mpr hlater)
          simp [hw, hlater]
        · simp [decode_eq_none hlater, hlater]
      · simp [hi]
    · have hlater := (mem_cons.mp h).resolve_left fun he => hp he.symm
      rw [if_neg fun he => hp ((eqKey_iff _ _).mp he), decodePresenceUserValue, ih hlater,
        beq_false_of_ne hp, if_neg Bool.false_ne_true, Nat.add_zero, decodePresenceUserValue]
      by_cases hi : k = i
      · simp [hp, ← hi]
      · simp [hi]

lemma isSome_find_eqKey {k : ℕ} : (find eqKey k patch).isSome ↔ k ∈ patch.map Prod.fst := by
  induction patch with
  | nil => simp
  | cons p ps ih =>
    rw [find, map_cons, mem_cons]
    by_cases h : p.1 = k
    · simp [h]
    · simpa [h, Ne.symm h] using ih

/-- A later patch is merged into queued pairs, with pairs of other fields after them: a field that
they name more than once keeps its last value. -/
lemma decode_foldl_mergePair (source target added : PresencePatch V)
    (hapart : ∀ k ∈ target.map Prod.fst, k ∉ added.map Prod.fst) (i : ℕ) :
    decodePresenceUserValue ((source.foldl mergePair (target, added)).1 ++
        (source.foldl mergePair (target, added)).2) i =
      (if 1 < (target.map Prod.fst).count i then none else decodePresenceUserValue source i).or
        (decodePresenceUserValue (target ++ added) i) := by
  induction source generalizing target added with
  | nil => simp [decodePresenceUserValue]
  | cons q source ih =>
    rw [foldl_cons, mergePair, decodePresenceUserValue]
    by_cases hq : q.1 ∈ target.map Prod.fst
    · -- the field is already named: its first pair is replaced
      have hkeys := keys_put q.2 hq
      rw [if_pos (isSome_find_eqKey.mpr hq), ih _ _ (by rwa [hkeys]), hkeys, decode_append,
        decode_append, decode_put _ hq]
      by_cases hi : q.1 = i
      · have hpos := count_pos_iff.mpr hq
        rw [← hi, decode_eq_none (hapart q.1 hq)]
        by_cases hmany : 1 < (target.map Prod.fst).count q.1
        · have hone : (target.map Prod.fst).count q.1 ≠ 1 := by omega
          simp [hmany, hone]
        · have hone : (target.map Prod.fst).count q.1 = 1 := by omega
          simp [hone]
      · simp [hi]
    · have hadded : ∀ k ∈ target.map Prod.fst, k ∉ (added ++ [q]).map Prod.fst := by
        intro k hk hmem
        rw [map_append, mem_append] at hmem
        cases hmem with
        | inl hadded => exact hapart k hk hadded
        | inr hkq => exact hq (mem_singleton.mp hkq ▸ hk)
      rw [if_neg fun hs => hq (isSome_find_eqKey.mp hs), ih target (added ++ [q]) hadded,
        ← append_assoc, decode_append _ [q]]
      by_cases hmany : 1 < (target.map Prod.fst).count i
      · have hi : q.1 ≠ i := by
          rintro rfl
          exact hq (count_pos_iff.mp (Nat.zero_lt_of_lt hmany))
        simp [hmany, hi, decodePresenceUserValue]
      · simp [hmany, decodePresenceUserValue, Option.or_assoc]

lemma decode_merged (target source : PresencePatch V) (i : ℕ) :
    decodePresenceUserValue (mergePayloadArrays target source) i =
      (if 1 < (target.map Prod.fst).count i then none else decodePresenceUserValue source i).or
        (decodePresenceUserValue target i) := by
  have hmerged := decode_foldl_mergePair source target [] (fun _ _ hk => nomatch hk) i
  rwa [append_nil] at hmerged

/-- The values of the merged patch come from the later one, unless a field that it names is named
more than once in the earlier one. -/
lemma decode_mergePayloadArrays {target source : PresencePatch V}
    (h : ∀ k ∈ source.map Prod.fst, (target.map Prod.fst).count k ≤ 1) (i : ℕ) :
    decodePresenceUserValue (mergePayloadArrays target source) i =
      (decodePresenceUserValue source i).or (decodePresenceUserValue target i) := by
  rw [decode_merged]
  split_ifs with hmany
  · rw [decode_eq_none fun hk => absurd (h i hk) (by omega)]
  · rfl

namespace PresenceRecord

variable {record : PresenceRecord V}

lemma slot_set {k : ℕ} (hk : k < record.length) (v : Option V)
    (i : ℕ) : slot (record.set k v) i = if k = i then v else slot record i := by
  unfold slot
  rw [getElem?_set]
  by_cases hi : k = i
  · subst hi
    simp [hk]
  · simp [hi]

lemma slot_mergeFromPayload {merged : PresenceRecord V}
    (h : mergeFromPayload s patch record = some merged) (i : ℕ) :
    slot merged i = (decodePresenceUserValue patch i).or (slot record i) := by
  have hfold : ∀ (patch : PresencePatch V) (record : PresenceRecord V), (∀ p ∈ patch, p.1 < record.length) →
      slot (patch.foldl (fun values p => values.set p.1 (some p.2)) record) i =
        (decodePresenceUserValue patch i).or (slot record i) := by
    intro patch
    induction patch with
    | nil => intros; rfl
    | cons p ps ih =>
      intro record hlt
      rw [foldl_cons, ih _ (by simpa using fun a b hp => hlt (a, b) (mem_cons_of_mem _ hp)),
        slot_set (hlt p mem_cons_self), decodePresenceUserValue, Option.or_assoc]
      congr 1
      split_ifs
      · rfl
      · rfl
  unfold mergeFromPayload at h
  split_ifs at h with hvalid
  cases h
  rw [Bool.and_eq_true] at hvalid
  exact hfold patch record fun p hp => by simpa using all_eq_true.mp hvalid.2 p hp

lemma slot_replicate (n i : ℕ) : slot (List.replicate n (none : Option V)) i = none := by
  unfold slot
  rw [getElem?_replicate]
  split_ifs
  · rfl
  · rfl

lemma decode_encode (record : PresenceRecord V) (i : ℕ) :
    decodePresenceUserValue (encodePresenceRecord record) i = slot record i := by
  have hslots : ∀ (record : PresenceRecord V) (j : ℕ),
      decodePresenceUserValue (encodePresenceSlots j record) i =
        if j ≤ i then slot record (i - j) else none := by
    intro record
    induction record with
    | nil => intro j; simp [encodePresenceSlots, decodePresenceUserValue, slot]
    | cons v vs ih =>
      intro j
      rw [encodePresenceSlots, decode_append, ih]
      by_cases hlt : j + 1 ≤ i
      · have hsub : i - j = (i - (j + 1)) + 1 := by omega
        have hne : j ≠ i := by omega
        have hle : j ≤ i := by omega
        rw [if_pos hlt, if_pos hle, hsub]
        cases v with
        | none => simp [slot, decodePresenceUserValue]
        | some x => simp [slot, decodePresenceUserValue, hne]
      · rw [if_neg hlt, Option.none_or]
        by_cases heq : j = i
        · subst heq
          cases v with
          | none => simp [slot, decodePresenceUserValue]
          | some x => simp [slot, decodePresenceUserValue]
        · have hle : ¬ j ≤ i := by omega
          rw [if_neg hle]
          cases v with
          | none => rfl
          | some x => simp [decodePresenceUserValue, heq]
  rw [encodePresenceRecord, hslots]
  simp

lemma forall_mergePayloadArrays {P : ℕ × V → Prop} {target source : PresencePatch V}
    (htarget : ∀ p ∈ target, P p) (hsource : ∀ p ∈ source, P p) :
    ∀ p ∈ mergePayloadArrays target source, P p := by
  have hfold : ∀ (source target added : PresencePatch V), (∀ p ∈ source, P p) →
      (∀ p ∈ target, P p) → (∀ p ∈ added, P p) →
      ∀ p ∈ (source.foldl mergePair (target, added)).1 ++ (source.foldl mergePair (target, added)).2, P p := by
    intro source
    induction source with
    | nil =>
      intro target added _ htarget hadded p hp
      exact (mem_append.mp hp).elim (htarget p) (hadded p)
    | cons q source ih =>
      intro target added hsource htarget hadded
      obtain ⟨hq, hrest⟩ := forall_mem_cons.mp hsource
      rw [foldl_cons, mergePair]
      split_ifs
      · refine ih _ _ hrest (fun p hp => ?_) hadded
        obtain ⟨hvalue, hkey⟩ | hold := fst_of_mem_put eqKey hp
        · have hpq : p = q := Prod.ext ((eqKey_iff _ _).mp hkey) hvalue
          exact hpq ▸ hq
        · exact htarget p hold
      · refine ih _ _ hrest htarget fun p hp => ?_
        obtain hold | hnew := mem_append.mp hp
        · exact hadded p hold
        · exact mem_singleton.mp hnew ▸ hq
  exact hfold source target [] hsource htarget fun _ hp => nomatch hp

lemma validatePayload_iff :
    validatePayload s patch = true ↔ ∀ p ∈ patch, p.1 < s.fieldCount ∧ s.accepts p.1 p.2 = true := by
  simp [validatePayload]

lemma mergeFromPayload_valid (hrecord : record.length = s.fieldCount) (hpatch : validatePayload s patch) :
    ∃ merged, mergeFromPayload s patch record = some merged ∧ merged.length = s.fieldCount := by
  have hlength : ∀ (patch : PresencePatch V) (record : PresenceRecord V),
      (patch.foldl (fun values p => values.set p.1 (some p.2)) record).length = record.length := by
    intro patch
    induction patch with
    | nil => intro; rfl
    | cons p ps ih => intro record; rw [foldl_cons, ih, length_set]
  have hfits : patch.all fun p => p.1 < record.length := by
    rw [all_eq_true]
    intro p hp
    rw [hrecord]
    exact decide_eq_true (validatePayload_iff.mp hpatch p hp).1
  refine ⟨_, ?_, (hlength patch record).trans hrecord⟩
  rw [mergeFromPayload, hpatch, hfits]
  rfl

lemma ext_slot {r r' : PresenceRecord V} (hlength : r.length = r'.length) :
    r = r' ↔ ∀ i, slot r i = slot r' i := by
  refine ⟨fun h _ => h ▸ rfl, fun h => ext_getElem hlength fun i hi hi' => ?_⟩
  have hslot := h i
  rwa [slot, slot, getElem?_eq_getElem hi, getElem?_eq_getElem hi'] at hslot

/-- A patch merged into a queued one writes what both write in order, exactly when the last values
agree of every field that the later patch names and the queued one names more than once. -/
theorem merge_coalesced_iff {record : PresenceRecord V} {a b : PresencePatch V}
    (hrecord : record.length = s.fieldCount) (ha : validatePayload s a)
    (hb : validatePayload s b) :
    mergeFromPayload s (mergePayloadArrays a b) record =
        (mergeFromPayload s a record).bind (mergeFromPayload s b) ↔
      ∀ k ∈ b.map Prod.fst, 1 < (a.map Prod.fst).count k →
        decodePresenceUserValue a k = decodePresenceUserValue b k := by
  have hboth : validatePayload s (mergePayloadArrays a b) := by
    rw [validatePayload_iff] at ha hb ⊢
    exact forall_mergePayloadArrays ha hb
  obtain ⟨coalesced, hcoalesced, hclen⟩ := mergeFromPayload_valid hrecord hboth
  obtain ⟨first, hfirst, hflen⟩ := mergeFromPayload_valid hrecord ha
  obtain ⟨second, hsecond, hslen⟩ := mergeFromPayload_valid hflen hb
  rw [hcoalesced, hfirst, Option.bind_some, hsecond, Option.some.injEq, ext_slot (hclen.trans hslen.symm)]
  refine forall_congr' fun i => ?_
  rw [slot_mergeFromPayload hcoalesced, slot_mergeFromPayload hsecond,
    slot_mergeFromPayload hfirst, decode_merged, Option.or_assoc]
  by_cases hmany : 1 < (a.map Prod.fst).count i
  · -- the queued patch keeps its last value
    obtain ⟨x, hx⟩ := Option.isSome_iff_exists.mp
      ((isSome_decode a i).mpr (count_pos_iff.mp (Nat.zero_lt_of_lt hmany)))
    rw [if_pos hmany, hx, Option.none_or, Option.some_or]
    constructor
    · intro heq hnamed _
      obtain ⟨y, hy⟩ := Option.isSome_iff_exists.mp ((isSome_decode b i).mpr hnamed)
      rw [hy, Option.some_or] at heq
      exact heq.trans hy.symm
    · intro hlast
      by_cases hnamed : i ∈ b.map Prod.fst
      · rw [← hlast hnamed hmany, Option.some_or]
      · rw [decode_eq_none hnamed, Option.none_or]
  · simp [hmany]

end PresenceRecord

namespace CoalescedExample

/-- One field that takes any number. -/
def count : PresenceSchema ℕ := ⟨1, fun _ _ => true, id⟩

def twice : PresencePatch ℕ := [(0, 1), (0, 2)]

theorem coalesced_once : mergeFromPayload count (mergePayloadArrays [(0, 1)] [(0, 3)])
    [none] = some [some 3] := by
  have hrecord : ([none] : PresenceRecord ℕ).length = count.fieldCount := rfl
  have hmerge := merge_coalesced_iff hrecord (a := [(0, 1)]) (b := [(0, 3)]) rfl rfl
  exact (hmerge.mpr (by decide)).trans rfl

/-- The broadcast carries 2 for the field after the updates 1, 2 and 3. -/
theorem coalesced_twice_differ :
    ¬ ∀ (record : PresenceRecord ℕ) (a b : PresencePatch ℕ), record.length = count.fieldCount →
      PresenceRecord.validatePayload count a → PresenceRecord.validatePayload count b →
      mergeFromPayload count (mergePayloadArrays a b) record =
        (mergeFromPayload count a record).bind (mergeFromPayload count b) := by
  intro h
  exact absurd (h [none] twice [(0, 3)] rfl rfl rfl) (by decide)

end CoalescedExample
end ZyncBase
