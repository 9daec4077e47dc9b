import ZyncBase.Presence.Patches

/-! What is queued for a user: applied to what a subscriber knows of the user, with the patch merged
field by field, it gives the entry that the manager has. -/
namespace ZyncBase

open AssocMap PresenceRecord List Option

variable {V : Type} {s : PresenceSchema V}

namespace PendingUserUpdate

/-- Only a leave has no patch, and a leave is no join. -/
structure WellFormed (u : PendingUserUpdate V) : Prop where
  leave : u.isLeave = u.patch.isNone
  join : u.isLeave → u.isNewUser = false

/-- What the update makes of an entry when its patch is merged field by field. -/
def settle (u : PendingUserUpdate V) (existing : Option (PresenceEntry V)) : Option (PresenceEntry V) :=
  applyBroadcastEntry id u existing

lemma spread_id (patch : PresencePatch V) (data : ℕ → Option V) (i : ℕ) :
    spread id patch data i = (decodePresenceUserValue patch i).or (data i) := by
  unfold spread
  split_ifs with h
  · obtain ⟨p, hp, he⟩ := any_eq_true.mp h
    have hi : (decodePresenceUserValue patch i).isSome :=
      (isSome_decode patch i).mpr (mem_map.mpr ⟨p, hp, by simpa using he⟩)
    rw [or_of_isSome hi]
  · rw [decode_eq_none, none_or]
    intro hi
    obtain ⟨p, hp, he⟩ := mem_map.mp hi
    exact h (any_eq_true.mpr ⟨p, hp, by simpa using he⟩)

/-- The queued update of a user, applied to what a subscriber knows. -/
def settleQueued (queued : Option (PendingUserUpdate V)) (existing : Option (PresenceEntry V)) :
    Option (PresenceEntry V) :=
  match queued with
  | none => existing
  | some u => u.settle existing

variable {queued : Option (PendingUserUpdate V)} {u : PendingUserUpdate V}
  {known : Option (PresenceEntry V)} {patch : PresencePatch V}

lemma settle_leave (h : u.isLeave) : u.settle known = none := if_pos h

lemma settle_join (hl : u.isLeave = false) (hn : u.isNewUser) :
    u.settle known = some ⟨decodePresenceUserValue (u.patch.getD []), u.joinedAt⟩ := by
  unfold settle applyBroadcastEntry
  dsimp only
  rw [hl, if_neg Bool.false_ne_true, if_pos hn]

lemma settle_update (hl : u.isLeave = false) (hn : u.isNewUser = false) : u.settle known = some
    ⟨fun i => (decodePresenceUserValue (u.patch.getD []) i).or
      ((known.map PresenceEntry.data).elim none (· i)), (known.map PresenceEntry.joinedAt).getD 0⟩ := by
  unfold settle applyBroadcastEntry
  dsimp only
  rw [hl, if_neg Bool.false_ne_true, hn, if_neg Bool.false_ne_true]
  cases known with
  | none => simp
  | some e =>
    dsimp only
    rw [Option.some.injEq]
    exact PresenceEntry.ext (funext fun i => spread_id _ _ i) rfl

/-- The patch names every field that is set in the properties that it names. -/
def NamesWhole (topKey : ℕ → ℕ) (patch : PresencePatch V) (data : ℕ → Option V) : Prop :=
  ∀ i, (data i).isSome → (∃ k ∈ patch.map Prod.fst, topKey k = topKey i) → i ∈ patch.map Prod.fst

lemma spread_eq_spread_id {topKey : ℕ → ℕ} {data : ℕ → Option V}
    (h : NamesWhole topKey patch data) : spread topKey patch data = spread id patch data := by
  funext i
  by_cases hi : i ∈ patch.map Prod.fst
  · obtain ⟨p, hp, rfl⟩ := mem_map.mp hi
    unfold spread
    rw [if_pos (any_eq_true.mpr ⟨p, hp, by simp⟩), if_pos (any_eq_true.mpr ⟨p, hp, by simp⟩)]
  · rw [spread_id, decode_eq_none hi, none_or]
    unfold spread
    split_ifs with hany
    · obtain ⟨p, hp, he⟩ := any_eq_true.mp hany
      have hunset : ¬ (data i).isSome := fun hset =>
        hi (h i hset ⟨p.1, mem_map_of_mem hp, by simpa using he⟩)
      rw [decode_eq_none hi, not_isSome_iff_eq_none.mp hunset]
    · rfl

/-- The client merges as the queue does when the entry that results has no other fields in the
properties of the patch. -/
lemma applyBroadcastEntry_eq_settle {topKey : ℕ → ℕ} {user : Option (PresenceUser V)}
    (hsettle : u.settle known = user.map PresenceUser.entry)
    (hwhole : u.isLeave = false → u.isNewUser = false → ∀ x, user = some x →
      NamesWhole topKey (u.patch.getD []) x.data.slot) :
    applyBroadcastEntry topKey u known = u.settle known := by
  cases hl : u.isLeave with
  | true =>
    rw [settle_leave hl]
    exact if_pos hl
  | false =>
    cases hn : u.isNewUser with
    | true => simp [settle, applyBroadcastEntry, hl, hn]
    | false =>
      cases known with
      | none => simp [settle, applyBroadcastEntry, hl, hn]
      | some e =>
        obtain ⟨x, rfl⟩ : ∃ x, user = some x := by
          rw [settle_update hl hn] at hsettle
          cases user with
          | none => cases hsettle
          | some x => exact ⟨x, rfl⟩
        have hset : ∀ i, (e.data i).isSome → (x.data.slot i).isSome := by
          intro i hi
          rw [settle_update hl hn] at hsettle
          have hdata := congrFun (congrArg PresenceEntry.data (Option.some.inj hsettle)) i
          change _ = x.data.slot i at hdata
          rw [← hdata, isSome_or, Bool.or_eq_true]
          exact .inr hi
        have hspread := spread_eq_spread_id fun i hi hk => hwhole hl hn x rfl i (hset i hi) hk
        simp [settle, applyBroadcastEntry, hl, hn, hspread]

lemma settleQueued_settleQueued :
    settleQueued queued (settleQueued queued known) = settleQueued queued known := by
  cases queued with
  | none => rfl
  | some u =>
    change u.settle (u.settle known) = u.settle known
    cases hl : u.isLeave with
    | true => rw [settle_leave hl, settle_leave hl]
    | false =>
      cases hn : u.isNewUser with
      | true => rw [settle_join hl hn, settle_join hl hn]
      | false =>
        rw [settle_update hl hn, settle_update hl hn, Option.some.injEq]
        refine PresenceEntry.ext (funext fun i => ?_) rfl
        dsimp only [map_some, elim_some]
        rw [← Option.or_assoc, Option.or_self]

/-- After a user is set, the queued update brings a subscriber from what it knew to the new entry. -/
lemma settle_queue (hwf : ∀ u, queued = some u → u.WellFormed)
    (hnamed : ∀ u queuedPatch, queued = some u → u.patch = some queuedPatch →
      ∀ k ∈ patch.map Prod.fst, (queuedPatch.map Prod.fst).count k ≤ 1)
    {user : Option (PresenceUser V)} {data : PresenceRecord V} {now : ℤ}
    (hknown : settleQueued queued known = user.map PresenceUser.entry)
    (hmerge : mergeFromPayload s patch
      (user.getD ⟨List.replicate s.fieldCount none, now⟩).data = some data) :
    (queue queued patch user.isNone now).settle known =
      some ⟨data.slot, (user.getD ⟨List.replicate s.fieldCount none, now⟩).joinedAt⟩ := by
  have hslot := slot_mergeFromPayload hmerge
  cases hqueued : queued with
  | none =>
    rw [hqueued] at hknown
    change known = _ at hknown
    subst hknown
    cases user with
    | none =>
      rw [settle_join rfl rfl, Option.some.injEq]
      refine PresenceEntry.ext (funext fun i => ?_) rfl
      dsimp only
      rw [hslot i, getD_none, slot_replicate, or_none]
      rfl
    | some x =>
      rw [settle_update rfl rfl, Option.some.injEq]
      exact PresenceEntry.ext (funext fun i => (hslot i).symm) rfl
  | some u =>
    rw [hqueued] at hknown
    change u.settle known = _ at hknown
    have huwf := hwf u hqueued
    cases hl : u.isLeave with
    | true =>
      -- the user left in this interval and joins again
      rw [settle_leave hl] at hknown
      have hpatch : u.patch = none := isNone_iff_eq_none.mp (huwf.leave ▸ hl)
      have hn := huwf.join hl
      cases user with
      | some x => cases hknown
      | none =>
        rw [settle_join rfl (by simp [queue, coalesce]), Option.some.injEq]
        refine PresenceEntry.ext (funext fun i => ?_) (by simp [queue, coalesce, hn])
        dsimp only
        rw [hslot i, getD_none, slot_replicate, or_none]
        simp [queue, coalesce, hpatch]
    | false =>
      obtain ⟨queuedPatch, hpatch⟩ : ∃ queuedPatch, u.patch = some queuedPatch := by
        rw [← isSome_iff_exists, ← not_isNone, ← huwf.leave, hl]
        rfl
      have hmerged := decode_mergePayloadArrays (hnamed u queuedPatch hqueued hpatch)
      have hcoalesced : (u.coalesce patch user.isNone now).patch.getD [] =
          mergePayloadArrays queuedPatch patch := by simp [coalesce, hpatch]
      cases hn : u.isNewUser with
      | true =>
        rw [settle_join hl hn, hpatch] at hknown
        cases user with
        | none => cases hknown
        | some x =>
          obtain ⟨hdata, hjoined⟩ := PresenceEntry.ext_iff.mp (Option.some.inj hknown)
          rw [queue, settle_join rfl (by simp [coalesce, hn]), hcoalesced, Option.some.injEq]
          have hjoined : u.joinedAt = x.joinedAt := hjoined
          refine PresenceEntry.ext (funext fun i => ?_) (by simpa [coalesce, hn] using hjoined)
          dsimp only
          rw [hmerged i, hslot i]
          exact congrArg _ (congrFun hdata i)
      | false =>
        rw [settle_update hl hn, hpatch] at hknown
        cases user with
        | none => cases hknown
        | some x =>
          obtain ⟨hdata, hjoined⟩ := PresenceEntry.ext_iff.mp (Option.some.inj hknown)
          rw [queue, settle_update rfl (by simp [coalesce, hn]), hcoalesced, Option.some.injEq]
          refine PresenceEntry.ext (funext fun i => ?_) hjoined
          dsimp only
          rw [hmerged i, hslot i, Option.or_assoc]
          exact congrArg _ (congrFun hdata i)

lemma wellFormed_queue (isNewUser : Bool) (now : ℤ) : (queue queued patch isNewUser now).WellFormed := by
  cases queued with
  | none => exact ⟨rfl, fun h => nomatch h⟩
  | some u => exact ⟨rfl, fun h => nomatch h⟩

end PendingUserUpdate

/-- What is queued after a user has left brings a subscriber to know the user no longer, unless a
join is withdrawn that it knows of. -/
lemma settle_queueLeave {pending : List ((ℤ × DocId) × PendingUserUpdate V)} {key : ℤ × DocId}
    {known : Option (PresenceEntry V)}
    (hjoin : ∀ u, find eqKey key pending = some u → u.isNewUser → known = none) :
    PendingUserUpdate.settleQueued (find eqKey key (PresenceManager.queueLeave key pending)) known = none := by
  unfold PresenceManager.queueLeave
  cases hq : find eqKey key pending with
  | none =>
    dsimp only
    rw [find_put, if_pos ((eqKey_iff _ _).mpr rfl)]
    rfl
  | some u =>
    dsimp only
    split_ifs with hleave hn
    · rw [hq]
      rw [Bool.and_eq_true] at hleave
      exact PendingUserUpdate.settle_leave hleave.2
    · rw [find_remove, if_pos ((eqKey_iff _ _).mpr rfl)]
      exact hjoin u hq hn
    · rw [find_put, if_pos ((eqKey_iff _ _).mpr rfl)]
      rfl

end ZyncBase
