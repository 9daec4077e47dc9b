import ZyncBase.Presence.Failures

/-! When a presence call that fails has undone everything: in every state that runs can reach, exactly when
nothing fails after the point from which the call does not go back. -/
namespace ZyncBase

open List

variable {times : List (DocId × ℤ)} {sourceConn : ℕ}

namespace PresenceFailures

open AssocMap Function Machine
open Option (bind_some getD_none getD_some isNone_some isSome_some map_some)
open Attempt (meets_bind meets_change meets_read meets_onError meets_pure meets_fail)

variable {V : Type} {fails : Faults}

section Merges

lemma fst_foldl_mergePair (later target added : PresencePatch V) :
    (later.foldl mergePair (target, added)).1 = replaced target later := by
  induction later generalizing target added with
  | nil => rfl
  | cons q later ih =>
    rw [foldl_cons, mergePair, replaced, foldl_cons]
    split_ifs
    · exact ih _ _
    · exact ih _ _

lemma snd_foldl_mergePair (later target added : PresencePatch V) : (later.foldl mergePair (target, added)).2 =
    added ++ later.filter fun q => (find eqKey q.1 target).isNone := by
  induction later generalizing target added with
  | nil => simp
  | cons q later ih =>
    rw [foldl_cons, mergePair, filter_cons]
    by_cases hq : (find eqKey q.1 target).isSome
    · have hnone (q' : ℕ × V) :
          (find eqKey q'.1 (put eqKey q.1 q.2 target)).isNone = (find eqKey q'.1 target).isNone := by
        rw [find_put]
        split_ifs with hkey
        · rw [← (eqKey_iff _ _).mp hkey]
          simp [Option.isNone_eq_false_iff.mpr hq]
        · rfl
      rw [if_pos hq, ih, if_neg (by simp [Option.isNone_eq_false_iff.mpr hq])]
      simp only [hnone]
    · rw [if_neg hq, ih, if_pos (by simpa using hq), List.append_assoc]
      rfl

lemma mergePairs_snd (fails : Faults) (i : ℕ) (p : PresencePatch V × PresencePatch V) (source : PresencePatch V) :
    (mergePairs fails i p source).2 = (handled fails i source).foldl mergePair p := by
  induction source generalizing i p with
  | nil => rfl
  | cons q source ih =>
    rw [mergePairs, handled]
    split_ifs
    · rfl
    · exact ih _ _

lemma mergePairs_fst (fails : Faults) (i : ℕ) (p : PresencePatch V × PresencePatch V) (source : PresencePatch V) :
    (mergePairs fails i p source).1 = true ↔ handled fails i source = source := by
  induction source generalizing i p with
  | nil => simp [mergePairs, handled]
  | cons q source ih =>
    rw [mergePairs, handled]
    split_ifs
    · simp
    · rw [ih, List.cons.injEq, eq_self_iff_true, true_and]

lemma mergePayloadArrays_failed (queued patch : PresencePatch V) :
    (mergePayloadArrays fails queued patch).1 = false ↔ MergeFails fails queued patch := by
  have hpairs := mergePairs_fst fails 0 (queued, []) patch
  have hadded : handled fails 0 patch = patch → (mergePairs fails 0 (queued, []) patch).2.2 =
      patch.filter fun q => (find eqKey q.1 queued).isNone := by
    intro hall
    rw [mergePairs_snd, hall, snd_foldl_mergePair, nil_append]
  have hgrow : (!(patch.filter fun q => (find eqKey q.1 queued).isNone).isEmpty) = true ↔
      ∃ q ∈ patch, find eqKey q.1 queued = none := by
    simp
  unfold mergePayloadArrays MergeFails
  dsimp only
  by_cases hall : handled fails 0 patch = patch
  · rw [hadded hall, hpairs.mpr hall, Bool.not_true, Bool.false_or]
    split_ifs with h
    · rw [Bool.and_eq_true, hgrow] at h
      exact iff_of_true rfl (.inr h.symm)
    · rw [Bool.and_eq_true, hgrow] at h
      exact iff_of_false (fun h' => nomatch h') fun hfails => hfails.elim (· hall) fun hf => h hf.symm
  · rw [Bool.eq_false_iff.mpr (mt hpairs.mp hall)]
    exact iff_of_true rfl (.inl hall)

lemma mergePayloadArrays_left {queued patch : PresencePatch V}
    (h : (mergePayloadArrays fails queued patch).1 = false) :
    (mergePayloadArrays fails queued patch).2 = replaced queued (handled fails 0 patch) := by
  rw [← fst_foldl_mergePair _ _ [], ← mergePairs_snd]
  unfold mergePayloadArrays at h ⊢
  dsimp only at h ⊢
  split_ifs at h ⊢
  rfl

end Merges

section Queues

variable {m : PresenceStore V} {E : PresenceStore V → Prop} {Q : Unit → PresenceStore V → Prop}

lemma meets_alloc {site : AllocSite} : (alloc fails site).Meets m Q E ↔ if fails site then E m else Q () m := by
  unfold Attempt.Meets alloc
  split_ifs
  · rfl
  · rfl

lemma leavesAsBefore_iff {call : Attempt (PresenceStore V) Unit} :
    LeavesAsBefore call m ↔ call.Meets m (fun _ _ => True) fun m' => m'.contents = m.contents := by
  rw [Attempt.meets_error_iff]
  rfl

/-- What is queued for users after a patch could not be queued. -/
def leftUsers (fails : Faults) (key : ℤ × DocId) (patch : PresencePatch V)
    (pending : List ((ℤ × DocId) × PendingUserUpdate V)) : List ((ℤ × DocId) × PendingUserUpdate V) :=
  match find eqKey key pending with
  | none => pending
  | some existing =>
    match existing.patch with
    | none => pending
    | some queued =>
      put eqKey key { existing with patch := some (replaced queued (handled fails 0 patch)) } pending

lemma meets_queueUserUpdate {namespaceId : ℤ} {userId : DocId} {patch : PresencePatch V} {now : ℤ}
    {isNewUser : Bool} :
    (queueUserUpdate fails namespaceId userId patch now isNewUser).Meets m (fun _ _ => True) E ↔
      (UserQueueFails fails patch (find eqKey (namespaceId, userId) m.pendingUserUpdates) →
        E { m with pendingUserUpdates :=
              leftUsers fails (namespaceId, userId) patch m.pendingUserUpdates }) := by
  rw [queueUserUpdate, meets_bind, meets_read]
  unfold leftUsers UserQueueFails
  cases hqueued : find eqKey (namespaceId, userId) m.pendingUserUpdates with
  | none =>
    simp only [meets_bind, meets_alloc, meets_change]
    cases fails .clone <;> cases fails .append <;> simp
  | some existing =>
    cases hpatch : existing.patch with
    | none =>
      simp only [coalescePendingUpdate, hpatch, meets_bind, meets_alloc, meets_pure, meets_change]
      cases fails .clone <;> simp
    | some queued =>
      simp only [coalescePendingUpdate, hpatch, meets_bind, meets_change]
      rw [← mergePayloadArrays_failed]
      cases hok : (mergePayloadArrays fails queued patch).1 with
      | false =>
        simp [meets_bind, meets_fail, mergePayloadArrays_left hok]
      | true => simp [meets_bind, meets_pure, meets_change]

end Queues

variable {record : PresenceRecord V}

section Contents

variable {m x : PresenceStore V} {namespaceId : ℤ} {userId : DocId}

/-- Users who are not present have no join time, and no namespace keeps an empty map of them. -/
structure Inv (m : PresenceStore V) : Prop where
  joined : ∀ namespaceId userId times, m.userRecord namespaceId userId = none →
    find eqKey namespaceId m.userJoinedAt = some times → find eqKey userId times = none
  nonempty : ∀ namespaceId times, find eqKey namespaceId m.userJoinedAt = some times → times ≠ []

lemma dropUser_restores {users : List (DocId × PresenceRecord V)}
    (hx : x.userState = put eqKey namespaceId users m.userState)
    (husers : remove eqKey userId users = (find eqKey namespaceId m.userState).getD []) :
    x.dropUser namespaceId userId (find eqKey namespaceId m.userState).isNone =
      { x with userState := m.userState } := by
  unfold PresenceStore.dropUser
  rw [hx, find_put_self, getD_some, husers]
  cases hfound : find eqKey namespaceId m.userState with
  | none => simp [remove_put, remove_of_find_none hfound]
  | some old => simp [put_put, put_eq_self hfound]

lemma dropJoined_restores (hm : Inv m) (hx : x.userJoinedAt = put eqKey namespaceId times m.userJoinedAt)
    (htimes : remove eqKey userId times = (find eqKey namespaceId m.userJoinedAt).getD []) :
    x.dropJoined namespaceId userId = { x with userJoinedAt := m.userJoinedAt } := by
  unfold PresenceStore.dropJoined
  rw [hx, find_put_self]
  dsimp only
  rw [htimes]
  cases hfound : find eqKey namespaceId m.userJoinedAt with
  | none =>
    rw [getD_none, isEmpty_nil, if_pos rfl, PresenceStore.dropJoinedNamespace, hx, remove_put,
      remove_of_find_none hfound]
  | some old => simp [hm.nonempty namespaceId old hfound, put_put, put_eq_self hfound]

lemma nested_put {ν : Type} (users : List (DocId × ν)) (maps : List (ℤ × List (DocId × ν))) :
    nested (put eqKey namespaceId users maps) =
      update (nested maps) namespaceId (some fun userId => find eqKey userId users) := by
  funext n
  rw [update_apply, nested, nested, find_put]
  by_cases h : n = namespaceId
  · simp [h]
  · simp [h, Ne.symm h]

lemma nested_putUser {old : PresenceRecord V} (hold : m.userRecord namespaceId userId = some old) :
    nested (m.putUser namespaceId userId record).userState = nested m.userState ↔ record = old := by
  obtain ⟨users, husers, huser⟩ := Option.bind_eq_some_iff.mp hold
  rw [PresenceStore.putUser, husers, getD_some, nested_put]
  constructor
  · intro h
    have hat := congrFun h namespaceId
    rw [update_self, nested, husers, map_some, Option.some.injEq] at hat
    have hrecord := congrFun hat userId
    rw [find_put_self, huser] at hrecord
    exact Option.some.inj hrecord
  · rintro rfl
    rw [put_eq_self huser, update_eq_self_iff, nested, husers, map_some]

lemma find_remove_eq_iff (graces : List (ℤ × ℤ)) :
    ((fun n => find eqKey n (remove eqKey namespaceId graces)) = fun n => find eqKey n graces) ↔
      find eqKey namespaceId graces = none := by
  rw [find_remove_eqKey, update_eq_self_iff, eq_comm]

lemma leftUsers_eq_iff (patch : PresencePatch V) :
    leftUsers fails (namespaceId, userId) patch m.pendingUserUpdates = m.pendingUserUpdates ↔
      QueueKept fails ((find eqKey (namespaceId, userId) m.pendingUserUpdates).bind
        PendingUserUpdate.patch) patch := by
  unfold leftUsers QueueKept
  cases hqueued : find eqKey (namespaceId, userId) m.pendingUserUpdates with
  | none => simp
  | some existing =>
    cases hpatch : existing.patch with
    | none => simp [hpatch]
    | some queued =>
      simp only [bind_some, hpatch, Option.some.injEq, forall_eq']
      constructor
      · intro h
        have hat := congrArg (find eqKey (namespaceId, userId)) h
        rw [find_put_self, hqueued, Option.some.injEq] at hat
        have hboth := congrArg PendingUserUpdate.patch hat
        rw [hpatch] at hboth
        exact Option.some.inj hboth
      · intro h
        rw [h, ← hpatch]
        exact put_eq_self hqueued

end Contents

section SetUser

variable {m : PresenceStore V} {namespaceId : ℤ} {userId : DocId} {patch : PresencePatch V} {now : ℤ}
  {s : PresenceSchema V}

def leftStored (fails : Faults) (namespaceId : ℤ) (userId : DocId) (patch : PresencePatch V)
    (merged : PresenceRecord V) (m : PresenceStore V) : PresenceStore V :=
  { m.putUser namespaceId userId merged with
    namespaceEmptyAt := remove eqKey namespaceId m.namespaceEmptyAt
    pendingUserUpdates := leftUsers fails (namespaceId, userId) patch m.pendingUserUpdates }

variable {E : PresenceStore V → Prop}

lemma meets_storeUser {isNewUser : Bool} (hrecord : m.userRecord namespaceId userId = some record) :
    (storeUser fails namespaceId userId patch now s isNewUser).Meets m (fun _ _ => True) E ↔
      (mergeFromPayload fails s patch record = none → E m) ∧
        ∀ merged, mergeFromPayload fails s patch record = some merged →
          UserQueueFails fails patch (find eqKey (namespaceId, userId) m.pendingUserUpdates) →
          E (leftStored fails namespaceId userId patch merged m) := by
  rw [storeUser, meets_bind, mergeUser, meets_bind, meets_read, hrecord, getD_some]
  cases hmerge : mergeFromPayload fails s patch record with
  | none => simp [meets_fail]
  | some merged =>
    rw [meets_change, meets_bind, cancelGrace, meets_change, meets_queueUserUpdate]
    simp [leftStored, PresenceStore.putUser]

lemma meets_getOrPutNamespace {Q : Bool → PresenceStore V → Prop} :
    (getOrPutNamespace fails namespaceId).Meets m Q E ↔
      if (find eqKey namespaceId m.userState).isSome then Q false m
      else if fails .namespace then E m
      else Q true { m with userState := put eqKey namespaceId [] m.userState } := by
  rw [getOrPutNamespace, meets_bind, meets_read]
  split_ifs with hfound hfails
  · rfl
  · rw [meets_bind, meets_alloc, if_pos hfails]
  · rw [meets_bind, meets_alloc, if_neg hfails]
    rfl

lemma meets_getOrPutUser {Q : Bool → PresenceStore V → Prop} :
    (getOrPutUser fails namespaceId userId).Meets m Q E ↔
      if (m.userRecord namespaceId userId).isSome then Q false m
      else if fails .user then E m else Q true m := by
  rw [getOrPutUser, meets_bind, meets_read]
  split_ifs with hfound hfails
  · rfl
  · rw [meets_bind, meets_alloc, if_pos hfails]
  · rw [meets_bind, meets_alloc, if_neg hfails]
    rfl

/-- The record of a user who is present is merged, and not put back where the patch cannot be queued. -/
lemma leavesAsBefore_existing {old : PresenceRecord V} (hold : m.userRecord namespaceId userId = some old) :
    LeavesAsBefore (setUser fails namespaceId userId patch now s) m ↔
      ∀ merged, mergeFromPayload fails s patch old = some merged →
        UserQueueFails fails patch (find eqKey (namespaceId, userId) m.pendingUserUpdates) →
        find eqKey namespaceId m.namespaceEmptyAt = none ∧ merged = old ∧
          QueueKept fails ((find eqKey (namespaceId, userId) m.pendingUserUpdates).bind
            PendingUserUpdate.patch) patch := by
  obtain ⟨users, husers, huser⟩ := Option.bind_eq_some_iff.mp hold
  rw [leavesAsBefore_iff, setUser, meets_bind, meets_getOrPutNamespace, husers,
    if_pos isSome_some, meets_bind, meets_getOrPutUser, hold, if_pos isSome_some]
  dsimp only
  rw [if_neg Bool.false_ne_true, meets_onError, meets_storeUser hold]
  have hleft (merged : PresenceRecord V) :
      (leftStored fails namespaceId userId patch merged m).contents = m.contents ↔
        find eqKey namespaceId m.namespaceEmptyAt = none ∧ merged = old ∧
          QueueKept fails ((find eqKey (namespaceId, userId) m.pendingUserUpdates).bind
            PendingUserUpdate.patch) patch := by
    rw [← nested_putUser hold, ← leftUsers_eq_iff, ← find_remove_eq_iff m.namespaceEmptyAt]
    simp only [leftStored, PresenceStore.contents, PresenceContents.mk.injEq, PresenceStore.putUser,
      true_and, and_true]
    tauto
  simp only [userCleanup, Bool.false_eq_true, if_false, hleft, implies_true, true_and]

/-- An allocation fails while the join time is recorded. -/
def JoinFails (fails : Faults) (namespaceId : ℤ) (m : PresenceStore V) : Prop :=
  (find eqKey namespaceId m.userJoinedAt).isNone ∧ fails .joinedNamespace ∨ fails .joined

lemma meets_recordJoin {Q : Unit → PresenceStore V → Prop} :
    (recordJoin fails namespaceId userId now).Meets m Q E ↔ (JoinFails fails namespaceId m → E m) ∧
        (¬ JoinFails fails namespaceId m → Q () (m.putJoined namespaceId userId now)) := by
  rw [recordJoin, meets_bind, meets_read]
  unfold JoinFails
  cases hfound : find eqKey namespaceId m.userJoinedAt with
  | some times =>
    dsimp only
    rw [if_pos isSome_some, meets_bind, meets_alloc]
    cases fails .joined <;> simp [meets_change]
  | none =>
    have hdrop : PresenceStore.dropJoinedNamespace namespaceId
        { m with userJoinedAt := put eqKey namespaceId [] m.userJoinedAt } = m := by
      rw [PresenceStore.dropJoinedNamespace, remove_put, remove_of_find_none hfound]
    have hput : PresenceStore.putJoined namespaceId userId now
        { m with userJoinedAt := put eqKey namespaceId [] m.userJoinedAt } =
          m.putJoined namespaceId userId now := by
      rw [PresenceStore.putJoined, PresenceStore.putJoined, hfound, find_put_self, put_put]
      rfl
    dsimp only
    rw [if_neg (by simp), meets_bind, meets_alloc, meets_bind, meets_change,
      meets_bind, meets_onError, meets_alloc, hdrop, meets_change, hput]
    cases fails .joinedNamespace <;> cases fails .joined <;> simp

lemma userCleanup_restores (hm : Inv m) {x : PresenceStore V} {users : List (DocId × PresenceRecord V)}
    (hx : x.userState = put eqKey namespaceId users m.userState)
    (husers : remove eqKey userId users = (find eqKey namespaceId m.userState).getD [])
    (hj : x.userJoinedAt = put eqKey namespaceId times m.userJoinedAt)
    (htimes : remove eqKey userId times = (find eqKey namespaceId m.userJoinedAt).getD []) :
    userCleanup namespaceId userId (find eqKey namespaceId m.userState).isNone true x =
      { x with userState := m.userState, userJoinedAt := m.userJoinedAt } := by
  rw [userCleanup, if_pos rfl, dropUser_restores hx husers]
  exact dropJoined_restores hm hj htimes

/-- The namespace with its map, which may be new. -/
def withNamespace (namespaceId : ℤ) (m : PresenceStore V) : PresenceStore V :=
  let users := (find eqKey namespaceId m.userState).getD []
  { m with userState := put eqKey namespaceId users m.userState }

lemma meets_newUser (fails : Faults) (patch : PresencePatch V) (now : ℤ) (s : PresenceSchema V)
    (hm : Inv m) (hnew : m.userRecord namespaceId userId = none) :
    (initNewUserRecord fails namespaceId userId now s.fieldCount
        (find eqKey namespaceId m.userState).isNone >>= fun _ =>
      (storeUser fails namespaceId userId patch now s true).onError
        (userCleanup namespaceId userId (find eqKey namespaceId m.userState).isNone true)).Meets
      (withNamespace namespaceId m) (fun _ _ => True) E ↔
      (fails .record ∨ JoinFails fails namespaceId m ∨
        mergeFromPayload fails s patch (List.replicate s.fieldCount none) = none → E m) ∧
      ∀ merged, mergeFromPayload fails s patch (List.replicate s.fieldCount none) = some merged →
        ¬ fails .record ∧ ¬ JoinFails fails namespaceId m →
        UserQueueFails fails patch (find eqKey (namespaceId, userId) m.pendingUserUpdates) →
        E { m with
          namespaceEmptyAt := remove eqKey namespaceId m.namespaceEmptyAt
          pendingUserUpdates := leftUsers fails (namespaceId, userId) patch m.pendingUserUpdates } := by
  set users := (find eqKey namespaceId m.userState).getD [] with husers
  set times := (find eqKey namespaceId m.userJoinedAt).getD [] with htimes
  have hfree : find eqKey userId users = none := by
    unfold PresenceStore.userRecord at hnew
    cases hfound : find eqKey namespaceId m.userState with
    | none => simp [husers, hfound]
    | some old => simpa [husers, hfound] using hnew
  have hunjoined : find eqKey userId times = none := by
    cases hfound : find eqKey namespaceId m.userJoinedAt with
    | none => simp [htimes, hfound]
    | some old => simpa [htimes, hfound] using hm.joined namespaceId userId old hnew hfound
  have hremoved (record : PresenceRecord V) :
      remove eqKey userId (put eqKey userId record users) = users := by
    rw [remove_put, remove_of_find_none hfree]
  have htaken : remove eqKey userId (put eqKey userId now times) = times := by
    rw [remove_put, remove_of_find_none hunjoined]
  rw [meets_bind, initNewUserRecord, meets_onError, meets_bind, meets_alloc]
  by_cases hrecord : fails .record
  · rw [if_pos hrecord, dropUser_restores rfl (remove_of_find_none hfree)]
    simp only [hrecord, true_or, not_true_eq_false, false_and, true_imp_iff, false_imp_iff, implies_true,
      and_true]
    exact Iff.rfl
  rw [if_neg hrecord, meets_bind, meets_change, meets_recordJoin]
  set blank : PresenceRecord V := List.replicate s.fieldCount none
  set m₁ := PresenceStore.putUser namespaceId userId blank (withNamespace namespaceId m) with hm₁
  have hstate₁ : m₁.userState = put eqKey namespaceId (put eqKey userId blank users) m.userState := by
    rw [hm₁, PresenceStore.putUser, withNamespace, find_put_self, getD_some, put_put]
  have hjoin : JoinFails fails namespaceId m₁ ↔ JoinFails fails namespaceId m := Iff.rfl
  rw [hjoin, dropUser_restores hstate₁ (hremoved blank)]
  have hback : { m₁ with userState := m.userState } = m := rfl
  rw [hback]
  by_cases hjoined : JoinFails fails namespaceId m
  · simp only [hjoined, not_true_eq_false, and_false, true_or, or_true, true_imp_iff, false_imp_iff,
      implies_true, and_true]
  set m₂ := m₁.putJoined namespaceId userId now with hm₂
  have hpresent : m₂.userRecord namespaceId userId = some blank := by
    change (find eqKey namespaceId m₁.userState).bind (find eqKey userId) = _
    rw [hstate₁, find_put_self, bind_some, find_put_self]
  have hjoined₂ : m₂.userJoinedAt = put eqKey namespaceId (put eqKey userId now times) m.userJoinedAt := rfl
  have hleft (merged : PresenceRecord V) : (leftStored fails namespaceId userId patch merged m₂).userState =
        put eqKey namespaceId (put eqKey userId merged users) m.userState := by
    change put eqKey namespaceId (put eqKey userId merged ((find eqKey namespaceId m₁.userState).getD []))
      m₁.userState = _
    rw [hstate₁, find_put_self, getD_some, put_put, put_put]
  have hcleaned : userCleanup namespaceId userId (find eqKey namespaceId m.userState).isNone true m₂ = m :=
    userCleanup_restores hm hstate₁ (hremoved blank) hjoined₂ htaken
  rw [meets_onError, meets_storeUser hpresent, hcleaned]
  simp only [hjoined, hrecord, Bool.false_eq_true, not_false_eq_true, and_self, false_or, false_imp_iff,
    true_imp_iff, true_and, userCleanup_restores hm (hleft _) (hremoved _) hjoined₂ htaken]
  exact Iff.rfl

/-- Only the map of a new namespace and the end of the grace period stay behind from a new user. -/
lemma leavesAsBefore_new (hm : Inv m) (hnew : m.userRecord namespaceId userId = none) :
    LeavesAsBefore (setUser fails namespaceId userId patch now s) m ↔
      ((find eqKey namespaceId m.userState).isNone → ¬ fails .namespace → ¬ fails .user) ∧
        ∀ merged, mergeFromPayload fails s patch (List.replicate s.fieldCount none) = some merged →
          UserReady fails namespaceId userId m →
          UserQueueFails fails patch (find eqKey (namespaceId, userId) m.pendingUserUpdates) →
          find eqKey namespaceId m.namespaceEmptyAt = none ∧
            QueueKept fails ((find eqKey (namespaceId, userId) m.pendingUserUpdates).bind
              PendingUserUpdate.patch) patch := by
  have hleft : PresenceStore.contents { m with
      namespaceEmptyAt := remove eqKey namespaceId m.namespaceEmptyAt
      pendingUserUpdates := leftUsers fails (namespaceId, userId) patch m.pendingUserUpdates } =
      m.contents ↔ find eqKey namespaceId m.namespaceEmptyAt = none ∧
        QueueKept fails ((find eqKey (namespaceId, userId) m.pendingUserUpdates).bind
          PendingUserUpdate.patch) patch := by
    rw [← leftUsers_eq_iff, ← find_remove_eq_iff m.namespaceEmptyAt]
    simp only [PresenceStore.contents, PresenceContents.mk.injEq, true_and, and_true]
  have hwrite := meets_newUser fails patch now s hm hnew (E := fun m' => m'.contents = m.contents)
  simp only [hleft, implies_true, true_and] at hwrite
  have hready : UserReady fails namespaceId userId m ↔
      ((find eqKey namespaceId m.userState).isSome ∨ ¬ fails .namespace) ∧ ¬ fails .user ∧
        ¬ fails .record ∧ ¬ JoinFails fails namespaceId m := by
    unfold UserReady JoinFails
    rw [hnew]
    cases find eqKey namespaceId m.userJoinedAt <;> simp
  rw [leavesAsBefore_iff, setUser, meets_bind, meets_getOrPutNamespace]
  cases hfound : find eqKey namespaceId m.userState with
  | some users =>
    have hmade : withNamespace namespaceId m = m := by
      rw [withNamespace, hfound, getD_some, put_eq_self hfound]
    rw [hmade, hfound] at hwrite
    rw [if_pos isSome_some, meets_bind, meets_getOrPutUser, hnew, if_neg (by simp)]
    simp only [hready, hfound, isSome_some, isNone_some, true_or, true_and, Bool.false_eq_true, false_imp_iff]
    by_cases huser : fails .user
    · rw [if_pos huser]
      exact iff_of_true trivial fun _ _ h => absurd huser h.1
    · rw [if_neg huser]
      simp only [huser, Bool.false_eq_true, not_false_eq_true, true_and, if_true]
      exact hwrite
  | none =>
    rw [withNamespace, hfound] at hwrite
    rw [if_neg (by simp)]
    simp only [hready, hfound, Option.isSome_none, Option.isNone_none, Bool.false_eq_true, false_or,
      true_imp_iff]
    by_cases hns : fails .namespace
    · rw [if_pos hns]
      exact iff_of_true trivial ⟨fun h => absurd hns h, fun _ _ h => absurd hns h.1⟩
    · have hstill : PresenceStore.userRecord namespaceId userId
          { m with userState := put eqKey namespaceId [] m.userState } = none := by
        unfold PresenceStore.userRecord
        rw [find_put_self]
        rfl
      rw [if_neg hns, meets_bind, meets_getOrPutUser, hstill, if_neg (by simp)]
      simp only [hns, Bool.false_eq_true, not_false_eq_true, true_and, true_imp_iff]
      by_cases huser : fails .user
      · rw [if_pos huser]
        refine iff_of_false (fun h => ?_) fun h => h.1 huser
        -- the empty map of the namespace stays
        have hat := congrFun (congrArg PresenceContents.users h) namespaceId
        change nested (put eqKey namespaceId [] m.userState) namespaceId = nested m.userState namespaceId
          at hat
        rw [nested_put, update_self, nested, hfound] at hat
        cases hat
      · rw [if_neg huser]
        simp only [huser, Bool.false_eq_true, not_false_eq_true, true_and, if_true]
        exact hwrite

end SetUser

section SetShared

variable {m : PresenceStore V} {namespaceId : ℤ} {patch : PresencePatch V} {sourceConn : ℕ}
  {s : PresenceSchema V} {E : PresenceStore V → Prop}

/-- What is queued for shared records after a patch could not be queued. -/
def leftShared (fails : Faults) (namespaceId : ℤ) (patch : PresencePatch V)
    (pending : List (ℤ × SharedUpdate V)) : List (ℤ × SharedUpdate V) :=
  match find eqKey namespaceId pending with
  | none => pending
  | some existing =>
    match existing.patch with
    | none => pending
    | some queued =>
      put eqKey namespaceId { existing with patch := some (replaced queued (handled fails 0 patch)) } pending

lemma meets_queueSharedUpdate :
    (queueSharedUpdate fails namespaceId patch sourceConn).Meets m (fun _ _ => True) E ↔
      (SharedQueueFails fails patch (find eqKey namespaceId m.pendingSharedUpdates) →
        E { m with pendingSharedUpdates := leftShared fails namespaceId patch m.pendingSharedUpdates }) := by
  rw [queueSharedUpdate, meets_bind, meets_read]
  unfold leftShared SharedQueueFails
  cases hqueued : find eqKey namespaceId m.pendingSharedUpdates with
  | none =>
    simp only [meets_bind, meets_alloc, meets_change]
    cases fails .clone <;> cases fails .append <;> simp
  | some existing =>
    cases hpatch : existing.patch with
    | none =>
      simp only [coalesceShared, hpatch, meets_bind, meets_pure, meets_change, false_imp_iff]
    | some queued =>
      simp only [coalesceShared, hpatch, meets_bind, meets_change]
      rw [← mergePayloadArrays_failed]
      cases hok : (mergePayloadArrays fails queued patch).1 with
      | false =>
        simp [meets_bind, meets_fail, mergePayloadArrays_left hok]
      | true => simp [meets_bind, meets_pure, meets_change]

lemma leftShared_eq_iff (patch : PresencePatch V) :
    leftShared fails namespaceId patch m.pendingSharedUpdates = m.pendingSharedUpdates ↔
      QueueKept fails ((find eqKey namespaceId m.pendingSharedUpdates).bind SharedUpdate.patch) patch := by
  unfold leftShared QueueKept
  cases hqueued : find eqKey namespaceId m.pendingSharedUpdates with
  | none => simp
  | some existing =>
    cases hpatch : existing.patch with
    | none => simp [hpatch]
    | some queued =>
      simp only [bind_some, hpatch, Option.some.injEq, forall_eq']
      constructor
      · intro h
        have hat := congrArg (find eqKey namespaceId) h
        rw [find_put_self, hqueued, Option.some.injEq] at hat
        have hboth := congrArg SharedUpdate.patch hat
        rw [hpatch] at hboth
        exact Option.some.inj hboth
      · intro h
        rw [h, ← hpatch]
        exact put_eq_self hqueued

def leftStoredShared (fails : Faults) (namespaceId : ℤ) (patch : PresencePatch V)
    (merged : PresenceRecord V) (m : PresenceStore V) : PresenceStore V :=
  { m with
    sharedState := put eqKey namespaceId merged m.sharedState
    pendingSharedUpdates := leftShared fails namespaceId patch m.pendingSharedUpdates }

lemma meets_storeShared (hrecord : find eqKey namespaceId m.sharedState = some record) :
    (storeShared fails namespaceId patch sourceConn s).Meets m (fun _ _ => True) E ↔
      (mergeFromPayload fails s patch record = none → E m) ∧
        ∀ merged, mergeFromPayload fails s patch record = some merged →
          SharedQueueFails fails patch (find eqKey namespaceId m.pendingSharedUpdates) →
          E (leftStoredShared fails namespaceId patch merged m) := by
  rw [storeShared, meets_bind, mergeShared, meets_bind, meets_read, hrecord, getD_some]
  cases hmerge : mergeFromPayload fails s patch record with
  | none => simp [meets_fail]
  | some merged =>
    rw [meets_change, meets_queueSharedUpdate]
    simp [leftStoredShared]

lemma leavesAsBefore_setShared : LeavesAsBefore (setShared fails namespaceId patch sourceConn s) m ↔
    ∀ merged, mergeFromPayload fails s patch
        ((find eqKey namespaceId m.sharedState).getD (List.replicate s.fieldCount none)) = some merged →
      SharedReady fails namespaceId m →
      SharedQueueFails fails patch (find eqKey namespaceId m.pendingSharedUpdates) →
      RecordKept (find eqKey namespaceId m.sharedState) merged ∧
        QueueKept fails ((find eqKey namespaceId m.pendingSharedUpdates).bind SharedUpdate.patch) patch := by
  rw [leavesAsBefore_iff, setShared, meets_bind, getOrPutShared, meets_bind, meets_read]
  unfold SharedReady RecordKept
  cases hfound : find eqKey namespaceId m.sharedState with
  | some old =>
    rw [if_pos isSome_some, meets_pure, meets_onError, meets_storeShared hfound]
    have hleft (merged : PresenceRecord V) :
        (leftStoredShared fails namespaceId patch merged m).contents = m.contents ↔ merged = old ∧
          QueueKept fails ((find eqKey namespaceId m.pendingSharedUpdates).bind SharedUpdate.patch)
            patch := by
      rw [← leftShared_eq_iff]
      simp only [leftStoredShared, PresenceStore.contents, PresenceContents.mk.injEq, true_and]
      rw [find_put_eqKey, update_eq_self_iff, hfound, Option.some.injEq]
    simp only [dropShared, Bool.false_eq_true, if_false, hleft, implies_true, true_and, getD_some,
      isSome_some, true_or, true_imp_iff, Option.some.injEq, forall_eq']
  | none =>
    rw [if_neg (by simp), meets_bind, meets_alloc]
    by_cases hns : fails .namespace
    · rw [if_pos hns]
      exact iff_of_true rfl fun _ _ h => (h.resolve_left (by simp)).1.elim hns
    rw [if_neg hns, meets_bind, meets_alloc]
    by_cases hrecord : fails .record
    · rw [if_pos hrecord]
      exact iff_of_true rfl fun _ _ h => (h.resolve_left (by simp)).2.elim hrecord
    set blank : PresenceRecord V := List.replicate s.fieldCount none
    rw [if_neg hrecord, meets_bind, meets_change, meets_pure,
      meets_onError, meets_storeShared (find_put_self namespaceId blank m.sharedState)]
    have hleft (merged : PresenceRecord V) :
        (dropShared namespaceId true (leftStoredShared fails namespaceId patch merged
          { m with sharedState := put eqKey namespaceId blank m.sharedState })).contents = m.contents ↔
          QueueKept fails ((find eqKey namespaceId m.pendingSharedUpdates).bind SharedUpdate.patch)
            patch := by
      rw [← leftShared_eq_iff]
      simp only [dropShared, leftStoredShared, PresenceStore.contents, PresenceContents.mk.injEq,
        true_and, if_true]
      rw [remove_put, remove_put, remove_of_find_none hfound]
      exact and_iff_right rfl
    have hdropped : dropShared namespaceId true
        { m with sharedState := put eqKey namespaceId blank m.sharedState } = m := by
      rw [dropShared, if_pos rfl, remove_put, remove_of_find_none hfound]
    simp only [hleft, hdropped, hns, hrecord, implies_true, true_and, getD_none, not_false_eq_true,
      and_self, or_true, true_imp_iff, reduceCtorEq, false_imp_iff, Bool.false_eq_true]

end SetShared

section RemoveUser

variable {m : PresenceStore V} {namespaceId : ℤ} {userId : DocId} {now : ℤ} {connId : ℕ}

lemma userRecord_eq (m : PresenceStore V) :
    m.userRecord namespaceId userId = (m.contents.users namespaceId).bind fun users => users userId := by
  change _ = ((find eqKey namespaceId m.userState).map fun users userId => find eqKey userId users).bind _
  cases hfound : find eqKey namespaceId m.userState with
  | none => rw [PresenceStore.userRecord, hfound]; rfl
  | some users => rw [PresenceStore.userRecord, hfound]; rfl

lemma userRecord_dropUser (m : PresenceStore V) (namespaceId : ℤ) (userId : DocId) (nsCreated : Bool) :
    (m.dropUser namespaceId userId nsCreated).userRecord namespaceId userId = none := by
  unfold PresenceStore.userRecord PresenceStore.dropUser
  dsimp only
  split_ifs
  · rw [find_remove, if_pos (KeyTest.self eqKey namespaceId)]
    rfl
  · rw [find_put_self, bind_some, find_remove, if_pos (KeyTest.self eqKey userId)]

lemma dropJoined_eq : m.dropJoined namespaceId userId =
    { m with userJoinedAt := (m.dropJoined namespaceId userId).userJoinedAt } := by
  unfold PresenceStore.dropJoined PresenceStore.dropJoinedNamespace
  split
  · rfl
  · dsimp only
    split_ifs
    · rfl
    · rfl

lemma meets_queueLeave {Q : Unit → PresenceStore V → Prop} {E : PresenceStore V → Prop} :
    (queueLeave fails namespaceId userId).Meets m Q E ↔
      if (find eqKey (namespaceId, userId) m.pendingUserUpdates).isNone ∧ fails .append then E m
      else Q () { m with
        pendingUserUpdates := PresenceManager.queueLeave (namespaceId, userId) m.pendingUserUpdates } := by
  rw [queueLeave, meets_bind, meets_read]
  by_cases hnone : (find eqKey (namespaceId, userId) m.pendingUserUpdates).isNone
  · simp only [hnone, if_true, true_and]
    rw [meets_bind, meets_alloc, meets_change]
  · simp only [hnone, false_and, if_false, Bool.false_eq_true]
    rw [meets_change]

lemma userState_recordGrace (emptied : Bool) :
    (recordGrace fails namespaceId now emptied m).userState = m.userState := by
  unfold recordGrace
  split_ifs
  · rfl
  · rfl

lemma leavesAsBefore_removeUser (now : ℤ) : LeavesAsBefore (removeUser fails namespaceId userId now) m ↔
    LeaveQueued fails namespaceId userId m := by
  unfold LeaveQueued
  rw [leavesAsBefore_iff, removeUser, meets_bind, meets_read]
  by_cases hpresent : (m.userRecord namespaceId userId).isSome
  · rw [if_pos hpresent, meets_bind, meets_change, meets_bind, meets_onError, meets_queueLeave, dropJoined_eq]
    set gone := m.dropUser namespaceId userId true with hgone
    have hpending : gone.pendingUserUpdates = m.pendingUserUpdates := rfl
    simp only [hpending, meets_change, Option.isNone_iff_eq_none]
    split_ifs with hfails
    · refine iff_of_false (fun h => ?_) fun h => h hpresent hfails.1 hfails.2
      have hrecord := userRecord_dropUser m namespaceId userId true
      rw [userRecord_eq, ← h, ← userRecord_eq, PresenceStore.userRecord, userState_recordGrace] at hpresent
      rw [PresenceStore.userRecord] at hrecord
      rw [hrecord] at hpresent
      cases hpresent
    · exact iff_of_true trivial fun _ hnone hfail => hfails ⟨hnone, hfail⟩
  · rw [if_neg hpresent]
    exact iff_of_true trivial fun h => absurd h hpresent

lemma unsubscribed_after (m : PresenceStore V) :
    ((m.onUnsubscribeUser namespaceId connId).onUnsubscribeShared namespaceId connId).Unsubscribed
      namespaceId connId := by
  intro e he hconn
  rw [mem_append] at he
  cases he with
  | inl h =>
    have hkept := (mem_filter.mp h).2
    simp [hconn.1, hconn.2] at hkept
  | inr h =>
    have hkept := (mem_filter.mp h).2
    simp [hconn.1, hconn.2] at hkept

lemma meets_removeUser (h : LeaveQueued fails namespaceId userId m) :
    (removeUser fails namespaceId userId now).Meets m (fun _ _ => True) fun _ => False := by
  rw [removeUser, meets_bind, meets_read]
  by_cases hpresent : (m.userRecord namespaceId userId).isSome
  · rw [if_pos hpresent, meets_bind, meets_change, meets_bind,
      meets_onError, meets_queueLeave, dropJoined_eq, if_neg, meets_change]
    · trivial
    · exact fun hfails => h hpresent (Option.isNone_iff_eq_none.mp hfails.1) hfails.2
  · rw [if_neg hpresent]
    trivial

lemma restores_removeAll {user shared : PresenceSchema V} :
    Restores user shared m (.removeAllForConnection namespaceId userId connId now, fails) ↔
      LeaveQueued fails namespaceId userId m := by
  have hcall : LeavesAsBefore (removeAllForConnection fails namespaceId userId now connId) m ↔
      LeaveQueued fails namespaceId userId m := by
    rw [← leavesAsBefore_removeUser now, leavesAsBefore_iff, leavesAsBefore_iff,
      removeAllForConnection, meets_bind]
    exact Iff.rfl
  refine ⟨fun h => hcall.mp h.1, fun h => ⟨hcall.mpr h, ?_⟩⟩
  have hrun : (removeAllForConnection fails namespaceId userId now connId).Meets m
      (fun _ m' => m'.Unsubscribed namespaceId connId) fun _ => False := by
    rw [removeAllForConnection, meets_bind]
    refine (meets_removeUser h).mono (fun _ m' _ => ?_) fun _ hfalse => hfalse
    rw [meets_bind, meets_change, meets_change]
    exact unsubscribed_after m'
  unfold Attempt.Meets at hrun
  change ((removeAllForConnection fails namespaceId userId now connId m).2).Unsubscribed namespaceId connId
  cases hresult : removeAllForConnection fails namespaceId userId now connId m with
  | mk result m' =>
    rw [hresult] at hrun
    cases result with
    | none => exact hrun.elim
    | some _ => exact hrun

end RemoveUser

section Invariant

variable {m x : PresenceStore V} {namespaceId : ℤ} {userId : DocId} {now : ℤ}

def SameUsers (m x : PresenceStore V) : Prop :=
  x.userState = m.userState ∧ x.userJoinedAt = m.userJoinedAt

lemma SameUsers.trans {y : PresenceStore V} (h : SameUsers m x) (g : SameUsers x y) : SameUsers m y :=
  ⟨g.1.trans h.1, g.2.trans h.2⟩

lemma Inv.of_same (h : Inv m) (hx : SameUsers m x) : Inv x where
  joined n u times hnone hfound := by
    rw [PresenceStore.userRecord, hx.1] at hnone
    rw [hx.2] at hfound
    exact h.joined n u times hnone hfound
  nonempty n times hfound := by
    rw [hx.2] at hfound
    exact h.nonempty n times hfound

lemma userRecord_putUser (record : PresenceRecord V) (n : ℤ) (u : DocId) :
    (m.putUser namespaceId userId record).userRecord n u =
      if namespaceId = n ∧ userId = u then some record else m.userRecord n u := by
  unfold PresenceStore.userRecord PresenceStore.putUser
  rw [find_put_of]
  by_cases hn : namespaceId = n
  · subst hn
    rw [if_pos rfl, bind_some, find_put_of]
    by_cases hu : userId = u
    · rw [if_pos hu, if_pos ⟨rfl, hu⟩]
    · rw [if_neg hu, if_neg fun h => hu h.2]
      cases find eqKey namespaceId m.userState <;> rfl
  · rw [if_neg hn, if_neg fun h => hn h.1]

lemma Inv.putUser (h : Inv m) (record : PresenceRecord V) : Inv (m.putUser namespaceId userId record) where
  joined n u times hnone hfound := by
    rw [userRecord_putUser] at hnone
    split_ifs at hnone
    exact h.joined n u times hnone hfound
  nonempty := h.nonempty

lemma Inv.join (h : Inv m) (record : PresenceRecord V) :
    Inv ((m.putUser namespaceId userId record).putJoined namespaceId userId now) where
  joined n u times hnone hfound := by
    change (m.putUser namespaceId userId record).userRecord n u = none at hnone
    change find eqKey n (put eqKey namespaceId _ m.userJoinedAt) = some times at hfound
    rw [userRecord_putUser] at hnone
    split_ifs at hnone with hother
    rw [find_put_of] at hfound
    split_ifs at hfound with hn
    · subst hn
      cases hfound
      rw [find_put_of, if_neg fun hu => hother ⟨rfl, hu⟩]
      change find eqKey u ((find eqKey namespaceId m.userJoinedAt).getD []) = none
      cases hold : find eqKey namespaceId m.userJoinedAt with
      | none => rfl
      | some old => exact h.joined namespaceId u old hnone hold
    · exact h.joined n u times hnone hfound
  nonempty n times hfound := by
    change find eqKey n (put eqKey namespaceId _ m.userJoinedAt) = some times at hfound
    rw [find_put_of] at hfound
    split_ifs at hfound with hn
    · cases hfound
      exact put_ne_nil userId now _
    · exact h.nonempty n times hfound

lemma userRecord_withNamespace (m : PresenceStore V) (namespaceId n : ℤ) (u : DocId) :
    (withNamespace namespaceId m).userRecord n u = m.userRecord n u := by
  unfold PresenceStore.userRecord withNamespace
  rw [find_put_of]
  split_ifs with hn
  · subst hn
    cases find eqKey namespaceId m.userState <;> rfl
  · rfl

lemma Inv.withNamespace (h : Inv m) (namespaceId : ℤ) : Inv (withNamespace namespaceId m) where
  joined n u times hnone hfound :=
    h.joined n u times ((userRecord_withNamespace m namespaceId n u).symm.trans hnone) hfound
  nonempty := h.nonempty

lemma userRecord_dropUser_eq (n : ℤ) (u : DocId) : (m.dropUser namespaceId userId true).userRecord n u =
    if namespaceId = n ∧ userId = u then none else m.userRecord n u := by
  by_cases hsame : namespaceId = n ∧ userId = u
  · rw [if_pos hsame, ← hsame.1, ← hsame.2, userRecord_dropUser]
  rw [if_neg hsame]
  unfold PresenceStore.userRecord PresenceStore.dropUser
  dsimp only
  by_cases hn : namespaceId = n
  · subst hn
    have hu : userId ≠ u := fun hu => hsame ⟨rfl, hu⟩
    have hrest : find eqKey u (remove eqKey userId
        ((find eqKey namespaceId m.userState).getD [])) =
        (find eqKey namespaceId m.userState).bind (find eqKey u) := by
      rw [find_remove_of, if_neg hu]
      cases find eqKey namespaceId m.userState <;> rfl
    rw [← hrest]
    split_ifs with hempty
    · rw [find_remove_of, if_pos rfl, Option.bind_none]
      rw [Bool.true_and, List.isEmpty_iff] at hempty
      rw [hempty, find_nil]
    · rw [find_put_self, bind_some]
  · split_ifs
    · rw [find_remove_of, if_neg hn]
    · rw [find_put_of, if_neg hn]

lemma find_dropJoined (n : ℤ) (h : find eqKey n (m.dropJoined namespaceId userId).userJoinedAt = some times) :
    ∃ old, find eqKey n m.userJoinedAt = some old ∧
      times = (if namespaceId = n then remove eqKey userId old else old) ∧
      (namespaceId = n → times ≠ []) := by
  unfold PresenceStore.dropJoined PresenceStore.dropJoinedNamespace at h
  cases hfound : find eqKey namespaceId m.userJoinedAt with
  | none =>
    simp only [hfound] at h
    have hn : namespaceId ≠ n := by
      rintro rfl
      rw [hfound] at h
      cases h
    exact ⟨times, h, (if_neg hn).symm, fun hn' => absurd hn' hn⟩
  | some old =>
    simp only [hfound] at h
    split_ifs at h with hempty
    · rw [find_remove_of] at h
      split_ifs at h with hn
      exact ⟨times, h, (if_neg hn).symm, fun hn' => absurd hn' hn⟩
    · rw [find_put_of] at h
      split_ifs at h with hn
      · subst hn
        cases h
        exact ⟨old, hfound, (if_pos rfl).symm, fun _ hnil => hempty (List.isEmpty_iff.mpr hnil)⟩
      · exact ⟨times, h, (if_neg hn).symm, fun hn' => absurd hn' hn⟩

lemma Inv.leave (h : Inv m) : Inv ((m.dropUser namespaceId userId true).dropJoined namespaceId userId) where
  joined n u times hnone hfound := by
    rw [dropJoined_eq] at hnone
    change (m.dropUser namespaceId userId true).userRecord n u = none at hnone
    obtain ⟨old, hold, htimes, -⟩ := find_dropJoined n hfound
    rw [userRecord_dropUser_eq] at hnone
    rw [htimes]
    split_ifs at hnone with hsame
    · rw [if_pos hsame.1, ← hsame.2, find_remove_of, if_pos rfl]
    · have hunjoined := h.joined n u old hnone hold
      split_ifs with hn
      · rw [find_remove_of, if_neg fun hu => hsame ⟨hn, hu⟩, hunjoined]
      · exact hunjoined
  nonempty n times hfound := by
    obtain ⟨old, hold, htimes, hne⟩ := find_dropJoined n hfound
    by_cases hn : namespaceId = n
    · exact hne hn
    · rw [htimes, if_neg hn]
      exact h.nonempty n old hold

end Invariant

section Runs

variable {m : PresenceStore V} {namespaceId : ℤ} {userId : DocId} {patch : PresencePatch V} {now : ℤ}
  {s : PresenceSchema V}

lemma sameUsers_queueUserUpdate (isNewUser : Bool) :
    (queueUserUpdate fails namespaceId userId patch now isNewUser).Meets m (fun _ => SameUsers m)
      (SameUsers m) := by
  rw [queueUserUpdate, meets_bind, meets_read]
  cases hqueued : find eqKey (namespaceId, userId) m.pendingUserUpdates with
  | none =>
    simp only [meets_bind, meets_alloc, meets_change]
    cases fails .clone <;> cases fails .append <;> exact ⟨rfl, rfl⟩
  | some existing =>
    cases hpatch : existing.patch with
    | none =>
      simp only [coalescePendingUpdate, hpatch, meets_bind, meets_alloc, meets_pure, meets_change]
      cases fails .clone <;> exact ⟨rfl, rfl⟩
    | some queued =>
      simp only [coalescePendingUpdate, hpatch, meets_bind, meets_change]
      cases (mergePayloadArrays fails queued patch).1 <;> exact ⟨rfl, rfl⟩

lemma inv_storeUser (hm : Inv m) (isNewUser : Bool) :
    (storeUser fails namespaceId userId patch now s isNewUser).Meets m (fun _ => Inv) Inv := by
  rw [storeUser, meets_bind, mergeUser, meets_bind, meets_read]
  cases mergeFromPayload fails s patch ((m.userRecord namespaceId userId).getD []) with
  | none => exact hm
  | some record =>
    rw [meets_change, meets_bind, cancelGrace, meets_change]
    have hput : Inv (m.putUser namespaceId userId record) := hm.putUser record
    exact (sameUsers_queueUserUpdate isNewUser).mono (fun _ _ h => hput.of_same h) fun _ h => hput.of_same h

lemma inv_newUser (fails : Faults) (userId : DocId) (patch : PresencePatch V) (now : ℤ)
    (s : PresenceSchema V) (hm : Inv m) (hnew : m.userRecord namespaceId userId = none) :
    (initNewUserRecord fails namespaceId userId now s.fieldCount
        (find eqKey namespaceId m.userState).isNone >>= fun _ =>
      (storeUser fails namespaceId userId patch now s true).onError
        (userCleanup namespaceId userId (find eqKey namespaceId m.userState).isNone true)).Meets
      (withNamespace namespaceId m) (fun _ => Inv) Inv := by
  refine Attempt.meets_and.mpr ⟨?_, (meets_newUser fails patch now s hm hnew).mpr ⟨fun _ => hm, fun _ _ _ _ => ?_⟩⟩
  · rw [meets_bind, initNewUserRecord, meets_onError, meets_bind, meets_alloc]
    by_cases hrecord : fails .record
    · rw [if_pos hrecord]
      trivial
    · rw [if_neg hrecord, meets_bind, meets_change, meets_recordJoin]
      refine ⟨fun _ => trivial, fun _ => ?_⟩
      rw [meets_onError]
      exact (inv_storeUser ((hm.withNamespace namespaceId).join _) true).mono (fun _ _ h => h) fun _ _ => trivial
  · exact hm.of_same ⟨rfl, rfl⟩

lemma inv_setUser (hm : Inv m) : (setUser fails namespaceId userId patch now s).Meets m (fun _ => Inv) Inv := by
  rw [setUser, meets_bind, meets_getOrPutNamespace]
  have hnew (h : m.userRecord namespaceId userId = none) := inv_newUser fails userId patch now s hm h
  by_cases hfound : (find eqKey namespaceId m.userState).isSome
  · obtain ⟨users, husers⟩ := Option.isSome_iff_exists.mp hfound
    have hmade : withNamespace namespaceId m = m := by
      rw [withNamespace, husers, getD_some, put_eq_self husers]
    rw [if_pos hfound, meets_bind, meets_getOrPutUser]
    by_cases hpresent : (m.userRecord namespaceId userId).isSome
    · rw [if_pos hpresent]
      dsimp only
      rw [if_neg Bool.false_ne_true, meets_onError]
      exact inv_storeUser hm false
    rw [if_neg hpresent]
    by_cases huser : fails .user
    · rw [if_pos huser]
      exact hm
    · rw [if_neg huser]
      rw [hmade, husers] at hnew
      exact hnew (by simpa using hpresent)
  · have hnone : find eqKey namespaceId m.userState = none := by simpa using hfound
    rw [if_neg hfound]
    by_cases hns : fails .namespace
    · rw [if_pos hns]
      exact hm
    · have habsent : m.userRecord namespaceId userId = none := by
        rw [PresenceStore.userRecord, hnone]
        rfl
      have hstill := userRecord_withNamespace m namespaceId namespaceId userId
      have hmade := hm.withNamespace namespaceId
      have hnew := hnew habsent
      rw [withNamespace, hnone, getD_none] at hstill hmade hnew
      rw [if_neg hns, meets_bind, meets_getOrPutUser, hstill, habsent, if_neg (by simp)]
      by_cases huser : fails .user
      · rw [if_pos huser]
        exact hmade
      · rw [if_neg huser]
        exact hnew

lemma inv_of_same {call : Attempt (PresenceStore V) Unit} (hm : Inv m)
    (h : call.Meets m (fun _ => SameUsers m) (SameUsers m)) : call.Meets m (fun _ => Inv) Inv :=
  h.mono (fun _ _ hx => hm.of_same hx) fun _ hx => hm.of_same hx

lemma inv_removeUser (hm : Inv m) : (removeUser fails namespaceId userId now).Meets m (fun _ => Inv) Inv := by
  rw [removeUser, meets_bind, meets_read]
  have hgrace (emptied : Bool) {x : PresenceStore V} (hx : Inv x) :
      Inv (recordGrace fails namespaceId now emptied x) := by
    unfold recordGrace
    split_ifs
    · exact hx.of_same ⟨rfl, rfl⟩
    · exact hx
  split_ifs
  · rw [meets_bind, meets_change, meets_bind, meets_onError, meets_queueLeave]
    split_ifs
    · exact hgrace _ hm.leave
    · exact hgrace _ (hm.leave.of_same ⟨rfl, rfl⟩)
  · exact hm

lemma sameUsers_queueSharedUpdate :
    (queueSharedUpdate fails namespaceId patch sourceConn).Meets m (fun _ => SameUsers m) (SameUsers m) := by
  rw [queueSharedUpdate, meets_bind, meets_read]
  cases hqueued : find eqKey namespaceId m.pendingSharedUpdates with
  | none =>
    simp only [meets_bind, meets_alloc, meets_change]
    cases fails .clone <;> cases fails .append <;> exact ⟨rfl, rfl⟩
  | some existing =>
    cases hpatch : existing.patch with
    | none =>
      simp only [coalesceShared, hpatch, meets_bind, meets_pure, meets_change]
      exact ⟨rfl, rfl⟩
    | some queued =>
      simp only [coalesceShared, hpatch, meets_bind, meets_change]
      cases (mergePayloadArrays fails queued patch).1 <;> exact ⟨rfl, rfl⟩

lemma sameUsers_storeShared :
    (storeShared fails namespaceId patch sourceConn s).Meets m (fun _ => SameUsers m) (SameUsers m) := by
  rw [storeShared, meets_bind, mergeShared, meets_bind, meets_read]
  split
  · exact ⟨rfl, rfl⟩
  · rw [meets_change]
    exact sameUsers_queueSharedUpdate

lemma sameUsers_setShared :
    (setShared fails namespaceId patch sourceConn s).Meets m (fun _ => SameUsers m) (SameUsers m) := by
  have hdrop (isNew : Bool) {x : PresenceStore V} (hx : SameUsers m x) :
      SameUsers m (dropShared namespaceId isNew x) := by
    unfold dropShared
    split_ifs
    · exact hx
    · exact hx
  have hstore (isNew : Bool) {x : PresenceStore V} (hx : SameUsers m x) :
      ((storeShared fails namespaceId patch sourceConn s).onError (dropShared namespaceId isNew)).Meets x
        (fun _ => SameUsers m) (SameUsers m) := by
    rw [meets_onError]
    exact sameUsers_storeShared.mono (fun _ _ h => hx.trans h) fun _ h => hdrop isNew (hx.trans h)
  rw [setShared, meets_bind, getOrPutShared, meets_bind, meets_read]
  split_ifs
  · exact hstore false ⟨rfl, rfl⟩
  · simp only [meets_bind, meets_alloc, meets_change, meets_pure]
    split_ifs
    · exact ⟨rfl, rfl⟩
    · exact ⟨rfl, rfl⟩
    · exact hstore true ⟨rfl, rfl⟩

lemma sameUsers_onSubscribe {subscribe : PresenceStore V → PresenceStore V}
    (h : ∀ x, SameUsers x (subscribe x)) :
    (do alloc fails .clone; alloc fails .append; Attempt.change subscribe).Meets m
      (fun _ => SameUsers m) (SameUsers m) := by
  simp only [meets_bind, meets_alloc, meets_change]
  split_ifs
  · exact ⟨rfl, rfl⟩
  · exact ⟨rfl, rfl⟩
  · exact h m

lemma sameUsers_drainPendingBatches :
    (drainPendingBatches fails).Meets m (fun _ => SameUsers m) (SameUsers m) := by
  have husers (x : PresenceStore V) : (batchUsers fails).Meets x (fun _ => SameUsers x) (SameUsers x) := by
    rw [batchUsers, meets_bind, meets_read, meets_bind, meets_change]
    split_ifs
    · exact ⟨rfl, rfl⟩
    · exact ⟨rfl, rfl⟩
  have hshared (x : PresenceStore V) : (batchShared fails).Meets x (fun _ => SameUsers x) (SameUsers x) := by
    rw [batchShared, meets_bind, meets_read, meets_bind, meets_change]
    split_ifs
    · exact ⟨rfl, rfl⟩
    · exact ⟨rfl, rfl⟩
  rw [drainPendingBatches, meets_bind, meets_change]
  refine (husers _).bind (fun _ h => h) fun _ x hx => ?_
  refine (hshared x).bind (fun _ h => hx.trans h) fun _ y hy => ?_
  rw [meets_change]
  exact hx.trans hy

lemma inv_step (user shared : PresenceSchema V) (hm : Inv m) (e : Attempted V) :
    Inv (step user shared m e) := by
  refine Attempt.Meets.snd ?_
  rcases e with ⟨call, fails⟩
  cases call with
  | setUser => exact inv_setUser hm
  | setShared => exact inv_of_same hm sameUsers_setShared
  | removeUser => exact inv_removeUser hm
  | removeAllForConnection namespaceId userId connId now =>
    exact (inv_removeUser hm).bind (fun _ h => h) fun _ _ hx => hx.of_same ⟨rfl, rfl⟩
  | onSubscribeUser => exact inv_of_same hm (sameUsers_onSubscribe fun _ => ⟨rfl, rfl⟩)
  | onSubscribeShared => exact inv_of_same hm (sameUsers_onSubscribe fun _ => ⟨rfl, rfl⟩)
  | onUnsubscribeUser => exact hm.of_same ⟨rfl, rfl⟩
  | onUnsubscribeShared => exact hm.of_same ⟨rfl, rfl⟩
  | evictExpiredGracePeriods now =>
    change Inv (evictExpiredGracePeriods fails now m)
    unfold evictExpiredGracePeriods
    split_ifs
    · exact hm
    · exact hm.of_same ⟨rfl, rfl⟩
  | drainPendingBatches => exact inv_of_same hm sameUsers_drainPendingBatches

lemma restores_iff_undoes (user shared : PresenceSchema V) (hm : Inv m) (e : Attempted V) :
    Restores user shared m e ↔ Undoes user shared m e := by
  rcases e with ⟨call, fails⟩
  cases call with
  | setUser namespaceId userId patch now =>
    change LeavesAsBefore (setUser fails namespaceId userId patch now user) m ↔ _
    unfold Undoes
    dsimp only
    cases hrecord : m.userRecord namespaceId userId with
    | some old =>
      obtain ⟨users, husers, -⟩ := Option.bind_eq_some_iff.mp hrecord
      have hready : UserReady fails namespaceId userId m := .inl (hrecord ▸ isSome_some)
      rw [leavesAsBefore_existing hrecord, husers]
      simp only [hready, RecordKept, getD_some, isNone_some, Bool.false_eq_true,
        false_imp_iff, true_imp_iff, true_and, Option.some.injEq, forall_eq']
    | none =>
      rw [leavesAsBefore_new hm hrecord]
      simp only [RecordKept, getD_none, reduceCtorEq, false_imp_iff, implies_true, true_and]
  | setShared => exact leavesAsBefore_setShared
  | removeUser _ _ now => exact leavesAsBefore_removeUser now
  | removeAllForConnection => exact restores_removeAll
  | _ => exact Iff.rfl

end Runs

/-- In every run of presence calls, with any allocations that fail in them, all writes that fail leave the
contents as before, and all disconnects end the subscriptions, exactly when nothing fails where a call can
no longer undo what it has done. -/
theorem failed_calls_restore_iff (user shared : PresenceSchema V) (calls : List (Attempted V)) :
    Along (step user shared) (Restores user shared) {} calls ↔
      Along (step user shared) (Undoes user shared) {} calls :=
  along_iff (I := Inv) (fun _ e _ hm _ => inv_step user shared hm e)
    (fun _ e _ hm => restores_iff_undoes user shared hm e) ⟨fun _ _ _ _ h => (nomatch h), fun _ _ h => (nomatch h)⟩

namespace FailureExample

/-- One user field, and no shared ones. -/
def fields : PresenceSchema ℕ := ⟨1, fun _ _ => true, id⟩

def noFaults : Faults := fun _ => false

/-- A user joins, the join is sent, and the leave of the user cannot be queued. -/
def lostLeave : List (Attempted ℕ) :=
  [(.setUser 1 7 [(0, 3)] 100, noFaults), (.drainPendingBatches, noFaults),
    (.removeUser 1 7 200, fun site => site = .append)]

/-- The removal fails, and the user is gone. -/
theorem lostLeave_not_restored : ¬ Along (step fields fields) (Restores fields fields) {} lostLeave := by
  intro h
  have hcontents := h.2.2.1 rfl
  have hrecord := congrArg (fun c => (c.users 1).bind fun users => users 7) hcontents
  exact absurd hrecord (by decide)

end FailureExample

end PresenceFailures
end ZyncBase
