import Mathlib.Data.List.SplitBy
import ZyncBase.Presence.Failures

/-! What becomes of the queued presence updates when drains fail before one succeeds: a drain that fails
hands its batches back to be freed, with the patches that they have taken. -/
namespace ZyncBase

open List
namespace PresenceFailures

open AssocMap Machine

section Grouping

variable {T B : Type} (failsAt : ℕ → Bool)

def batched : ℕ → List (List T) → List (List T)
  | _, [] => []
  | i, group :: groups => if failsAt i then [] else group :: batched (i + 1) groups

lemma batched_append (i : ℕ) (groups : List (List T)) :
    batched failsAt i groups ++ groups.drop (batched failsAt i groups).length = groups := by
  induction groups generalizing i with
  | nil => rfl
  | cons group groups ih =>
    rw [batched]
    split_ifs
    · rfl
    · rw [length_cons, drop_succ_cons, cons_append, ih]

lemma flatten_batched (i : ℕ) (groups : List (List T)) : (batched failsAt i groups).flatten ++
    (groups.drop (batched failsAt i groups).length).flatten = groups.flatten := by
  rw [← flatten_append, batched_append]

lemma batched_of_length {i : ℕ} {groups : List (List T)}
    (h : (batched failsAt i groups).length = groups.length) : batched failsAt i groups = groups := by
  have happend := batched_append failsAt i groups
  rwa [h, drop_length, append_nil] at happend

lemma groupIntoBatches_eq (taken : T → T) (batch : List T → B) (i : ℕ) (groups : List (List T)) :
    groupIntoBatches failsAt taken batch i groups =
      (decide ((batched failsAt i groups).length = groups.length),
        (batched failsAt i groups).flatten.map taken ++ (groups.drop (batched failsAt i groups).length).flatten,
        (batched failsAt i groups).map batch) := by
  induction groups generalizing i with
  | nil => rfl
  | cons group groups ih =>
    rw [groupIntoBatches, batched]
    split_ifs with hfails
    · simp
    · rw [ih]
      simp

end Grouping

/-- A tier of queued updates: their namespaces, which of them carry a patch, which are dropped, and what a
batch leaves of one. -/
structure QueueTier (T : Type) where
  nspace : T → ℤ
  full : T → Bool
  droppable : T → Bool
  taken : T → T
  kept_of_full : ∀ e, full e = true → droppable e = false
  taken_full : ∀ e, full (taken e) = false
  taken_of_not_full : ∀ e, full e = false → taken e = e

namespace QueueTier

variable {T : Type} (t : QueueTier T)

/-- The updates that the next drain has to hand out, by namespace. -/
def owed (queue : List T) : List T :=
  (queue.filter fun e => !t.droppable e).insertionSort fun a b => t.nspace a ≤ t.nspace b

def groups (queue : List T) : List (List T) := (t.owed queue).splitBy fun a b => t.nspace a = t.nspace b

/-- What a drain leaves in the queue when it fails. -/
def remaining (failsAt : ℕ → Bool) (queue : List T) : List T :=
  let made := batched failsAt 0 (t.groups queue)
  made.flatten.map t.taken ++ ((t.groups queue).drop made.length).flatten

/-- How many of the updates carry a patch. -/
def patches (queue : List T) : ℕ := (t.owed queue).countP t.full

lemma flatten_groups (queue : List T) : (t.groups queue).flatten = t.owed queue :=
  flatten_splitBy _ _

lemma patches_eq (queue : List T) : t.patches queue = queue.countP t.full := by
  rw [patches, owed, (perm_insertionSort _ _).countP_eq, countP_filter]
  refine countP_congr fun e _ => ?_
  rw [Bool.and_eq_true]
  refine ⟨And.left, fun hfull => ⟨hfull, ?_⟩⟩
  rw [t.kept_of_full e hfull]
  rfl

lemma owed_idem (queue : List T) : t.owed (t.owed queue) = t.owed queue := by
  have hkept : (t.owed queue).filter (fun e => !t.droppable e) = t.owed queue := by
    refine filter_eq_self.mpr fun e he => ?_
    exact (mem_filter.mp ((mem_insertionSort _).mp he)).2
  rw [owed, hkept]
  have hsorted : (t.owed queue).Pairwise fun a b => t.nspace a ≤ t.nspace b := by
    have : IsTrans T fun a b => t.nspace a ≤ t.nspace b := ⟨fun _ _ _ => le_trans⟩
    have : Std.Total fun a b => t.nspace a ≤ t.nspace b := ⟨fun _ _ => le_total _ _⟩
    exact pairwise_insertionSort _ _
  exact hsorted.insertionSort_eq

lemma filter_owed (queue : List T) (namespaceId : ℤ) :
    (t.owed queue).filter (fun e => t.nspace e = namespaceId) =
      (queue.filter fun e => !t.droppable e).filter fun e => t.nspace e = namespaceId := by
  have : IsTrans T fun a b => t.nspace a ≤ t.nspace b := ⟨fun _ _ _ => le_trans⟩
  have : Std.Total fun a b => t.nspace a ≤ t.nspace b := ⟨fun _ _ => le_total _ _⟩
  have hmem {e : T} (he : e ∈ (queue.filter fun e => !t.droppable e).filter
      fun e => t.nspace e = namespaceId) : t.nspace e = namespaceId :=
    of_decide_eq_true (mem_filter.mp he).2
  have hin : ((queue.filter fun e => !t.droppable e).filter fun e => t.nspace e = namespaceId).Sublist
      (t.owed queue) := by
    refine sublist_insertionSort ?_ filter_sublist
    refine pairwise_of_forall_mem_list fun a ha b hb => ?_
    rw [hmem ha, hmem hb]
  have hsub := hin.filter fun e => decide (t.nspace e = namespaceId)
  rw [filter_eq_self.mpr fun e he => decide_eq_true (hmem he)] at hsub
  refine (hsub.eq_of_length ?_).symm
  exact ((perm_insertionSort _ _).filter _).length_eq.symm

lemma remaining_of_empty {failsAt : ℕ → Bool} {queue : List T}
    (h : ∀ e ∈ (batched failsAt 0 (t.groups queue)).flatten, t.full e = false) :
    t.remaining failsAt queue = t.owed queue := by
  have htaken : (batched failsAt 0 (t.groups queue)).flatten.map t.taken =
      (batched failsAt 0 (t.groups queue)).flatten :=
    (map_congr_left fun e he => t.taken_of_not_full e (h e he)).trans (map_id' _)
  rw [remaining, htaken, flatten_batched, flatten_groups]

lemma patches_remaining (failsAt : ℕ → Bool) (queue : List T) : t.patches (t.remaining failsAt queue) +
    (batched failsAt 0 (t.groups queue)).flatten.countP t.full = t.patches queue := by
  have hsplit := congrArg (List.countP t.full) (flatten_batched failsAt 0 (t.groups queue))
  rw [countP_append, flatten_groups] at hsplit
  have htaken : ((batched failsAt 0 (t.groups queue)).flatten.map t.taken).countP t.full = 0 := by
    rw [countP_eq_zero]
    intro e he
    obtain ⟨e, -, rfl⟩ := mem_map.mp he
    rw [t.taken_full]
    exact Bool.false_ne_true
  rw [patches_eq, remaining, countP_append, htaken, patches, ← hsplit]
  omega

lemma owed_remaining_iff (failsAt : ℕ → Bool) (queue : List T) :
    t.owed (t.remaining failsAt queue) = t.owed queue ↔
      ∀ e ∈ (batched failsAt 0 (t.groups queue)).flatten, t.full e = false := by
  constructor
  · intro howed
    have hpatches := t.patches_remaining failsAt queue
    rw [patches, howed, ← patches] at hpatches
    intro e he
    rw [← Bool.not_eq_true]
    exact countP_eq_zero.mp (by omega) e he
  · intro hempty
    rw [t.remaining_of_empty hempty, owed_idem]

lemma patches_owed (queue : List T) : t.patches (t.owed queue) = t.patches queue := by
  rw [patches, owed_idem, patches]

lemma filter_groups (queue : List T) (namespaceId : ℤ) :
    (t.groups queue).flatten.filter (fun e => t.nspace e = namespaceId) =
      (queue.filter fun e => !t.droppable e).filter fun e => t.nspace e = namespaceId := by
  rw [flatten_groups, filter_owed]

end QueueTier
section Drains

variable {V : Type}

def userTier (V : Type) : QueueTier ((ℤ × DocId) × PendingUserUpdate V) where
  nspace e := e.1.1
  full e := e.2.patch.isSome
  droppable e := e.2.isDroppable
  taken e := (e.1, { e.2 with patch := none })
  kept_of_full e hfull := by
    rw [PendingUserUpdate.isDroppable, Option.isNone_eq_false_iff.mpr hfull, Bool.false_and]
  taken_full _ := rfl
  taken_of_not_full e hempty := by
    rw [Option.isSome_eq_false_iff, Option.isNone_iff_eq_none] at hempty
    rw [← hempty]

def sharedTier (V : Type) : QueueTier (ℤ × SharedUpdate V) where
  nspace e := e.1
  full e := e.2.patch.isSome
  droppable e := !e.2.patch.isSome
  taken e := (e.1, { e.2 with patch := none })
  kept_of_full e hfull := by rw [hfull, Bool.not_true]
  taken_full _ := rfl
  taken_of_not_full e hempty := by
    rw [Option.isSome_eq_false_iff, Option.isNone_iff_eq_none] at hempty
    rw [← hempty]

def userBatch (m : PresenceStore V) (es : List ((ℤ × DocId) × PendingUserUpdate V)) : UserBatch V :=
  ⟨es, subscribersOf m.userSubscribers (es.head?.map fun e => e.1.1)⟩

def sharedBatch (m : PresenceStore V) (es : List (ℤ × SharedUpdate V)) : SharedBatch V :=
  ⟨es, subscribersOf m.sharedSubscribers (es.head?.map Prod.fst)⟩

/-- The batches for all that is queued. -/
def handedOut (m : PresenceStore V) : List (UserBatch V) × List (SharedBatch V) :=
  (((userTier V).groups m.pendingUserUpdates).map (userBatch m),
    ((sharedTier V).groups m.pendingSharedUpdates).map (sharedBatch m))

/-- The worker dispatches the batches of a drain, or frees those of one that fails. -/
def flush (fails : Faults) (m : PresenceStore V) :
    Option (List (UserBatch V) × List (SharedBatch V)) × PresenceStore V :=
  let drained := drainPendingBatches fails { m with userBatches := [], sharedBatches := [] }
  (drained.1.map fun _ => (drained.2.userBatches, drained.2.sharedBatches),
    { drained.2 with userBatches := [], sharedBatches := [] })

def madeUsers (fails : Faults) (m : PresenceStore V) : List (List ((ℤ × DocId) × PendingUserUpdate V)) :=
  batched (fun i => fails (.userBatch i)) 0 ((userTier V).groups m.pendingUserUpdates)

def madeShared (fails : Faults) (m : PresenceStore V) : List (List (ℤ × SharedUpdate V)) :=
  batched (fun i => fails (.sharedBatch i)) 0 ((sharedTier V).groups m.pendingSharedUpdates)

/-- The queues as a drain compacts and sorts them. -/
def compacted (m : PresenceStore V) : PresenceStore V :=
  { m with
    pendingUserUpdates := (userTier V).owed m.pendingUserUpdates
    pendingSharedUpdates := (sharedTier V).owed m.pendingSharedUpdates
    userBatches := []
    sharedBatches := [] }

lemma batchUsers_eq (fails : Faults) {m s : PresenceStore V}
    (h : s.pendingUserUpdates = (userTier V).owed m.pendingUserUpdates) :
    batchUsers fails s =
      (if (madeUsers fails m).length = ((userTier V).groups m.pendingUserUpdates).length then some () else none,
        { s with
          pendingUserUpdates := (userTier V).remaining (fun i => fails (.userBatch i)) m.pendingUserUpdates
          userBatches := s.userBatches ++ (madeUsers fails m).map (userBatch s) }) := by
  have hgrouped := groupIntoBatches_eq (fun i => fails (.userBatch i)) (userTier V).taken (userBatch s) 0
    ((userTier V).groups m.pendingUserUpdates)
  have hrun (grouped : Bool × List ((ℤ × DocId) × PendingUserUpdate V) × List (UserBatch V))
      (h : groupIntoBatches (fun i => fails (.userBatch i)) (userTier V).taken (userBatch s) 0
        (s.pendingUserUpdates.splitBy fun a b => a.1.1 = b.1.1) = grouped) :
      batchUsers fails s = (if grouped.1 then pure () else Attempt.fail : Attempt (PresenceStore V) Unit)
        { s with pendingUserUpdates := grouped.2.1, userBatches := s.userBatches ++ grouped.2.2 } := by
    subst h
    rfl
  have hgroups : (s.pendingUserUpdates.splitBy fun a b => a.1.1 = b.1.1) =
      (userTier V).groups m.pendingUserUpdates := by
    rw [h]
    rfl
  rw [hrun _ ((congrArg _ hgroups).trans hgrouped)]
  unfold madeUsers
  dsimp only
  simp only [decide_eq_true_eq]
  split_ifs <;> rfl

lemma batchShared_eq (fails : Faults) {m s : PresenceStore V}
    (h : s.pendingSharedUpdates = (sharedTier V).owed m.pendingSharedUpdates) :
    batchShared fails s =
      (if (madeShared fails m).length = ((sharedTier V).groups m.pendingSharedUpdates).length then some ()
        else none,
        { s with
          pendingSharedUpdates := (sharedTier V).remaining (fun i => fails (.sharedBatch i)) m.pendingSharedUpdates
          sharedBatches := s.sharedBatches ++ (madeShared fails m).map (sharedBatch s) }) := by
  have hgrouped := groupIntoBatches_eq (fun i => fails (.sharedBatch i)) (sharedTier V).taken (sharedBatch s) 0
    ((sharedTier V).groups m.pendingSharedUpdates)
  have hrun (grouped : Bool × List (ℤ × SharedUpdate V) × List (SharedBatch V))
      (h : groupIntoBatches (fun i => fails (.sharedBatch i)) (sharedTier V).taken (sharedBatch s) 0
        (s.pendingSharedUpdates.splitBy fun a b => a.1 = b.1) = grouped) :
      batchShared fails s = (if grouped.1 then pure () else Attempt.fail : Attempt (PresenceStore V) Unit)
        { s with pendingSharedUpdates := grouped.2.1, sharedBatches := s.sharedBatches ++ grouped.2.2 } := by
    subst h
    rfl
  have hgroups : (s.pendingSharedUpdates.splitBy fun a b => a.1 = b.1) =
      (sharedTier V).groups m.pendingSharedUpdates := by
    rw [h]
    rfl
  rw [hrun _ ((congrArg _ hgroups).trans hgrouped)]
  unfold madeShared
  dsimp only
  simp only [decide_eq_true_eq]
  split_ifs <;> rfl

/-- A drain compacts and sorts the queues, and makes the batches of the users, and then the others. -/
lemma drainPendingBatches_eq (fails : Faults) (m : PresenceStore V) :
    drainPendingBatches fails { m with userBatches := [], sharedBatches := [] } =
      match batchUsers fails (compacted m) with
      | (none, s) => (none, s)
      | (some _, s) =>
        match batchShared fails s with
        | (none, s) => (none, s)
        | (some _, s) => (some (), { s with pendingUserUpdates := [], pendingSharedUpdates := [] }) := by
  have hshared : (m.pendingSharedUpdates.filter fun e => e.2.patch.isSome).insertionSort (fun a b => a.1 ≤ b.1) =
      (sharedTier V).owed m.pendingSharedUpdates := by
    unfold QueueTier.owed sharedTier
    simp only [Bool.not_not]
  have hstart : compacted m = { m with
      pendingUserUpdates := (m.pendingUserUpdates.filter fun e => !e.2.isDroppable).insertionSort
        fun a b => a.1.1 ≤ b.1.1
      pendingSharedUpdates := (m.pendingSharedUpdates.filter fun e => e.2.patch.isSome).insertionSort
        fun a b => a.1 ≤ b.1
      userBatches := []
      sharedBatches := [] } := by
    rw [hshared]
    rfl
  rw [hstart]
  change (batchUsers fails >>= fun _ => (batchShared fails >>= fun _ => Attempt.change fun m =>
    { m with pendingUserUpdates := [], pendingSharedUpdates := [] } : Attempt (PresenceStore V) Unit)) _ = _
  rw [Attempt.bind_apply]
  generalize batchUsers fails _ = users
  obtain ⟨result, s⟩ := users
  cases result with
  | none => rfl
  | some _ =>
    dsimp only
    rw [Attempt.bind_apply]
    generalize batchShared fails s = shared
    obtain ⟨result, s⟩ := shared
    cases result <;> rfl

lemma flush_eq (fails : Faults) (m : PresenceStore V) : flush fails m =
    if (madeUsers fails m).length = ((userTier V).groups m.pendingUserUpdates).length then
      if (madeShared fails m).length = ((sharedTier V).groups m.pendingSharedUpdates).length then
        (some (handedOut m), { m with
          pendingUserUpdates := [], pendingSharedUpdates := [], userBatches := [], sharedBatches := [] })
      else
        (none, { m with
          pendingUserUpdates := (userTier V).remaining (fun i => fails (.userBatch i)) m.pendingUserUpdates
          pendingSharedUpdates :=
            (sharedTier V).remaining (fun i => fails (.sharedBatch i)) m.pendingSharedUpdates
          userBatches := [], sharedBatches := [] })
    else
      (none, { m with
        pendingUserUpdates := (userTier V).remaining (fun i => fails (.userBatch i)) m.pendingUserUpdates
        pendingSharedUpdates := (sharedTier V).owed m.pendingSharedUpdates
        userBatches := [], sharedBatches := [] }) := by
  unfold flush
  rw [drainPendingBatches_eq, batchUsers_eq fails (m := m) rfl]
  split_ifs with husers hshared
  · dsimp only
    rw [batchShared_eq fails (m := m) rfl, if_pos hshared]
    have hu := batched_of_length _ husers
    have hs := batched_of_length _ hshared
    unfold handedOut
    rw [← hu, ← hs]
    rfl
  · dsimp only
    rw [batchShared_eq fails (m := m) rfl, if_neg hshared]
    rfl
  · rfl

/-- A drain that fails has put no update with a patch into a batch before. -/
def MovesNone (fails : Faults) (m : PresenceStore V) : Prop :=
  if (madeUsers fails m).length = ((userTier V).groups m.pendingUserUpdates).length then
    (madeShared fails m).length = ((sharedTier V).groups m.pendingSharedUpdates).length ∨
      (∀ e ∈ (madeUsers fails m).flatten, e.2.patch = none) ∧ ∀ e ∈ (madeShared fails m).flatten, e.2.patch = none
  else ∀ e ∈ (madeUsers fails m).flatten, e.2.patch = none

/-- A drain that fails leaves all that has to be handed out, and one that succeeds hands it out. -/
def KeepsOwed (fails : Faults) (m : PresenceStore V) : Prop :=
  match flush fails m with
  | (none, m') => (userTier V).owed m'.pendingUserUpdates = (userTier V).owed m.pendingUserUpdates ∧
      (sharedTier V).owed m'.pendingSharedUpdates = (sharedTier V).owed m.pendingSharedUpdates
  | (some batches, m') => batches = handedOut m ∧ m'.pendingUserUpdates = [] ∧ m'.pendingSharedUpdates = []

lemma keepsOwed_iff (fails : Faults) (m : PresenceStore V) : KeepsOwed fails m ↔ MovesNone fails m := by
  have husers := (userTier V).owed_remaining_iff (fun i => fails (.userBatch i)) m.pendingUserUpdates
  have hshared := (sharedTier V).owed_remaining_iff (fun i => fails (.sharedBatch i)) m.pendingSharedUpdates
  have hnone {α : Type} (o : Option α) : o.isSome = false ↔ o = none := by simp
  change _ ↔ ∀ e ∈ (madeUsers fails m).flatten, e.2.patch.isSome = false at husers
  change _ ↔ ∀ e ∈ (madeShared fails m).flatten, e.2.patch.isSome = false at hshared
  simp only [hnone] at husers hshared
  unfold KeepsOwed MovesNone
  rw [flush_eq]
  split_ifs with hall hall'
  · exact ⟨fun _ => .inl hall', fun _ => ⟨rfl, rfl, rfl⟩⟩
  · rw [or_iff_right hall']
    exact and_congr husers hshared
  · dsimp only
    rw [(sharedTier V).owed_idem]
    exact (and_iff_left rfl).trans husers

/-- How many of the queued updates carry a patch. -/
def patches (m : PresenceStore V) : ℕ :=
  (userTier V).patches m.pendingUserUpdates + (sharedTier V).patches m.pendingSharedUpdates

lemma patches_flush {fails : Faults} {m : PresenceStore V} (hfail : (flush fails m).1 = none) :
    patches (flush fails m).2 ≤ patches m ∧ (patches (flush fails m).2 = patches m → MovesNone fails m) := by
  have husers := (userTier V).patches_remaining (fun i => fails (.userBatch i)) m.pendingUserUpdates
  have hshared := (sharedTier V).patches_remaining (fun i => fails (.sharedBatch i)) m.pendingSharedUpdates
  change _ + (madeUsers fails m).flatten.countP _ = _ at husers
  change _ + (madeShared fails m).flatten.countP _ = _ at hshared
  have hempty {T : Type} (t : QueueTier T) {es : List T} (h : es.countP t.full = 0) :
      ∀ e ∈ es, t.full e = false := fun e he => Bool.not_eq_true _ ▸ countP_eq_zero.mp h e he
  have hnone {α : Type} {o : Option α} (h : o.isSome = false) : o = none := by simpa using h
  rw [flush_eq] at hfail ⊢
  unfold MovesNone
  split_ifs at hfail ⊢ with hall hall'
  · unfold patches
    dsimp only
    refine ⟨by omega, fun hsame => .inr ⟨fun e he => hnone ?_, fun e he => hnone ?_⟩⟩
    · exact hempty (userTier V) (by omega) e he
    · exact hempty (sharedTier V) (by omega) e he
  · unfold patches
    dsimp only
    rw [(sharedTier V).patches_owed]
    exact ⟨by omega, fun hsame e he => hnone (hempty (userTier V) (by omega) e he)⟩

variable {m : PresenceStore V} {failing : List Faults}

/-- The state after a drain, failed or not. -/
def drained (m : PresenceStore V) (fails : Faults) : PresenceStore V := (flush fails m).2

lemma KeepsOwed.of_none {fails : Faults} (h : KeepsOwed fails m) (hnone : (flush fails m).1 = none) :
    (userTier V).owed (drained m fails).pendingUserUpdates = (userTier V).owed m.pendingUserUpdates ∧
      (sharedTier V).owed (drained m fails).pendingSharedUpdates = (sharedTier V).owed m.pendingSharedUpdates := by
  unfold KeepsOwed at h
  unfold drained
  cases hflush : flush fails m with
  | mk result m' =>
    rw [hflush] at h hnone
    cases result with
    | none => exact h
    | some batches => cases hnone

lemma handedOut_foldl (hfail : Along drained (fun m fails => (flush fails m).1 = none) m failing)
    (hmoves : Along drained (fun m fails => MovesNone fails m) m failing) :
    handedOut (failing.foldl drained m) = handedOut m := by
  induction failing generalizing m with
  | nil => rfl
  | cons fails failing ih =>
    rw [foldl_cons, ih hfail.2 hmoves.2]
    have hkeeps := ((keepsOwed_iff fails m).mpr hmoves.1).of_none hfail.1
    have hsubscribers : (drained m fails).userSubscribers = m.userSubscribers ∧
        (drained m fails).sharedSubscribers = m.sharedSubscribers := by
      unfold drained
      rw [flush_eq]
      split_ifs <;> exact ⟨rfl, rfl⟩
    unfold handedOut QueueTier.groups
    rw [hkeeps.1, hkeeps.2]
    unfold userBatch sharedBatch
    rw [hsubscribers.1, hsubscribers.2]

lemma patches_foldl (hfail : Along drained (fun m fails => (flush fails m).1 = none) m failing) :
    patches (failing.foldl drained m) ≤ patches m ∧ (patches (failing.foldl drained m) = patches m →
      Along drained (fun m fails => MovesNone fails m) m failing) := by
  induction failing generalizing m with
  | nil => exact ⟨le_rfl, fun _ => trivial⟩
  | cons fails failing ih =>
    obtain ⟨hle, hmoves⟩ := patches_flush hfail.1
    obtain ⟨hle', hmoves'⟩ := ih hfail.2
    change patches (drained m fails) ≤ _ at hle
    change patches (drained m fails) = _ → _ at hmoves
    rw [foldl_cons]
    exact ⟨hle'.trans hle, fun hsame => ⟨hmoves (by omega), hmoves' (by omega)⟩⟩

lemma patches_of_handedOut {m m' : PresenceStore V} (h : handedOut m' = handedOut m) : patches m' = patches m := by
  have husers := congrArg (fun batches => (batches.1.map UserBatch.updates).flatten) h
  have hshared := congrArg (fun batches => (batches.2.map SharedBatch.updates).flatten) h
  unfold handedOut at husers hshared
  simp only [map_map] at husers hshared
  have hu (m : PresenceStore V) : ((userTier V).groups m.pendingUserUpdates).map
      (UserBatch.updates ∘ userBatch m) = (userTier V).groups m.pendingUserUpdates := map_id' _
  have hs (m : PresenceStore V) : ((sharedTier V).groups m.pendingSharedUpdates).map
      (SharedBatch.updates ∘ sharedBatch m) = (sharedTier V).groups m.pendingSharedUpdates := map_id' _
  rw [hu, hu, QueueTier.flatten_groups, QueueTier.flatten_groups] at husers
  rw [hs, hs, QueueTier.flatten_groups, QueueTier.flatten_groups] at hshared
  unfold patches QueueTier.patches
  rw [husers, hshared]

/-- The drain that succeeds at last hands out all that was queued exactly if none before it has moved a
patch. -/
lemma handedOut_iff {last : Faults} {batches : List (UserBatch V) × List (SharedBatch V)}
    (hfail : Along drained (fun m fails => (flush fails m).1 = none) m failing)
    (hlast : (flush last (failing.foldl drained m)).1 = some batches) :
    batches = handedOut m ↔ Along drained (fun m fails => MovesNone fails m) m failing := by
  have hbatches : batches = handedOut (failing.foldl drained m) := by
    rw [flush_eq] at hlast
    split_ifs at hlast
    exact (Option.some.inj hlast).symm
  rw [hbatches]
  exact ⟨fun h => (patches_foldl hfail).2 (patches_of_handedOut h), handedOut_foldl hfail⟩

end Drains

section Runs

variable {V : Type}

/-- The worker runs the calls, and flushes instead of only draining. -/
def workerStep (user shared : PresenceSchema V) (m : PresenceStore V) (e : Attempted V) : PresenceStore V :=
  match e.1 with
  | .drainPendingBatches => drained m e.2
  | _ => step user shared m e

def KeepsQueued (m : PresenceStore V) (e : Attempted V) : Prop :=
  match e.1 with
  | .drainPendingBatches => KeepsOwed e.2 m
  | _ => True

def LosesNone (m : PresenceStore V) (e : Attempted V) : Prop :=
  match e.1 with
  | .drainPendingBatches => MovesNone e.2 m
  | _ => True

/-- What is queued when a drain succeeds has been handed out, once and in order, exactly if no drain that
failed before had put an update with a patch into a batch: for drains one after the other, and for runs in
which other calls come between them, any of which may fail. -/
theorem drains_keep_iff (user shared : PresenceSchema V) :
    (∀ (m : PresenceStore V) failing last batches,
      Along drained (fun m fails => (flush fails m).1 = none) m failing →
      (flush last (failing.foldl drained m)).1 = some batches →
      (batches = handedOut m ↔ Along drained (fun m fails => MovesNone fails m) m failing)) ∧
    (∀ (m : PresenceStore V) namespaceId,
      ((handedOut m).1.map UserBatch.updates).flatten.filter (fun e => e.1.1 = namespaceId) =
        (m.pendingUserUpdates.filter fun e => !e.2.isDroppable).filter (fun e => e.1.1 = namespaceId) ∧
      ((handedOut m).2.map SharedBatch.updates).flatten.filter (fun e => e.1 = namespaceId) =
        (m.pendingSharedUpdates.filter fun e => e.2.patch.isSome).filter fun e => e.1 = namespaceId) ∧
    ∀ events : List (Attempted V), Along (workerStep user shared) KeepsQueued {} events ↔
      Along (workerStep user shared) LosesNone {} events := by
  refine ⟨fun m failing last batches hfail hlast => handedOut_iff hfail hlast, fun m namespaceId => ?_,
    fun events => ?_⟩
  · have husers := (userTier V).filter_groups m.pendingUserUpdates namespaceId
    have hshared := (sharedTier V).filter_groups m.pendingSharedUpdates namespaceId
    unfold handedOut
    simp only [List.map_map]
    constructor
    · exact (congrArg _ (congrArg _ (List.map_id' _))).trans husers
    · refine (congrArg _ (congrArg _ (List.map_id' _))).trans (hshared.trans ?_)
      unfold sharedTier
      simp only [Bool.not_not]
  · refine along_iff (I := fun _ => True) (fun _ _ _ _ _ => trivial) (fun m e _ _ => ?_) trivial
    unfold KeepsQueued LosesNone
    cases e.1 with
    | drainPendingBatches => exact keepsOwed_iff e.2 m
    | _ => exact Iff.rfl

end Runs
namespace DrainExample

/-- One user field, and no shared ones. -/
def oneField : PresenceSchema ℕ := ⟨1, fun _ _ => true, id⟩

def twoJoins : List (Attempted ℕ) :=
  [(.setUser 1 7 [(0, 3)] 100, fun _ => false), (.setUser 2 8 [(0, 4)] 100, fun _ => false)]

/-- The first drain fails at its second batch, and the next one hands out the second batch only. -/
theorem secondBatch_loses : ¬ ∀ (events : List (Attempted ℕ)) failing last batches,
    Along drained (fun m fails => (flush fails m).1 = none)
      (events.foldl (workerStep oneField oneField) {}) failing →
    (flush last (failing.foldl drained (events.foldl (workerStep oneField oneField) {}))).1 = some batches →
    batches = handedOut (events.foldl (workerStep oneField oneField) {}) := by
  intro h
  have hall := h twoJoins [fun site => site = .userBatch 1] (fun _ => false) _ ⟨rfl, trivial⟩ rfl
  exact absurd (congrArg (fun batches => batches.1.length) hall) (by decide)

end DrainExample
end PresenceFailures
end ZyncBase
