import ZyncBase.Actions.Calls

/-! The registry of workers: a bucket of connections for each action in a namespace, from which calls
pick in turn. -/
namespace ZyncBase

open AssocMap List

structure RegistryKey where
  scope : ActionScope
  namespaceId : ℤ
  actionId : ℕ
  deriving DecidableEq, Repr

structure Bucket where
  workers : List ℕ := []
  next : ℕ := 0
  deriving DecidableEq, Repr

/-- The loop of `removeWorker` over the rest of the list: the last element takes the place of the one
that is removed, and is looked at next. Each turn makes the rest shorter by one. -/
def removeLoop (connId : ℕ) : ℕ → List ℕ → List ℕ
  | 0, xs => xs
  | _ + 1, [] => []
  | n + 1, x :: xs =>
    if x = connId then
      match xs.getLast? with
      | none => []
      | some last => removeLoop connId n (last :: xs.dropLast)
    else x :: removeLoop connId n xs

def removeWorker (connId : ℕ) (b : Bucket) : Bucket :=
  let workers := removeLoop connId b.workers.length b.workers
  { workers, next := if workers.length = 0 then 0 else b.next }

def addWorker (connId : ℕ) (b : Bucket) : Bucket :=
  if connId ∈ b.workers then b else { b with workers := b.workers ++ [connId] }

abbrev ActionRegistry := List (RegistryKey × Bucket)

namespace ActionRegistry

def pruneEmptyBuckets (reg : ActionRegistry) : ActionRegistry :=
  reg.filter fun e => e.2.workers ≠ []

def unregister (connId : ℕ) (scopeFilter : Option ActionScope) (reg : ActionRegistry) :
    ActionRegistry :=
  pruneEmptyBuckets <| reg.map fun e =>
    if scopeFilter.all (e.1.scope = ·) then (e.1, removeWorker connId e.2) else e

def register (connId : ℕ) (keys : List RegistryKey) (reg : ActionRegistry) : ActionRegistry :=
  keys.foldl (fun reg key => put eqKey key (addWorker connId ((find eqKey key reg).getD {})) reg) reg

/-- The next worker of a bucket, in turn. -/
def pickWorker (key : RegistryKey) (reg : ActionRegistry) : Option (ℕ × ActionRegistry) := do
  let b ← find eqKey key reg
  if b.workers.length = 0 then none
  else
    let idx := b.next % b.workers.length
    let worker ← b.workers[idx]?
    return (worker, put eqKey key { b with next := (idx + 1) % b.workers.length } reg)

/-- One connection leaves one bucket, which may be left empty. -/
def revoke (connId : ℕ) (key : RegistryKey) (reg : ActionRegistry) : ActionRegistry :=
  match find eqKey key reg with
  | none => reg
  | some b => put eqKey key (removeWorker connId b) reg

end ActionRegistry

variable {connId : ℕ} {b : Bucket}

section Workers

lemma removeLoop_perm {n : ℕ} {xs : List ℕ} (h : xs.length ≤ n) :
    (removeLoop connId n xs).Perm (xs.filter (· ≠ connId)) := by
  induction n generalizing xs with
  | zero =>
    obtain rfl := length_eq_zero_iff.mp (Nat.le_zero.mp h)
    exact .nil
  | succ n ih =>
    cases xs with
    | nil => exact .nil
    | cons x xs =>
      rw [removeLoop]
      rw [length_cons] at h
      by_cases hx : x = connId
      · rw [if_pos hx, filter_cons_of_neg (by simp [hx])]
        cases hlast : xs.getLast? with
        | none =>
          obtain rfl := List.getLast?_eq_none_iff.mp hlast
          exact .nil
        | some last =>
          obtain ⟨init, rfl⟩ := List.getLast?_eq_some_iff.mp hlast
          rw [dropLast_concat]
          rw [length_append, length_singleton] at h
          refine (ih (by rw [length_cons]; omega)).trans ?_
          exact (perm_append_singleton last init).symm.filter _
      · rw [if_neg hx, filter_cons_of_pos (by simp [hx])]
        exact (ih (by omega)).cons x

lemma mem_removeWorker {id : ℕ} : id ∈ (removeWorker connId b).workers ↔ id ∈ b.workers ∧ id ≠ connId := by
  change id ∈ removeLoop connId b.workers.length b.workers ↔ _
  rw [(removeLoop_perm le_rfl).mem_iff, mem_filter, decide_eq_true_eq]

lemma nodup_removeWorker (h : b.workers.Nodup) : (removeWorker connId b).workers.Nodup := by
  change (removeLoop connId b.workers.length b.workers).Nodup
  rw [(removeLoop_perm le_rfl).nodup_iff]
  exact h.filter _

lemma mem_addWorker {id : ℕ} : id ∈ (addWorker connId b).workers ↔ id ∈ b.workers ∨ id = connId := by
  unfold addWorker
  split_ifs with h
  · constructor
    · exact .inl
    · rintro (hid | rfl)
      · exact hid
      · exact h
  · rw [mem_append, mem_singleton]

lemma nodup_addWorker (h : b.workers.Nodup) : (addWorker connId b).workers.Nodup := by
  unfold addWorker
  split_ifs with hmem
  · exact h
  · rw [nodup_append]
    refine ⟨h, nodup_singleton _, fun a ha b hb hab => ?_⟩
    rw [mem_singleton] at hb
    rw [hab, hb] at ha
    exact hmem ha

end Workers

variable {key : RegistryKey}

namespace ActionRegistry

/-- Each worker of a bucket is there once, and is one that may stand under the bucket's key. -/
structure Routes (P : ℕ → RegistryKey → Prop) (reg : ActionRegistry) : Prop where
  distinct : Distinct eqKey reg
  nodup : ∀ e ∈ reg, e.2.workers.Nodup
  bound : ∀ e ∈ reg, ∀ id ∈ e.2.workers, P id e.1

def Filled (reg : ActionRegistry) : Prop := ∀ e ∈ reg, e.2.workers ≠ []

variable {P Q : ℕ → RegistryKey → Prop} {reg : ActionRegistry}

lemma Routes.mono (h : Routes P reg) (hPQ : ∀ e ∈ reg, ∀ id ∈ e.2.workers, P id e.1 → Q id e.1) :
    Routes Q reg where
  distinct := h.distinct
  nodup := h.nodup
  bound := fun e he id hid => hPQ e he id hid (h.bound e he id hid)

lemma filled_pruneEmptyBuckets (reg : ActionRegistry) : Filled reg.pruneEmptyBuckets := by
  intro e he
  exact of_decide_eq_true (mem_filter.mp he).2

lemma Routes.pruneEmptyBuckets (h : Routes P reg) : Routes P reg.pruneEmptyBuckets where
  distinct := List.Pairwise.filter _ h.distinct
  nodup := fun e he => h.nodup e (mem_filter.mp he).1
  bound := fun e he => h.bound e (mem_filter.mp he).1

lemma Routes.unregister (h : Routes P reg) (connId : ℕ) (scopeFilter : Option ActionScope)
    (hPQ : ∀ id key, P id key → (scopeFilter.all (key.scope = ·) → id ≠ connId) → Q id key) :
    Routes Q (reg.unregister connId scopeFilter) := by
  refine Routes.pruneEmptyBuckets ⟨?_, ?_, ?_⟩
  · rw [Distinct, pairwise_map]
    refine h.distinct.imp fun hne => ?_
    split_ifs <;> exact hne
  · intro e he
    obtain ⟨d, hd, rfl⟩ := mem_map.mp he
    split_ifs
    · exact nodup_removeWorker (h.nodup d hd)
    · exact h.nodup d hd
  · intro e he id hid
    obtain ⟨d, hd, rfl⟩ := mem_map.mp he
    split_ifs at hid ⊢ with hscope
    · obtain ⟨hmem, hne⟩ := mem_removeWorker.mp hid
      exact hPQ id d.1 (h.bound d hd id hmem) fun _ => hne
    · exact hPQ id d.1 (h.bound d hd id hid) fun hs => absurd hs hscope

lemma Routes.put (h : Routes P reg) (hnodup : b.workers.Nodup)
    (hbound : ∀ id ∈ b.workers, P id key) : Routes P (AssocMap.put eqKey key b reg) := by
  refine ⟨distinct_put eqKey h.distinct, fun e he => ?_, fun e he => ?_⟩
  · rcases fst_of_mem_put eqKey he with ⟨he, -⟩ | he
    · rw [he]
      exact hnodup
    · exact h.nodup e he
  · rcases fst_of_mem_put eqKey he with ⟨he, hkey⟩ | he
    · rw [he, (eqKey_iff _ _).mp hkey]
      exact hbound
    · exact h.bound e he

lemma Filled.put (h : Filled reg) (hb : b.workers ≠ []) : Filled (AssocMap.put eqKey key b reg) := by
  intro e he
  rcases fst_of_mem_put eqKey he with ⟨he, -⟩ | he
  · rw [he]
    exact hb
  · exact h e he

lemma Routes.find (h : Routes P reg)
    (hb : find eqKey key reg = some b) : b.workers.Nodup ∧ ∀ id ∈ b.workers, P id key := by
  obtain ⟨key', hkey, hmem⟩ := mem_of_find eqKey hb
  rw [eqKey_iff] at hkey
  subst hkey
  exact ⟨h.nodup _ hmem, h.bound _ hmem⟩

lemma Routes.register (h : Routes P reg) {keys : List RegistryKey}
    (hkeys : ∀ key ∈ keys, P connId key) : Routes P (reg.register connId keys) := by
  induction keys generalizing reg with
  | nil => exact h
  | cons key keys ih =>
    obtain ⟨hkey, hkeys⟩ := forall_mem_cons.mp hkeys
    refine ih (h.put ?_ ?_) hkeys
    · cases hb : AssocMap.find eqKey key reg with
      | none => exact nodup_addWorker nodup_nil
      | some b => exact nodup_addWorker (h.find hb).1
    · intro id hid
      rcases mem_addWorker.mp hid with hid | rfl
      · cases hb : AssocMap.find eqKey key reg with
        | none =>
          rw [hb] at hid
          cases hid
        | some b =>
          rw [hb] at hid
          exact (h.find hb).2 id hid
      · exact hkey

lemma Filled.register (h : Filled reg) (connId : ℕ) (keys : List RegistryKey) :
    Filled (reg.register connId keys) := by
  induction keys generalizing reg with
  | nil => exact h
  | cons key keys ih =>
    refine ih (h.put fun hnil => ?_)
    have hmem : connId ∈ (addWorker connId ((AssocMap.find eqKey key reg).getD {})).workers :=
      mem_addWorker.mpr (.inr rfl)
    rw [hnil] at hmem
    cases hmem

variable {reg' : ActionRegistry}

lemma pickWorker_eq_some {worker : ℕ}
    (h : reg.pickWorker key = some (worker, reg')) : ∃ b next, find eqKey key reg = some b ∧
      worker ∈ b.workers ∧ reg' = AssocMap.put eqKey key { b with next } reg := by
  unfold pickWorker at h
  obtain ⟨b, hb, h⟩ := Option.bind_eq_some_iff.mp h
  split_ifs at h
  obtain ⟨worker', hworker, h⟩ := Option.bind_eq_some_iff.mp h
  cases h
  exact ⟨b, _, hb, mem_of_getElem? hworker, rfl⟩

lemma Routes.pickWorker (h : Routes P reg) {worker : ℕ}
    (hpick : reg.pickWorker key = some (worker, reg')) : P worker key ∧ Routes P reg' := by
  obtain ⟨b, next, hb, hworker, rfl⟩ := pickWorker_eq_some hpick
  obtain ⟨hnodup, hbound⟩ := h.find hb
  exact ⟨hbound worker hworker, h.put hnodup hbound⟩

lemma Filled.pickWorker (h : Filled reg) {worker : ℕ}
    (hpick : reg.pickWorker key = some (worker, reg')) : Filled reg' := by
  obtain ⟨b, next, hb, hworker, rfl⟩ := pickWorker_eq_some hpick
  exact h.put (ne_nil_of_mem hworker)

lemma Routes.revoke (h : Routes P reg) (connId : ℕ) (key : RegistryKey) : Routes P (reg.revoke connId key) := by
  unfold ActionRegistry.revoke
  cases hb : AssocMap.find eqKey key reg with
  | none => exact h
  | some b =>
    obtain ⟨hnodup, hbound⟩ := h.find hb
    exact h.put (nodup_removeWorker hnodup) fun id hid => hbound id (mem_removeWorker.mp hid).1

lemma Routes.revoked (h : Routes P reg) (connId : ℕ) (key : RegistryKey) :
    Routes (fun id key' => id ≠ connId ∨ key' ≠ key) (reg.revoke connId key) := by
  have hrevoke := h.revoke connId key
  refine ⟨hrevoke.distinct, hrevoke.nodup, fun e he id hid => ?_⟩
  by_contra hboth
  rw [not_or, not_not, not_not] at hboth
  obtain ⟨rfl, rfl⟩ := hboth
  have hfind := find_of_mem eqKey hrevoke.distinct he (KeyTest.self eqKey e.1)
  unfold ActionRegistry.revoke at hfind
  cases hb : AssocMap.find eqKey e.1 reg with
  | none =>
    rw [hb] at hfind
    cases hb.symm.trans hfind
  | some b =>
    rw [hb, find_put, if_pos (by simp), Option.some.injEq] at hfind
    rw [← hfind] at hid
    exact (mem_removeWorker.mp hid).2 rfl

end ActionRegistry
end ZyncBase
