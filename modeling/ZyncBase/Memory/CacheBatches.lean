import ZyncBase.Lib.Outcome
import ZyncBase.Memory.CachePlans

/-! The mutations of the cache with every allocation that they make, each of which may fail. A batch ends
with the contents that its mutations have one after the other; one that fails has changed nothing and has
released none of its values. -/
namespace ZyncBase

open List Attempt CachePlan
namespace CacheBatches

open AssocMap
open Attempt (meets_bind meets_change meets_read meets_onError meets_pure)

/-- The allocations that fail and the oldest epoch in use, by the number of allocations so far. -/
structure Env where
  fails : ℕ → Bool
  minEpoch : ℕ → ℕ

/-- The map of the cache, and every entry that was ever made with its data. An entry is destroyed without
its data or released with it; before that it may be deferred. -/
structure CacheHeap (K V : Type) where
  entries : List (K × ℕ) := []
  values : List V := []
  deferred : List DeferNode := []
  destroyed : List ℕ := []
  released : List ℕ := []
  map : ℕ := 0
  epoch : ℕ := 0
  tries : ℕ := 0

section Model

variable {K V : Type} [DecidableEq K]

namespace CacheHeap

def contents (c : CacheHeap K V) : K → Option V := CachePlan.lookup c.entries c.values

def resources (c : CacheHeap K V) : List CacheResource := c.deferred.map EpochReclamation.Node.resource

def destroy (entries : List ℕ) (c : CacheHeap K V) : CacheHeap K V :=
  { c with destroyed := c.destroyed ++ entries }

def deferNode (r : CacheResource) (c : CacheHeap K V) : CacheHeap K V :=
  { c with deferred := ⟨r, c.epoch⟩ :: c.deferred }

end CacheHeap

open CacheHeap

variable (env : Env)

/-- The entries of nodes that nobody uses any more are released; the other nodes are pushed back. -/
def reclaim (c : CacheHeap K V) : CacheHeap K V :=
  let isOld (node : DeferNode) : Bool := node.epoch < env.minEpoch c.tries
  { c with
    deferred := (c.deferred.filter fun node => !isOld node).reverse
    released := c.released ++ (c.deferred.filter isOld).filterMap fun node =>
      match node.resource with
      | .entry e => some e
      | .map _ => none }

def alloc : Attempt (CacheHeap K V) Unit := fun c =>
  (if env.fails c.tries then none else some (), { c with tries := c.tries + 1 })

def acquireDeferNode : Attempt (CacheHeap K V) Unit :=
  (alloc env).orTry do
    change (reclaim env)
    alloc env

/-- Without a node the resource is never freed. -/
def internalDefer (r : CacheResource) : Attempt (CacheHeap K V) Unit :=
  (do
    acquireDeferNode env
    change (deferNode r)).orTry (pure ())

def cloneEntries : Attempt (CacheHeap K V) (List (K × ℕ)) := do
  alloc env
  alloc env
  let c ← read
  return c.entries

def initEntry (data : V) : Attempt (CacheHeap K V) ℕ := do
  alloc env
  let c ← read
  change fun c => { c with values := c.values ++ [data] }
  return c.values.length

/-- A key that is already in the map needs no more room. -/
def getOrPut (new : List (K × ℕ)) (key : K) (entry : ℕ) : Attempt (CacheHeap K V) (List (K × ℕ)) := do
  if (find eqKey key new).isNone then alloc env
  return put eqKey key entry new

def deferReplaced : Option ℕ → Attempt (CacheHeap K V) Unit
  | some entry => internalDefer env (.entry entry)
  | none => pure ()

def swapIn (new : List (K × ℕ)) (replaced : Option ℕ) : Attempt (CacheHeap K V) Unit := do
  let c ← read
  change fun c => { c with entries := new, map := c.map + 1 }
  deferReplaced env replaced
  internalDefer env (.map c.map)
  change fun c => { c with epoch := c.epoch + 1 }

def update (key : K) (data : V) : Attempt (CacheHeap K V) Unit := do
  let old ← cloneEntries env
  let entry ← initEntry env data
  let new ← (getOrPut env old key entry).onError (destroy [entry])
  swapIn env new (find eqKey key old)

def evict (key : K) : Attempt (CacheHeap K V) Bool := do
  let c ← read
  match find eqKey key c.entries with
  | none => return false
  | some entry =>
    let old ← cloneEntries env
    swapIn env (remove eqKey key old) (some entry)
    return true

/-- The values that a batch brings in. -/
def updatesOf (mutations : List (CacheMutation K V)) : List (K × V) :=
  mutations.filterMap fun
    | .update key data => some (key, data)
    | .evict _ => none

/-- Entries for all updates; those that are made already are destroyed where one fails. -/
def prepareUpdates (prepared : List ℕ) : List (K × V) → Attempt (CacheHeap K V) (List ℕ)
  | [] => return prepared
  | update :: updates => do
    let entry ← (initEntry env update.2).onError (destroy prepared)
    prepareUpdates (prepared ++ [entry]) updates

def applyMutations (new : List (K × ℕ)) :
    List (CacheMutation K V) → List ℕ → Attempt (CacheHeap K V) (List (K × ℕ))
  | .update key _ :: mutations, entry :: prepared => do
    let new ← getOrPut env new key entry
    applyMutations new mutations prepared
  | .evict key :: mutations, prepared => applyMutations (remove eqKey key new) mutations prepared
  | _, _ => return new

def droppedEntries (old new : List (K × ℕ)) : List CacheResource :=
  old.filterMap fun e => if find eqKey e.1 new = some e.2 then none else some (.entry e.2)

def reserveNodes : ℕ → Attempt (CacheHeap K V) Unit
  | 0 => return ()
  | n + 1 => do
    acquireDeferNode env
    reserveNodes n

/-- The updates that the batch itself has replaced or evicted again. -/
def superseded (updates : List (K × V)) (prepared : List ℕ) (new : List (K × ℕ)) : List ℕ :=
  (updates.zip prepared).filterMap fun e => if find eqKey e.1.1 new = some e.2 then none else some e.2

/-- What is left to do once the entries of a batch are made. -/
def swapBatch (mutations : List (CacheMutation K V)) (prepared : List ℕ) : Attempt (CacheHeap K V) Unit := do
  let old ← cloneEntries env
  let new ← applyMutations env old mutations prepared
  alloc env
  reserveNodes env ((droppedEntries old new).length + 1)
  change fun c =>
    let deferred := (droppedEntries old new).foldl (fun c r => deferNode r c)
      { c with entries := new, map := c.map + 1 }
    { deferNode (.map c.map) { deferred with
        released := deferred.released ++ superseded (updatesOf mutations) prepared new } with
      epoch := c.epoch + 1 }

def applyBatch : List (CacheMutation K V) → Attempt (CacheHeap K V) Unit
  | [] => return ()
  | [.update key data] => update env key data
  | [.evict key] => do
    let _ ← evict env key
  | mutations => do
    alloc env
    let prepared ← prepareUpdates env [] (updatesOf mutations)
    let c ← read
    if mutations.any fun m => m.changes c.entries then
      (swapBatch env mutations prepared).onError (destroy prepared)

def applyEach : List (CacheMutation K V) → Attempt (CacheHeap K V) Unit
  | [] => return ()
  | .update key data :: mutations => do
    update env key data
    applyEach mutations
  | .evict key :: mutations => do
    let _ ← evict env key
    applyEach mutations

end Model

section Bookkeeping

variable {K V : Type} {c c' c'' : CacheHeap K V}

/-- What leaves the map as it is: data is added for new entries, nodes are added and freed, and some
entries are destroyed. -/
structure Kept (c : CacheHeap K V) (made : List V) (deferred : List CacheResource)
    (discarded : List ℕ) (c' : CacheHeap K V) : Prop where
  entries : c'.entries = c.entries
  values : c'.values = c.values ++ made
  resources : ∀ r ∈ c'.resources, r ∈ c.resources ∨ r ∈ deferred
  released : ∀ e ∈ c'.released, e ∈ c.released ∨ .entry e ∈ c.resources ∨ .entry e ∈ deferred
  destroyed : c'.destroyed = c.destroyed ++ discarded

lemma Kept.of_eq (hentries : c'.entries = c.entries) (hvalues : c'.values = c.values)
    (hdeferred : c'.deferred = c.deferred) (hreleased : c'.released = c.released)
    (hdestroyed : c'.destroyed = c.destroyed) : Kept c [] [] [] c' where
  entries := hentries
  values := hvalues.trans (append_nil _).symm
  resources r hr := .inl (by rwa [CacheHeap.resources, hdeferred] at hr)
  released e he := .inl (hreleased ▸ he)
  destroyed := hdestroyed.trans (append_nil _).symm

lemma Kept.refl (c : CacheHeap K V) : Kept c [] [] [] c := .of_eq rfl rfl rfl rfl rfl

lemma Kept.trans {made made' : List V} {deferred deferred' : List CacheResource}
    {discarded discarded' : List ℕ} (h : Kept c made deferred discarded c')
    (h' : Kept c' made' deferred' discarded' c'') :
    Kept c (made ++ made') (deferred ++ deferred') (discarded ++ discarded') c'' where
  entries := h'.entries.trans h.entries
  values := by rw [h'.values, h.values, append_assoc]
  resources r hr := by
    rcases h'.resources r hr with hr | hr
    · exact (h.resources r hr).imp_right (mem_append_left _)
    · exact .inr (mem_append_right _ hr)
  released e he := by
    rcases h'.released e he with he | he | he
    · exact (h.released e he).imp_right (Or.imp_right (mem_append_left _))
    · exact .inr ((h.resources _ he).imp_right (mem_append_left _))
    · exact .inr (.inr (mem_append_right _ he))
  destroyed := by rw [h'.destroyed, h.destroyed, append_assoc]

lemma kept_destroy (c : CacheHeap K V) (entries : List ℕ) : Kept c [] [] entries (c.destroy entries) where
  entries := rfl
  values := (append_nil _).symm
  resources _ hr := .inl hr
  released _ he := .inl he
  destroyed := rfl

lemma kept_deferNode (c : CacheHeap K V) (r : CacheResource) : Kept c [] [r] [] (c.deferNode r) where
  entries := rfl
  values := (append_nil _).symm
  resources _ hr := (mem_cons.mp hr).symm.imp_right mem_singleton.mpr
  released _ he := .inl he
  destroyed := (append_nil _).symm

lemma kept_reclaim (env : Env) (c : CacheHeap K V) : Kept c [] [] [] (reclaim env c) where
  entries := rfl
  values := (append_nil _).symm
  resources r hr := by
    obtain ⟨node, hnode, rfl⟩ := mem_map.mp hr
    exact .inl (mem_map.mpr ⟨node, (mem_filter.mp (mem_reverse.mp hnode)).1, rfl⟩)
  released e he := by
    rcases mem_append.mp he with he | he
    · exact .inl he
    · obtain ⟨node, hnode, hentry⟩ := mem_filterMap.mp he
      refine .inr (.inl (mem_map.mpr ⟨node, (mem_filter.mp hnode).1, ?_⟩))
      split at hentry
      · rename_i e' hresource
        cases hentry
        exact hresource
      · cases hentry
  destroyed := (append_nil _).symm

/-- What a failure leaves: the entries that were made are destroyed, or lost, with their data. -/
def Undone (c c' : CacheHeap K V) : Prop :=
  ∃ made discarded, Kept c made [] discarded c' ∧
    ∀ e ∈ discarded, c.values.length ≤ e ∧ e < c.values.length + made.length

lemma Kept.undone {made : List V} (h : Kept c made [] [] c') : Undone c c' := ⟨made, [], h, nofun⟩

lemma Kept.destroy {made : List V} {n : ℕ} (h : Kept c made [] [] c') (hn : n ≤ made.length) :
    Undone c (c'.destroy (List.range' c.values.length n)) := by
  have hdestroyed := h.trans (kept_destroy c' (List.range' c.values.length n))
  rw [append_nil] at hdestroyed
  refine ⟨made, _, hdestroyed, fun e he => ?_⟩
  rw [nil_append, List.mem_range'_1] at he
  omega

lemma Undone.entries (h : Undone c c') : c'.entries = c.entries := by
  obtain ⟨made, discarded, hkept, -⟩ := h
  exact hkept.entries

/-- What a new map leaves, in terms of the plan for it. -/
structure Swapped (c : CacheHeap K V) (plan : CachePlan K V) (c' : CacheHeap K V) : Prop where
  entries : c'.entries = plan.entries
  values : c'.values = c.values ++ plan.created
  resources : ∀ e, .entry e ∈ c'.resources → .entry e ∈ c.resources ∨ .entry e ∈ plan.dropped
  released : ∀ e ∈ c'.released, e ∈ c.released ∨ .entry e ∈ c.resources ∨
    .entry e ∈ plan.dropped ∨ e ∈ plan.superseded
  destroyed : c'.destroyed = c.destroyed

lemma Kept.swapped {plan : CachePlan K V} {deferred : List CacheResource} {map : ℕ}
    {after : CacheHeap K V} (h : Kept c plan.created [] [] c')
    (hafter : Kept { c' with entries := plan.entries, map } [] deferred [] after)
    (hdropped : ∀ e, .entry e ∈ deferred → .entry e ∈ plan.dropped)
    (hentries : c''.entries = after.entries) (hvalues : c''.values = after.values)
    (hdeferred : c''.deferred = after.deferred)
    (hreleased : c''.released = after.released ++ plan.superseded)
    (hdestroyed : c''.destroyed = after.destroyed) : Swapped c plan c'' where
  entries := hentries.trans hafter.entries
  values := by
    rw [hvalues, hafter.values, append_nil]
    exact h.values
  resources e he := by
    rw [CacheHeap.resources, hdeferred] at he
    rcases hafter.resources _ he with he | he
    · exact .inl ((h.resources _ he).resolve_right nofun)
    · exact .inr (hdropped e he)
  released e he := by
    rw [hreleased] at he
    rcases mem_append.mp he with he | he
    · rcases hafter.released e he with he | he | he
      · exact (h.released e he).imp_right fun he => .inl (he.resolve_right nofun)
      · exact .inr (.inl ((h.resources _ he).resolve_right nofun))
      · exact .inr (.inr (.inl (hdropped e he)))
    · exact .inr (.inr (.inr he))
  destroyed := by
    rw [hdestroyed, hafter.destroyed, append_nil]
    exact h.destroyed.trans (append_nil _)

end Bookkeeping

section Steps

variable {K V : Type} {c c' c'' : CacheHeap K V}

lemma meets_alloc (env : Env) (c : CacheHeap K V) :
    (alloc env).Meets c (fun _ => Kept c [] [] []) (Kept c [] [] []) := by
  have hkept : Kept c [] [] [] { c with tries := c.tries + 1 } := .of_eq rfl rfl rfl rfl rfl
  unfold Meets alloc
  by_cases hfails : env.fails c.tries
  · simp only [hfails, if_true]
    exact hkept
  · simp only [hfails]
    exact hkept

lemma meets_acquireDeferNode (env : Env) (c : CacheHeap K V) :
    (acquireDeferNode env).Meets c (fun _ => Kept c [] [] []) (Kept c [] [] []) := by
  rw [acquireDeferNode, meets_orTry]
  refine (meets_alloc env c).mono (fun _ _ h => h) fun c' h => ?_
  rw [meets_bind, meets_change]
  have hreclaimed := h.trans (kept_reclaim env c')
  exact (meets_alloc env (reclaim env c')).mono (fun _ _ h' => hreclaimed.trans h')
    fun _ h' => hreclaimed.trans h'

lemma meets_internalDefer (env : Env) (r : CacheResource) (c : CacheHeap K V) :
    (internalDefer env r).Meets c (fun _ => Kept c [] [r] []) fun _ => False := by
  rw [internalDefer, meets_orTry, meets_bind]
  refine (meets_acquireDeferNode env c).mono (fun _ c' h => ?_) fun c' h => ?_
  · rw [meets_change]
    exact h.trans (kept_deferNode c' r)
  · rw [meets_pure]
    exact ⟨h.entries, h.values, fun r' hr => (h.resources r' hr).imp_right nofun,
      fun e he => (h.released e he).imp_right (Or.imp_right nofun), h.destroyed⟩

lemma meets_cloneEntries (env : Env) (c : CacheHeap K V) :
    (cloneEntries env).Meets c (fun old c' => old = c.entries ∧ Kept c [] [] [] c') (Kept c [] [] []) := by
  refine (meets_alloc env c).bind (fun _ h => h) fun _ c' h => ?_
  refine (meets_alloc env c').bind (fun _ h' => h.trans h') fun _ c'' h' => ?_
  rw [meets_bind, meets_read, meets_pure]
  exact ⟨(h.trans h').entries, h.trans h'⟩

lemma meets_initEntry (env : Env) (data : V) (c : CacheHeap K V) :
    (initEntry env data).Meets c (fun e c' => e = c.values.length ∧ Kept c [data] [] [] c')
      (Kept c [] [] []) := by
  refine (meets_alloc env c).bind (fun _ h => h) fun _ c' h => ?_
  rw [meets_bind, meets_read, meets_bind, meets_change, meets_pure]
  have hvalues : c'.values = c.values := h.values.trans (append_nil _)
  refine ⟨by rw [hvalues], h.entries, by rw [hvalues], h.resources, h.released, h.destroyed⟩

lemma meets_reserveNodes (env : Env) (n : ℕ) (c : CacheHeap K V) :
    (reserveNodes env n).Meets c (fun _ => Kept c [] [] []) (Kept c [] [] []) := by
  induction n generalizing c with
  | zero => exact .refl c
  | succ n ih =>
    refine (meets_acquireDeferNode env c).bind (fun _ h => h) fun _ c' h => ?_
    exact (ih c').mono (fun _ _ h' => h.trans h') fun _ h' => h.trans h'

lemma meets_prepareUpdates (env : Env) {made : List V} (updates : List (K × V)) (h : Kept c made [] [] c') :
    (prepareUpdates env (List.range' c.values.length made.length) updates).Meets c'
      (fun prepared c'' => prepared = List.range' c.values.length (made.length + updates.length) ∧
        Kept c (made ++ updates.map Prod.snd) [] [] c'') (Undone c) := by
  induction updates generalizing made c' with
  | nil =>
    refine ⟨rfl, ?_⟩
    rw [map_nil, append_nil]
    exact h
  | cons update updates ih =>
    rw [prepareUpdates, meets_bind, meets_onError]
    refine (meets_initEntry env update.2 c').mono (fun entry c'' hentry => ?_) fun c'' hfailed => ?_
    · obtain ⟨rfl, hmade⟩ := hentry
      have hnext := h.trans hmade
      have hrange : List.range' c.values.length made.length ++ [c'.values.length] =
          List.range' c.values.length (made ++ [update.2]).length := by
        rw [h.values, length_append, length_append, length_singleton, List.range'_concat, Nat.one_mul]
      rw [hrange]
      refine (ih hnext).mono (fun prepared c'' hprepared => ?_) fun _ hundone => hundone
      obtain ⟨rfl, hkept⟩ := hprepared
      rw [append_assoc] at hkept
      refine ⟨?_, hkept⟩
      rw [length_append, length_singleton, length_cons, Nat.add_right_comm]
      rfl
    · have hkept := h.trans hfailed
      rw [append_nil] at hkept
      exact hkept.destroy le_rfl

lemma meets_swapIn (env : Env) (plan : CachePlan K V) (h : Kept c plan.created [] [] c')
    {replaced : Option ℕ} (hdropped : plan.dropped = replaced.toList.map .entry)
    (hsuperseded : plan.superseded = []) :
    (swapIn env plan.entries replaced).Meets c' (fun _ => Swapped c plan) fun _ => False := by
  have hentry (c₀ : CacheHeap K V) : (deferReplaced env replaced).Meets c₀
      (fun _ => Kept c₀ [] plan.dropped []) fun _ => False := by
    rw [hdropped]
    cases replaced with
    | none => exact .refl c₀
    | some entry => exact meets_internalDefer env (.entry entry) c₀
  rw [swapIn, meets_bind, meets_read, meets_bind, meets_change]
  refine (hentry _).bind (fun _ h => h) fun _ c₁ h₁ => ?_
  refine (meets_internalDefer env _ c₁).bind (fun _ h => h) fun _ c₂ h₂ => ?_
  rw [meets_change]
  refine h.swapped (h₁.trans h₂) (fun e he => ?_) rfl rfl rfl ?_ rfl
  · exact (mem_append.mp he).resolve_right (by simp)
  · rw [hsuperseded, append_nil]

lemma swapIn_succeeds (env : Env) (new : List (K × ℕ)) (replaced : Option ℕ) :
    (swapIn env new replaced : Attempt (CacheHeap K V) Unit).Succeeds := by
  intro c
  let plan : CachePlan K V := ⟨new, [], [], replaced.toList.map .entry, false⟩
  exact (meets_swapIn env plan (.refl c) rfl rfl).mono (fun _ _ _ => trivial) fun _ h => h

lemma kept_foldl_deferNode (rs : List CacheResource) (c : CacheHeap K V) :
    Kept c [] rs [] (rs.foldl (fun c r => CacheHeap.deferNode r c) c) := by
  induction rs generalizing c with
  | nil => exact .refl c
  | cons r rs ih => exact (kept_deferNode c r).trans (ih _)

variable [DecidableEq K]

lemma meets_getOrPut (env : Env) (new : List (K × ℕ)) (key : K) (entry : ℕ) (c : CacheHeap K V) :
    (getOrPut env new key entry).Meets c
      (fun new' c' => new' = put eqKey key entry new ∧ Kept c [] [] [] c') (Kept c [] [] []) := by
  rw [getOrPut]
  by_cases hnew : (find eqKey key new).isNone
  · simp only [if_pos hnew]
    exact (meets_alloc env c).bind (fun _ h => h) fun _ _ h => ⟨rfl, h⟩
  · simp only [if_neg hnew]
    exact ⟨rfl, .refl c⟩

lemma meets_applyMutations (env : Env) (base : ℕ) (mutations : List (CacheMutation K V))
    (acc : List (K × ℕ) × List (K × V)) (c : CacheHeap K V) :
    (applyMutations env acc.1 mutations
      (List.range' (base + acc.2.length) (updatesOf mutations).length)).Meets c
      (fun new c' => new = (mutations.foldl (CacheMutation.apply base) acc).1 ∧ Kept c [] [] [] c')
      (Kept c [] [] []) := by
  induction mutations generalizing acc c with
  | nil => exact ⟨rfl, .refl c⟩
  | cons m mutations ih =>
    cases m with
    | update key data =>
      have hrange : List.range' (base + acc.2.length) (updatesOf (.update key data :: mutations)).length =
          (base + acc.2.length) ::
            List.range' (base + (acc.2 ++ [(key, data)]).length) (updatesOf mutations).length := by
        rw [length_append, length_singleton, ← Nat.add_assoc]
        exact List.range'_succ
      rw [hrange, applyMutations]
      refine (meets_getOrPut env acc.1 key _ c).bind (fun _ h => h) fun new c' h => ?_
      obtain ⟨rfl, hkept⟩ := h
      exact (ih (CacheMutation.apply base acc (.update key data)) c').mono
        (fun _ _ h' => ⟨h'.1, hkept.trans h'.2⟩) fun _ h' => hkept.trans h'
    | evict key => exact ih (CacheMutation.apply base acc (.evict key)) c

def updatePlan (old : List (K × ℕ)) (base : ℕ) (key : K) (data : V) : CachePlan K V :=
  { entries := put eqKey key base old, created := [data],
    dropped := (find eqKey key old).toList.map .entry }

def evictPlan (old : List (K × ℕ)) (key : K) (entry : ℕ) : CachePlan K V :=
  { entries := remove eqKey key old, created := [], dropped := [.entry entry] }

lemma meets_update (env : Env) (key : K) (data : V) (c : CacheHeap K V) : (update env key data).Meets c
    (fun _ => Swapped c (updatePlan c.entries c.values.length key data)) (Undone c) := by
  refine (meets_cloneEntries env c).bind (fun _ h => h.undone) fun old c₁ h₁ => ?_
  obtain ⟨rfl, hcloned⟩ := h₁
  refine (meets_initEntry env data c₁).bind (fun _ h => (hcloned.trans h).undone) fun entry c₂ h₂ => ?_
  obtain ⟨rfl, hmade⟩ := h₂
  have hkept := hcloned.trans hmade
  have hlength : c₁.values.length = c.values.length := by rw [hcloned.values, append_nil]
  rw [meets_bind, meets_onError, hlength]
  refine (meets_getOrPut env c.entries key c.values.length c₂).mono (fun new c₃ h₃ => ?_) fun c₃ h₃ => ?_
  · obtain ⟨rfl, hput⟩ := h₃
    exact (meets_swapIn env (updatePlan c.entries c.values.length key data) (hkept.trans hput) rfl
      rfl).mono (fun _ _ h => h) nofun
  · exact (hkept.trans h₃).destroy le_rfl

lemma meets_evict (env : Env) (key : K) (c : CacheHeap K V) :
    (evict env key).Meets c (fun _ c' =>
      (find eqKey key c.entries = none ∧ c' = c) ∨
      ∃ entry, find eqKey key c.entries = some entry ∧ Swapped c (evictPlan c.entries key entry) c')
      (Undone c) := by
  rw [evict, meets_bind, meets_read]
  cases hfind : find eqKey key c.entries with
  | none => exact .inl ⟨rfl, rfl⟩
  | some entry =>
    refine (meets_cloneEntries env c).bind (fun _ h => h.undone) fun old c₁ h₁ => ?_
    obtain ⟨rfl, hcloned⟩ := h₁
    refine (meets_swapIn env (evictPlan c.entries key entry) hcloned rfl rfl).bind nofun fun _ c₂ h₂ => ?_
    exact .inr ⟨entry, rfl, h₂⟩

lemma foldl_apply_snd (base : ℕ) (mutations : List (CacheMutation K V)) (acc : List (K × ℕ) × List (K × V)) :
    (mutations.foldl (CacheMutation.apply base) acc).2 = acc.2 ++ updatesOf mutations := by
  induction mutations generalizing acc with
  | nil => exact (append_nil _).symm
  | cons m mutations ih =>
    rw [foldl_cons, ih]
    cases m with
    | update key data => exact append_assoc ..
    | evict key => rfl

def batchPlan (old : List (K × ℕ)) (base : ℕ) (mutations : List (CacheMutation K V)) : CachePlan K V :=
  let new := mutations.foldl (CacheMutation.apply base) (old, [])
  { entries := new.1
    created := new.2.map Prod.snd
    superseded := (new.2.zipIdx base).filterMap fun e =>
      if find eqKey e.1.1 new.1 = some e.2 then none else some e.2
    dropped := droppedEntries old new.1
    reserved := true }

lemma meets_swapBatch (env : Env) (mutations : List (CacheMutation K V))
    (h : Kept c ((updatesOf mutations).map Prod.snd) [] [] c') :
    (swapBatch env mutations (List.range' c.values.length (updatesOf mutations).length)).Meets c'
      (fun _ => Swapped c (batchPlan c.entries c.values.length mutations))
      (Kept c ((updatesOf mutations).map Prod.snd) [] []) := by
  have hupdates : (mutations.foldl (CacheMutation.apply c.values.length) (c.entries, [])).2 =
      updatesOf mutations := foldl_apply_snd c.values.length mutations (c.entries, [])
  have hkeeps {c₁ c₂ : CacheHeap K V} (h₁ : Kept c ((updatesOf mutations).map Prod.snd) [] [] c₁)
      (h₂ : Kept c₁ [] [] [] c₂) : Kept c ((updatesOf mutations).map Prod.snd) [] [] c₂ := by
    have htrans := h₁.trans h₂
    rwa [append_nil] at htrans
  refine (meets_cloneEntries env c').bind (fun _ h₁ => hkeeps h h₁) fun old c₁ h₁ => ?_
  obtain ⟨rfl, hcloned⟩ := h₁
  have hmutations := meets_applyMutations env c.values.length mutations (c'.entries, []) c₁
  refine hmutations.bind (fun _ h₂ => hkeeps (hkeeps h hcloned) h₂) fun new c₂ h₂ => ?_
  obtain ⟨rfl, happlied⟩ := h₂
  rw [h.entries]
  generalize hnew : (mutations.foldl (CacheMutation.apply c.values.length) (c.entries, [])).1 = new
  have hkept := hkeeps (hkeeps h hcloned) happlied
  refine (meets_alloc env c₂).bind (fun _ h₃ => hkeeps hkept h₃) fun _ c₃ h₃ => ?_
  refine (meets_reserveNodes env _ c₃).bind (fun _ h₄ => hkeeps (hkeeps hkept h₃) h₄) fun _ c₄ h₄ => ?_
  rw [meets_change]
  have hready := hkeeps (hkeeps hkept h₃) h₄
  have hcreated : (batchPlan c.entries c.values.length mutations).created =
      (updatesOf mutations).map Prod.snd := congrArg (List.map Prod.snd) hupdates
  have hentries : (batchPlan c.entries c.values.length mutations).entries = new := hnew
  have hdropped : (batchPlan c.entries c.values.length mutations).dropped =
      droppedEntries c.entries new := congrArg (droppedEntries c.entries) hnew
  have hafter : Kept { c₄ with
        entries := (batchPlan c.entries c.values.length mutations).entries, map := c₄.map + 1 } []
      (droppedEntries c.entries new ++ [.map c₄.map]) []
      (CacheHeap.deferNode (.map c₄.map) ((droppedEntries c.entries new).foldl
        (fun c r => CacheHeap.deferNode r c) { c₄ with entries := new, map := c₄.map + 1 })) := by
    rw [hentries]
    exact (kept_foldl_deferNode _ _).trans (kept_deferNode _ (.map c₄.map))
  rw [← hcreated] at hready
  refine hready.swapped hafter (fun e he => ?_) rfl rfl rfl ?_ rfl
  · rw [hdropped]
    exact (mem_append.mp he).resolve_right (by simp)
  · have hsuperseded : superseded (updatesOf mutations)
        (List.range' c.values.length (updatesOf mutations).length) new =
        (batchPlan c.entries c.values.length mutations).superseded := by
      rw [superseded, batchPlan, hupdates, hnew, zipIdx_eq_zip_range']
    rw [← hsuperseded]
    rfl

lemma meets_applyBatch_swap (env : Env) (mutations : List (CacheMutation K V))
    (hlength : 2 ≤ mutations.length) (c : CacheHeap K V) :
    (applyBatch env mutations).Meets c (fun _ c' =>
      (mutations.any (fun m => m.changes c.entries) = false ∧ Undone c c') ∨
      Swapped c (batchPlan c.entries c.values.length mutations) c') (Undone c) := by
  obtain ⟨m, m', rest, rfl⟩ : ∃ m m' rest, mutations = m :: m' :: rest := by
    match mutations, hlength with
    | m :: m' :: rest, _ => exact ⟨m, m', rest, rfl⟩
  generalize hmutations : m :: m' :: rest = mutations
  have hbatch : applyBatch env mutations = (do
      alloc env
      let prepared ← prepareUpdates env [] (updatesOf mutations)
      let c ← read
      if mutations.any fun m => m.changes c.entries then
        (swapBatch env mutations prepared).onError (CacheHeap.destroy prepared)) := by
    rw [← hmutations]
    cases m <;> rfl
  rw [hbatch]
  refine (meets_alloc env c).bind (fun _ h => h.undone) fun _ c₁ h₁ => ?_
  refine (meets_prepareUpdates env (updatesOf mutations) h₁).bind (fun _ h => h) fun prepared c₂ h₂ => ?_
  obtain ⟨rfl, hmade⟩ := h₂
  rw [nil_append] at hmade
  rw [length_nil, Nat.zero_add, meets_bind, meets_read, hmade.entries]
  by_cases hchanges : mutations.any fun m => m.changes c.entries
  · rw [if_pos hchanges, meets_onError]
    refine (meets_swapBatch env mutations hmade).mono (fun _ _ h => .inr h) fun c₃ h₃ => ?_
    exact h₃.destroy (by rw [length_map])
  · rw [if_neg hchanges]
    exact .inl ⟨Bool.not_eq_true _ ▸ hchanges, hmade.undone⟩

end Steps
section Invariant

variable {K V : Type} [DecidableEq K] {c c' : CacheHeap K V} {plan : CachePlan K V} {wanted : K → Option V}

/-- The entries in the map are its own and still in use, and everything else is about entries that were
made. -/
structure CacheHeap.Sound (c : CacheHeap K V) : Prop where
  proper : Proper c.entries c.values.length
  live : ∀ {k e}, find eqKey k c.entries = some e → e ∉ c.released ∧ e ∉ c.destroyed ∧ .entry e ∉ c.resources
  resources : ∀ e, .entry e ∈ c.resources → e < c.values.length
  released : ∀ e ∈ c.released, e < c.values.length
  destroyed : ∀ e ∈ c.destroyed, e < c.values.length

lemma sound_empty : ({} : CacheHeap K V).Sound :=
  ⟨⟨.nil, nofun, nofun⟩, nofun, nofun, nofun, nofun⟩

lemma Undone.released (h : Undone c c') (hc : c.Sound) : ∀ e ∈ c'.released, e < c.values.length := by
  obtain ⟨made, discarded, hkept, -⟩ := h
  intro e he
  rcases hkept.released e he with he | he | he
  · exact hc.released e he
  · exact hc.resources e he
  · cases he

lemma Undone.sound (h : Undone c c') (hc : c.Sound) : c'.Sound := by
  have hreleased := h.released hc
  obtain ⟨made, discarded, hkept, hdiscarded⟩ := h
  have hmade : c'.values.length = c.values.length + made.length := by
    rw [hkept.values, length_append]
  refine ⟨?_, fun {k e} hk => ?_, fun e he => ?_, fun e he => ?_, fun e he => ?_⟩
  · rw [hkept.entries]
    exact ⟨hc.proper.distinct, hc.proper.injective, fun hk => by
      have := hc.proper.made hk
      omega⟩
  · rw [hkept.entries] at hk
    obtain ⟨hnotReleased, hnotDestroyed, hnotDeferred⟩ := hc.live hk
    refine ⟨fun he => ?_, fun he => ?_, fun he => ?_⟩
    · rcases hkept.released e he with he | he | he
      · exact hnotReleased he
      · exact hnotDeferred he
      · cases he
    · rw [hkept.destroyed] at he
      rcases mem_append.mp he with he | he
      · exact hnotDestroyed he
      · exact absurd (hc.proper.made hk) (Nat.not_lt.mpr (hdiscarded e he).1)
    · exact hnotDeferred ((hkept.resources _ he).resolve_right nofun)
  · have := hc.resources e ((hkept.resources _ he).resolve_right nofun)
    omega
  · have := hreleased e he
    omega
  · rw [hkept.destroyed] at he
    rcases mem_append.mp he with he | he
    · have := hc.destroyed e he
      omega
    · have := (hdiscarded e he).2
      omega

lemma Undone.contents (h : Undone c c') (hc : c.Sound) : c'.contents = c.contents := by
  obtain ⟨made, discarded, hkept, -⟩ := h
  funext k
  rw [CacheHeap.contents, CacheHeap.contents, CachePlan.lookup, CachePlan.lookup, hkept.entries, hkept.values]
  exact Option.bind_congr fun e he => hc.proper.getElem?_append made he

lemma Swapped.sound (h : Swapped c plan c') (hc : c.Sound)
    (hplan : plan.Sound c.entries c.values wanted) : c'.Sound ∧ c'.contents = wanted := by
  have hmade : c'.values.length = c.values.length + plan.created.length := by
    rw [h.values, length_append]
  have hdropped {e : ℕ} (he : .entry e ∈ plan.dropped) : e < c.values.length := by
    obtain ⟨k, hk, -⟩ := hplan.dropped.mp he
    exact hc.proper.made hk
  refine ⟨⟨?_, fun {k e} hk => ?_, fun e he => ?_, fun e he => ?_, fun e he => ?_⟩, ?_⟩
  · rw [h.entries, hmade]
    exact hplan.proper
  · rw [h.entries] at hk
    have hnotDropped : .entry e ∉ plan.dropped := by
      intro he
      obtain ⟨k', hk', hnew⟩ := hplan.dropped.mp he
      rcases hplan.origin hk with hold | hold
      · exact hnew (hc.proper.injective hold hk' ▸ hk)
      · exact absurd (hc.proper.made hk') (Nat.not_lt.mpr hold)
    have hold : e ∉ c.released ∧ e ∉ c.destroyed ∧ .entry e ∉ c.resources := by
      rcases hplan.origin hk with hold | hold
      · exact hc.live hold
      · exact ⟨fun he => absurd (hc.released e he) (Nat.not_lt.mpr hold),
          fun he => absurd (hc.destroyed e he) (Nat.not_lt.mpr hold),
          fun he => absurd (hc.resources e he) (Nat.not_lt.mpr hold)⟩
    refine ⟨fun he => ?_, fun he => ?_, fun he => ?_⟩
    · rcases h.released e he with he | he | he | he
      · exact hold.1 he
      · exact hold.2.2 he
      · exact hnotDropped he
      · exact (hplan.superseded e he).2.2 k hk
    · exact hold.2.1 (h.destroyed ▸ he)
    · exact (h.resources e he).elim hold.2.2 hnotDropped
  · have := (h.resources e he).elim (hc.resources e) hdropped
    omega
  · rcases h.released e he with he | he | he | he
    · have := hc.released e he
      omega
    · have := hc.resources e he
      omega
    · have := hdropped he
      omega
    · have := (hplan.superseded e he).2.1
      omega
  · have := hc.destroyed e (h.destroyed ▸ he)
    omega
  · rw [CacheHeap.contents, h.entries, h.values]
    exact hplan.contents

lemma run_unchanged {mutations : List (CacheMutation K V)}
    (h : mutations.any (fun m => m.changes c.entries) = false) :
    mutations.foldl CacheMutation.run c.contents = c.contents := by
  induction mutations with
  | nil => rfl
  | cons m mutations ih =>
    obtain ⟨hm, hrest⟩ := Bool.or_eq_false_iff.mp h
    cases m with
    | update key data => cases hm
    | evict key =>
      have habsent : c.contents key = none := by
        rw [CacheHeap.contents, CachePlan.lookup, Option.isSome_eq_false_iff.mp hm |> Option.isNone_iff_eq_none.mp]
        rfl
      have hsame : CacheMutation.run c.contents (.evict key) = c.contents := by
        rw [CacheMutation.run, ← habsent, Function.update_eq_self]
      rw [foldl_cons, hsame]
      exact ih hrest

lemma update_contents (hc : c.Sound) (env : Env) (key : K) (data : V) :
    (update env key data).Meets c (fun _ c' => c'.Sound ∧
      c'.contents = CacheMutation.run c.contents (.update key data)) (Undone c) :=
  (meets_update env key data c).mono
    (fun _ _ h => h.sound hc (sound_update hc.proper key data)) fun _ h => h

lemma evict_contents (hc : c.Sound) (env : Env) (key : K) :
    (evict env key).Meets c (fun _ c' => c'.Sound ∧
      c'.contents = CacheMutation.run c.contents (.evict key)) (Undone c) := by
  refine (meets_evict env key c).mono (fun _ c' h => ?_) fun _ h => h
  rcases h with ⟨hnone, rfl⟩ | ⟨entry, hentry, hswapped⟩
  · have hchanges : [CacheMutation.evict (V := V) key].any (fun m => m.changes c'.entries) = false := by
      simp [CacheMutation.changes, hnone]
    exact ⟨hc, (run_unchanged hchanges).symm⟩
  · exact hswapped.sound hc (sound_evict hc.proper hentry)

lemma applyBatch_contents (hc : c.Sound) (env : Env) (mutations : List (CacheMutation K V)) :
    (applyBatch env mutations).Meets c (fun _ c' => c'.Sound ∧
      c'.contents = mutations.foldl CacheMutation.run c.contents) (Undone c) := by
  match mutations with
  | [] => exact ⟨hc, rfl⟩
  | [.update key data] => exact update_contents hc env key data
  | [.evict key] => exact (evict_contents hc env key).bind (fun _ h => h) fun _ _ h => h
  | m :: m' :: rest =>
    refine (meets_applyBatch_swap env (m :: m' :: rest) (by simp) c).mono (fun _ c' h => ?_) fun _ h => h
    rcases h with ⟨hnone, hundone⟩ | hswapped
    · exact ⟨hundone.sound hc, (hundone.contents hc).trans (run_unchanged hnone).symm⟩
    · exact hswapped.sound hc (sound_applyBatch hc.proper (m :: m' :: rest))

lemma applyEach_contents (hc : c.Sound) (env : Env) (mutations : List (CacheMutation K V)) :
    (applyEach env mutations).Meets c (fun _ c' => c'.contents =
      mutations.foldl CacheMutation.run c.contents) fun _ => True := by
  induction mutations generalizing c with
  | nil => exact rfl
  | cons m mutations ih =>
    cases m with
    | update key data =>
      refine (update_contents hc env key data).bind (fun _ _ => trivial) fun _ c' h => ?_
      rw [foldl_cons, ← h.2]
      exact ih h.1
    | evict key =>
      refine (evict_contents hc env key).bind (fun _ _ => trivial) fun _ c' h => ?_
      rw [foldl_cons, ← h.2]
      exact ih h.1

end Invariant

section NoFailure

variable {K V : Type} {env : Env} (h : ∀ n, env.fails n = false)

include h

lemma alloc_succeeds : (alloc env : Attempt (CacheHeap K V) Unit).Succeeds := by
  intro c
  unfold Meets alloc
  rw [h]
  exact trivial

lemma cloneEntries_succeeds : (cloneEntries env : Attempt (CacheHeap K V) (List (K × ℕ))).Succeeds :=
  (alloc_succeeds h).bind fun _ => (alloc_succeeds h).bind fun _ _ => trivial

lemma initEntry_succeeds (data : V) : (initEntry env data : Attempt (CacheHeap K V) ℕ).Succeeds :=
  (alloc_succeeds h).bind fun _ _ => trivial

lemma prepareUpdates_succeeds (updates : List (K × V)) (prepared : List ℕ) :
    (prepareUpdates env prepared updates : Attempt (CacheHeap K V) (List ℕ)).Succeeds := by
  induction updates generalizing prepared with
  | nil => exact .pure prepared
  | cons update updates ih => exact ((initEntry_succeeds h update.2).onError _).bind fun _ => ih _

lemma reserveNodes_succeeds (n : ℕ) : (reserveNodes env n : Attempt (CacheHeap K V) Unit).Succeeds := by
  induction n with
  | zero => exact .pure ()
  | succ n ih => exact ((alloc_succeeds h).orTry _).bind fun _ => ih

variable [DecidableEq K]

lemma getOrPut_succeeds (new : List (K × ℕ)) (key : K) (entry : ℕ) :
    (getOrPut env new key entry : Attempt (CacheHeap K V) (List (K × ℕ))).Succeeds := by
  rw [getOrPut]
  by_cases hnew : (find eqKey key new).isNone
  · simp only [if_pos hnew]
    exact (alloc_succeeds h).bind fun _ => .pure _
  · simp only [if_neg hnew]
    exact .pure _

lemma update_succeeds (key : K) (data : V) : (update env key data).Succeeds :=
  (cloneEntries_succeeds h).bind fun old => (initEntry_succeeds h data).bind fun entry =>
    ((getOrPut_succeeds h old key entry).onError _).bind fun new => swapIn_succeeds env new _

lemma evict_succeeds (key : K) : (evict env key : Attempt (CacheHeap K V) Bool).Succeeds := by
  intro c
  rw [evict, meets_bind, meets_read]
  cases find eqKey key c.entries with
  | none => exact trivial
  | some entry =>
    exact (cloneEntries_succeeds h).bind (fun old => (swapIn_succeeds env _ _).bind fun _ => .pure _) c

lemma applyEach_succeeds (mutations : List (CacheMutation K V)) : (applyEach env mutations).Succeeds := by
  induction mutations with
  | nil => exact .pure ()
  | cons m mutations ih =>
    cases m with
    | update key data => exact (update_succeeds h key data).bind fun _ => ih
    | evict key => exact (evict_succeeds h key).bind fun _ => ih

lemma applyMutations_succeeds (mutations : List (CacheMutation K V)) (new : List (K × ℕ)) (prepared : List ℕ) :
    (applyMutations env new mutations prepared : Attempt (CacheHeap K V) (List (K × ℕ))).Succeeds := by
  induction mutations generalizing new prepared with
  | nil => exact .pure new
  | cons m mutations ih =>
    cases m with
    | evict key => exact ih _ prepared
    | update key data =>
      cases prepared with
      | nil => exact .pure new
      | cons entry prepared => exact (getOrPut_succeeds h new key entry).bind fun _ => ih _ prepared

lemma swapBatch_succeeds (mutations : List (CacheMutation K V)) (prepared : List ℕ) :
    (swapBatch env mutations prepared).Succeeds :=
  (cloneEntries_succeeds h).bind fun old => (applyMutations_succeeds h mutations old prepared).bind fun _ =>
    (alloc_succeeds h).bind fun _ => (reserveNodes_succeeds h _).bind fun _ _ => trivial

lemma applyBatch_succeeds (mutations : List (CacheMutation K V)) : (applyBatch env mutations).Succeeds := by
  have hmany (mutations : List (CacheMutation K V)) : (do
      alloc env
      let prepared ← prepareUpdates env [] (updatesOf mutations)
      let c ← read
      if mutations.any fun m => m.changes c.entries then
        (swapBatch env mutations prepared).onError (CacheHeap.destroy prepared)).Succeeds := by
    refine (alloc_succeeds h).bind fun _ => (prepareUpdates_succeeds h _ []).bind fun prepared c => ?_
    rw [meets_bind, meets_read]
    split_ifs
    · exact (swapBatch_succeeds h mutations prepared).onError _ c
    · exact trivial
  cases mutations with
  | nil => exact .pure ()
  | cons m rest =>
    cases rest with
    | nil =>
      cases m with
      | update key data => exact update_succeeds h key data
      | evict key => exact (evict_succeeds h key).bind fun _ => .pure ()
    | cons _ _ => cases m <;> exact hmany _

end NoFailure

section Batches

variable {K V : Type} [DecidableEq K] {c : CacheHeap K V}

/-- A batch that succeeds leaves the contents that its mutations leave one after the other, whatever
allocations fail in either as long as both succeed, and without failures they do. A batch that fails
leaves the contents as they were, and no entry made for it is in the map or released with its data. -/
theorem applyBatch_eq_applyEach (hc : c.Sound) (env env' : Env) (mutations : List (CacheMutation K V)) :
    (∀ c', applyBatch env mutations c = (some (), c') → c'.Sound ∧
      (∀ c'', applyEach env' mutations c = (some (), c'') → c'.contents = c''.contents) ∧
      ((∀ n, env'.fails n = false) → ∃ c'', applyEach env' mutations c = (some (), c''))) ∧
    ((∀ n, env.fails n = false) → ∃ c', applyBatch env mutations c = (some (), c')) ∧
    ∀ c', applyBatch env mutations c = (none, c') → c'.Sound ∧ c'.contents = c.contents ∧
      ∀ e, c.values.length ≤ e → (∀ k, find eqKey k c'.entries ≠ some e) ∧ e ∉ c'.released := by
  have hbatch := applyBatch_contents hc env mutations
  have heach := applyEach_contents hc env' mutations
  refine ⟨fun c' hrun => ?_, fun hnone => ?_, fun c' hrun => ?_⟩
  · obtain ⟨hsound, hcontents⟩ := hbatch.of_eq hrun
    refine ⟨hsound, fun c'' hrun' => hcontents.trans (heach.of_eq hrun').symm, fun hnone => ?_⟩
    obtain ⟨⟨⟩, c'', hrun'⟩ := (applyEach_succeeds hnone mutations).exists_eq c
    exact ⟨c'', hrun'⟩
  · obtain ⟨⟨⟩, c', hrun⟩ := (applyBatch_succeeds hnone mutations).exists_eq c
    exact ⟨c', hrun⟩
  · have hundone := hbatch.of_none hrun
    refine ⟨hundone.sound hc, hundone.contents hc, fun e he => ⟨fun k hk => ?_, fun hmem => ?_⟩⟩
    · rw [hundone.entries] at hk
      exact absurd (hc.proper.made hk) (Nat.not_lt.mpr he)
    · exact absurd (hundone.released hc e hmem) (Nat.not_lt.mpr he)

/-- A batch that updates a key twice. -/
theorem applyBatch_eq_applyEach_twice : ∃ c' c'' : CacheHeap ℕ ℕ,
    applyBatch ⟨fun _ => false, fun _ => 0⟩ [.update 1 5, .update 1 7] {} = (some (), c') ∧
    applyEach ⟨fun _ => false, fun _ => 0⟩ [.update 1 5, .update 1 7] {} = (some (), c'') ∧
    c'.contents = c''.contents := by
  obtain ⟨hruns, hsucceeds, -⟩ := applyBatch_eq_applyEach sound_empty ⟨fun _ => false, fun _ => 0⟩
    ⟨fun _ => false, fun _ => 0⟩ [.update 1 5, .update 1 7]
  obtain ⟨c', hrun⟩ := hsucceeds fun _ => rfl
  obtain ⟨-, hsame, hruns'⟩ := hruns c' hrun
  obtain ⟨c'', hrun'⟩ := hruns' fun _ => rfl
  exact ⟨c', c'', hrun, hrun', hsame c'' hrun'⟩

end Batches
end CacheBatches
end ZyncBase
