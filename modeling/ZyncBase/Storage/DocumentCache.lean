import ZyncBase.Storage.Transaction

/-! The document cache: entries that readers see only while the cache is readable, and how the
worker applies a batch of mutations to it when memory may run out at any allocation. -/
namespace ZyncBase

open AssocMap

structure DocumentCache where
  entries : List (DocumentCacheKey × Record) := []
  readable : Bool := true

/-- The allocations that fail while a batch is applied: of the clear that recovers an unreadable
cache, of the batch itself, of the eviction of each key and of the clear after a failed eviction. -/
structure CacheFaults where
  recover : Bool := false
  applyBatch : Bool := false
  evict : ℕ → Bool := fun _ => false
  clear : Bool := false

def CacheOp.key : CacheOp → DocumentCacheKey
  | .update key _ => key
  | .evict key => key

namespace DocumentCache

def visible (c : DocumentCache) : List (DocumentCacheKey × Record) :=
  if c.readable then c.entries else []

def get (c : DocumentCache) (key : DocumentCacheKey) : Option Record := find eqKey key c.visible

def contains (c : DocumentCache) (key : DocumentCacheKey) : Bool :=
  (find eqKey key c.entries).isSome

def invalidate (c : DocumentCache) : DocumentCache := { c with readable := false }

def setReadable (c : DocumentCache) : DocumentCache := { c with readable := true }

/-- Remove all entries and restore readability. An empty map is kept, without an allocation. -/
def clear (fails : Bool) (c : DocumentCache) : Option DocumentCache :=
  if fails && !c.entries.isEmpty then none else some {}

/-- Evictions of keys that are not there allocate nothing. -/
def unaffected (c : DocumentCache) : CacheOp → Bool
  | .update _ _ => false
  | .evict key => !c.contains key

def applyBatch (fails : Bool) (mutations : List CacheOp) (c : DocumentCache) : Option DocumentCache :=
  if mutations.all c.unaffected then some c
  else if fails then none
  else some { c with entries := mutations.foldl applyMutation c.entries }

def evict (fails : Bool) (key : DocumentCacheKey) (c : DocumentCache) : Option DocumentCache :=
  if c.contains key then
    if fails then none else some { c with entries := remove eqKey key c.entries }
  else some c

/-- Evict the keys in turn, up to the first failure. -/
def evictAll (fails : ℕ → Bool) : ℕ → List CacheOp → DocumentCache → DocumentCache × Bool
  | _, [], c => (c, true)
  | i, op :: ops, c =>
    match c.evict (fails i) op.key with
    | none => (c, false)
    | some c => evictAll fails (i + 1) ops c

/-- An unreadable cache is cleared first, and stays unreadable when that fails. -/
def recover (f : CacheFaults) (c : DocumentCache) : DocumentCache × Bool :=
  if c.readable then (c, true)
  else match c.clear f.recover with
    | some c => (c, true)
    | none => (c, false)

/-- A batch that cannot be applied is replaced by the eviction of its keys, while nothing is
readable, and an eviction that fails by a clear. -/
def evictBatch (f : CacheFaults) (mutations : List CacheOp) (recovered : Bool) (c : DocumentCache) :
    DocumentCache :=
  match evictAll f.evict 0 mutations c.invalidate with
  | (c, true) => if recovered then c.setReadable else c
  | (c, false) => (c.clear f.clear).getD c

def applyDocumentCache (f : CacheFaults) (mutations : List CacheOp) (c : DocumentCache) :
    DocumentCache :=
  match (c.recover f).1.applyBatch f.applyBatch mutations with
  | some c => c
  | none => evictBatch f mutations (c.recover f).2 (c.recover f).1

end DocumentCache

section Mutations

variable {ops : List CacheOp} {entries : List (DocumentCacheKey × Record)} {key : DocumentCacheKey}

lemma find_applyMutation (op : CacheOp) : find eqKey key (applyMutation entries op) =
    if op.key = key then (match op with | .update _ data => some data | .evict _ => none)
    else find eqKey key entries := by
  cases op with
  | update key' data =>
    rw [applyMutation, find_put]
    by_cases h : key' = key
    · simp [CacheOp.key, h]
    · simp [CacheOp.key, h]
  | evict key' =>
    rw [applyMutation, find_remove]
    by_cases h : key' = key
    · simp [CacheOp.key, h]
    · simp [CacheOp.key, h]

lemma find_foldl_of_not_mem (h : key ∉ ops.map CacheOp.key) :
    find eqKey key (ops.foldl applyMutation entries) = find eqKey key entries := by
  induction ops generalizing entries with
  | nil => rfl
  | cons op ops ih =>
    rw [List.map_cons, List.mem_cons, not_or] at h
    rw [List.foldl_cons, ih h.2, find_applyMutation, if_neg (Ne.symm h.1)]

end Mutations

variable {fails : Bool}

namespace DocumentCache

variable {f : CacheFaults} {ops : List CacheOp} {c c' : DocumentCache} {key : DocumentCacheKey}

@[simp] lemma get_of_readable (h : c.readable = true) : c.get key = find eqKey key c.entries := by
  rw [get, visible, if_pos h]

@[simp] lemma get_of_unreadable (h : c.readable = false) : c.get key = none := by
  rw [get, visible, if_neg (by simp [h])]
  rfl

lemma clear_eq_some (h : c.clear fails = some c') : c' = {} := by
  unfold clear at h
  split_ifs at h
  cases h
  rfl

lemma recover_spec : (c.recover f).1.visible = c.visible ∧ (c.recover f).1.readable = (c.recover f).2 := by
  unfold recover
  split_ifs with hr
  · exact ⟨rfl, hr⟩
  · cases hc : c.clear f.recover with
    | some c' =>
      obtain rfl := clear_eq_some hc
      exact ⟨by rw [visible, visible, if_neg hr]; rfl, rfl⟩
    | none =>
      rw [Bool.not_eq_true] at hr
      exact ⟨rfl, hr⟩

lemma find_foldl_of_unaffected {entries : List (DocumentCacheKey × Record)} (h : ops.all c.unaffected = true)
    (hsame : ∀ key, find eqKey key entries = find eqKey key c.entries) :
    find eqKey key (ops.foldl applyMutation entries) = find eqKey key c.entries := by
  induction ops generalizing entries with
  | nil => exact hsame key
  | cons op ops ih =>
    rw [List.all_cons, Bool.and_eq_true] at h
    refine ih h.2 fun k => ?_
    rw [find_applyMutation]
    cases op with
    | update k' data => cases h.1
    | evict k' =>
      by_cases hk : k' = k
      · subst hk
        have habsent : find eqKey k' c.entries = none := by
          simpa [unaffected, contains] using h.1
        rw [habsent, if_pos (by rfl)]
      · rw [if_neg (by exact hk), hsame]

lemma applyBatch_eq_some (h : c.applyBatch fails ops = some c') : c'.readable = c.readable ∧
    ∀ key, find eqKey key c'.entries = find eqKey key (ops.foldl applyMutation c.entries) := by
  unfold applyBatch at h
  split_ifs at h with hu
  · cases h
    exact ⟨rfl, fun key => (find_foldl_of_unaffected hu fun _ => rfl).symm⟩
  · cases h
    exact ⟨rfl, fun _ => rfl⟩

lemma evict_eq_some {k : DocumentCacheKey} (h : c.evict fails k = some c') (key : DocumentCacheKey) :
    c'.readable = c.readable ∧ find eqKey k c'.entries = none ∧
      (find eqKey key c'.entries = none ∨ find eqKey key c'.entries = find eqKey key c.entries) := by
  unfold evict at h
  split_ifs at h with hc
  · cases h
    rw [find_remove, find_remove]
    refine ⟨rfl, by simp, ?_⟩
    split_ifs
    · exact .inl rfl
    · exact .inr rfl
  · cases h
    exact ⟨rfl, by simpa [contains] using hc, .inr rfl⟩

lemma evictAll_spec {fails : ℕ → Bool} {i : ℕ} (h : evictAll fails i ops c = (c', true))
    (key : DocumentCacheKey) :
    c'.readable = c.readable ∧ (key ∈ ops.map CacheOp.key → find eqKey key c'.entries = none) ∧
      (find eqKey key c'.entries = none ∨ find eqKey key c'.entries = find eqKey key c.entries) := by
  induction ops generalizing i c with
  | nil =>
    cases h
    exact ⟨rfl, fun hk => absurd hk List.not_mem_nil, .inr rfl⟩
  | cons op ops ih =>
    rw [evictAll] at h
    cases he : c.evict (fails i) op.key with
    | none => simp [he] at h
    | some c₁ =>
      rw [he] at h
      obtain ⟨hread, hgone, hkept⟩ := ih h
      obtain ⟨hread₁, hgone₁, hkept₁⟩ := evict_eq_some he key
      refine ⟨hread.trans hread₁, fun hk => ?_, ?_⟩
      · rw [List.map_cons, List.mem_cons] at hk
        cases hk with
        | inl hk =>
          subst hk
          cases hkept with
          | inl hnone => exact hnone
          | inr hsame => rw [hsame, hgone₁]
        | inr hk => exact hgone hk
      · cases hkept with
        | inl hnone => exact .inl hnone
        | inr hsame => exact hkept₁.imp hsame.trans hsame.trans

lemma evictAll_readable {fails : ℕ → Bool} {i : ℕ} : (evictAll fails i ops c).1.readable = c.readable := by
  induction ops generalizing i c with
  | nil => rfl
  | cons op ops ih =>
    rw [evictAll]
    cases he : c.evict (fails i) op.key with
    | none => rfl
    | some c₁ =>
      change (evictAll fails (i + 1) ops c₁).1.readable = c.readable
      rw [ih, (evict_eq_some he op.key).1]

lemma get_clear (h : c.readable = false) : ((c.clear fails).getD c).get key = none := by
  cases hc : c.clear fails with
  | none => exact get_of_unreadable h
  | some c' =>
    rw [clear_eq_some hc]
    rfl

lemma get_evictBatch : (c.evictBatch f ops c.readable).get key = none ∨
    (c.evictBatch f ops c.readable).get key = find eqKey key (ops.foldl applyMutation c.visible) := by
  have hunread : (evictAll f.evict 0 ops c.invalidate).1.readable = false := evictAll_readable
  unfold evictBatch
  cases he : evictAll f.evict 0 ops c.invalidate with
  | mk c₁ evicted =>
    rw [he] at hunread
    cases evicted with
    | false => exact .inl (get_clear hunread)
    | true =>
      cases hr : c.readable with
      | false => exact .inl (get_of_unreadable hunread)
      | true =>
        obtain ⟨_, hgone, hkept⟩ := evictAll_spec he key
        change find eqKey key c₁.entries = none ∨ find eqKey key c₁.entries = _
        by_cases hk : key ∈ ops.map CacheOp.key
        · exact .inl (hgone hk)
        · rw [find_foldl_of_not_mem hk, visible, if_pos hr]
          exact hkept

/-- Whatever allocation fails, readers are afterwards served either nothing or what the mutations
make of what they were served before. -/
lemma get_applyDocumentCache (f : CacheFaults) (ops : List CacheOp) (c : DocumentCache)
    (key : DocumentCacheKey) : (c.applyDocumentCache f ops).get key = none ∨
      (c.applyDocumentCache f ops).get key = find eqKey key (ops.foldl applyMutation c.visible) := by
  obtain ⟨hvisible, hread⟩ := recover_spec (f := f) (c := c)
  unfold applyDocumentCache
  cases hb : (c.recover f).1.applyBatch f.applyBatch ops with
  | some c' =>
    obtain ⟨hsame, hfind⟩ := applyBatch_eq_some hb
    cases hr : (c.recover f).1.readable with
    | false => exact .inl (get_of_unreadable (hsame.trans hr))
    | true =>
      refine .inr ?_
      rw [← hvisible, visible, if_pos hr, ← hfind]
      exact get_of_readable (hsame.trans hr)
  | none =>
    rw [← hvisible, ← hread]
    exact get_evictBatch

end DocumentCache
end ZyncBase
