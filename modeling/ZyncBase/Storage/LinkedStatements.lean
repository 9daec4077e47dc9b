import Mathlib.Data.List.Nodup
import ZyncBase.Lib.AssocMap
import ZyncBase.Lib.Machine

/-! The entries of the cache of prepared statements, in the map and in the list of their last uses, where
allocations may fail, and the statements that are finalized. -/
namespace ZyncBase

open AssocMap Function List

structure CachedEntry where
  key : UInt64
  stmt : ℕ
  deriving DecidableEq, Repr

/-- The map and the list give the nodes of entries in memory. The most recently used one comes first. -/
structure LinkedStatements where
  cacheLimit : ℕ
  map : List (UInt64 × ℕ) := []
  list : List ℕ := []
  count : ℕ := 0
  entry : ℕ → CachedEntry := fun _ => ⟨0, 0⟩
  finalized : List ℕ := []

/-- The allocations of an insertion that fail. -/
structure PutFaults where
  create : Bool := false
  map : Bool := false

namespace LinkedStatements

/-- The entry leaves the list, its statement is finalized and its memory freed. -/
def destroy (c : LinkedStatements) (node : ℕ) : LinkedStatements :=
  { c with
    list := c.list.erase node
    finalized := c.finalized ++ [(c.entry node).stmt]
    count := c.count - 1 }

def get (c : LinkedStatements) (key : UInt64) : Option ℕ × LinkedStatements :=
  match find eqKey key c.map with
  | none => (none, c)
  | some node => (some (c.entry node).stmt, { c with list := node :: c.list.erase node })

/-- The old entry of the key goes. The map keeps the key. -/
def dropExisting (c : LinkedStatements) (key : UInt64) : LinkedStatements :=
  match find eqKey key c.map with
  | none => c
  | some node => c.destroy node

def discard (c : LinkedStatements) (node : ℕ) : LinkedStatements :=
  { c.destroy node with map := remove eqKey (c.entry node).key c.map }

/-- The least recently used entry goes when the cache is full. -/
def evict (c : LinkedStatements) : LinkedStatements :=
  if c.cacheLimit ≤ c.count then
    match c.list.getLast? with
    | none => c
    | some node => c.discard node
  else c

/-- The new entry is written at a node that the allocator gives. The map needs memory only for a key
that it does not have. -/
def put (faults : PutFaults) (c : LinkedStatements) (node : ℕ) (key : UInt64) (stmt : ℕ) :
    LinkedStatements :=
  let c := (c.dropExisting key).evict
  if faults.create then c
  else
    let c := { c with entry := Function.update c.entry node ⟨key, stmt⟩ }
    if faults.map && (find eqKey key c.map).isNone then c
    else
      { c with map := AssocMap.put eqKey key node c.map, list := node :: c.list, count := c.count + 1 }

end LinkedStatements

inductive CacheCall where
  | get (key : UInt64)
  | put (key : UInt64) (faults : PutFaults)

def CacheCall.key : CacheCall → UInt64
  | get key | put key _ => key

/-- The cache with the time of the last call for each key. What a call prepares and allocates has the
number of the call. -/
structure CacheHistory where
  cache : LinkedStatements
  now : ℕ := 0
  lastUse : UInt64 → ℕ := fun _ => 0

namespace CacheHistory

def step (s : CacheHistory) (call : CacheCall) : CacheHistory where
  cache := match call with
    | .get key => (s.cache.get key).2
    | .put key faults => s.cache.put faults s.now key s.now
  now := s.now + 1
  lastUse := Function.update s.lastUse call.key s.now

/-- The list has exactly the entries of the map, each once, in the order of their last uses, not more
than the limit, and none of their statements is finalized. -/
structure Tidy (s : CacheHistory) : Prop where
  nodup : s.cache.list.Nodup
  listed : ∀ key node, find eqKey key s.cache.map = some node ↔
    node ∈ s.cache.list ∧ (s.cache.entry node).key = key
  recent : s.cache.list.Pairwise fun a b =>
    s.lastUse (s.cache.entry b).key < s.lastUse (s.cache.entry a).key
  count : s.cache.count = s.cache.list.length
  fits : s.cache.list.length ≤ s.cache.cacheLimit
  live : ∀ node ∈ s.cache.list, (s.cache.entry node).stmt ∉ s.cache.finalized

/-- What a call finalizes: the statement that it replaces, or else the least recently used one of a full
cache. -/
def displaced (s : CacheHistory) : CacheCall → List ℕ
  | .get _ => []
  | .put key _ =>
    match find eqKey key s.cache.map with
    | some node => [(s.cache.entry node).stmt]
    | none =>
      if s.cache.list.length = s.cache.cacheLimit then
        (s.cache.list.getLast?.map fun node => (s.cache.entry node).stmt).toList
      else []

/-- The entry of a key that the map has is not replaced without memory for the new one. -/
def Provided (s : CacheHistory) : CacheCall → Prop
  | .get _ => True
  | .put key faults => faults.create = true → find eqKey key s.cache.map = none

/-- The numbers of the calls tell statements and nodes apart. -/
structure Numbered (s : CacheHistory) : Prop extends Tidy s where
  stmt_eq : ∀ node ∈ s.cache.list, (s.cache.entry node).stmt = node
  earlier : ∀ node ∈ s.cache.list, node < s.now ∧ s.lastUse (s.cache.entry node).key < s.now
  past : ∀ stmt ∈ s.cache.finalized, stmt < s.now

namespace Numbered

variable {s : CacheHistory} {key : UInt64} {node : ℕ}

lemma key_inj (h : s.Numbered) {a b : ℕ} (ha : a ∈ s.cache.list) (hb : b ∈ s.cache.list)
    (hkey : (s.cache.entry a).key = (s.cache.entry b).key) : a = b := by
  have hfound := (h.listed _ a).mpr ⟨ha, hkey⟩
  rw [(h.listed _ b).mpr ⟨hb, rfl⟩] at hfound
  exact (Option.some.inj hfound).symm

lemma discard (h : s.Numbered) (hn : node ∈ s.cache.list) :
    Numbered { s with cache := s.cache.discard node } := by
  have hmem {a : ℕ} : a ∈ s.cache.list.erase node ↔ a ≠ node ∧ a ∈ s.cache.list := h.nodup.mem_erase_iff
  refine
    { nodup := h.nodup.erase _
      listed := fun key a => ?_
      recent := h.recent.sublist erase_sublist
      count := ?_
      fits := Nat.le_trans (length_erase_le ..) h.fits
      live := fun a ha => ?_
      stmt_eq := fun a ha => h.stmt_eq a (hmem.mp ha).2
      earlier := fun a ha => h.earlier a (hmem.mp ha).2
      past := fun stmt hstmt => ?_ }
  · change find eqKey key (remove eqKey _ s.cache.map) = _ ↔ a ∈ s.cache.list.erase node ∧ (s.cache.entry a).key = key
    rw [find_remove_of, hmem]
    split_ifs with hkey
    · simp only [false_iff]
      rintro ⟨⟨hne, ha⟩, rfl⟩
      exact hne (h.key_inj ha hn hkey.symm)
    · rw [h.listed, and_assoc, iff_and_self]
      rintro ⟨-, rfl⟩ rfl
      exact hkey rfl
  · change s.cache.count - 1 = (s.cache.list.erase node).length
    rw [length_erase_of_mem hn, h.count]
  · obtain ⟨hne, ha⟩ := hmem.mp ha
    change (s.cache.entry a).stmt ∉ s.cache.finalized ++ [(s.cache.entry node).stmt]
    rw [mem_append, mem_singleton, not_or, h.stmt_eq a ha, h.stmt_eq node hn]
    exact ⟨h.stmt_eq a ha ▸ h.live a ha, hne⟩
  · rcases mem_append.mp hstmt with hold | hnew
    · exact h.past stmt hold
    · rw [mem_singleton.mp hnew, h.stmt_eq node hn]
      exact (h.earlier node hn).1

lemma insert (h : s.Numbered) (key : UInt64) (map : List (UInt64 × ℕ))
    (hnew : ∀ a ∈ s.cache.list, (s.cache.entry a).key ≠ key)
    (hroom : s.cache.list.length < s.cache.cacheLimit)
    (hmap : ∀ k, find eqKey k map = if key = k then some s.now else find eqKey k s.cache.map) :
    Numbered
      { cache := { s.cache with
          map := map
          list := s.now :: s.cache.list
          count := s.cache.count + 1
          entry := update s.cache.entry s.now ⟨key, s.now⟩ }
        now := s.now + 1
        lastUse := update s.lastUse key s.now } := by
  have hne {a : ℕ} (ha : a ∈ s.cache.list) : a ≠ s.now := Nat.ne_of_lt (h.earlier a ha).1
  have hentry {a : ℕ} (ha : a ∈ s.cache.list) : update s.cache.entry s.now ⟨key, s.now⟩ a = s.cache.entry a :=
    update_of_ne (hne ha) _ _
  have huse {a : ℕ} (ha : a ∈ s.cache.list) :
      update s.lastUse key s.now (s.cache.entry a).key = s.lastUse (s.cache.entry a).key :=
    update_of_ne (hnew a ha) _ _
  refine
    { nodup := nodup_cons.mpr ⟨fun ha => hne ha rfl, h.nodup⟩
      listed := fun k a => ?_
      recent := pairwise_cons.mpr ⟨fun a ha => ?_, h.recent.imp_of_mem fun {a b} ha hb hab => ?_⟩
      count := congrArg (· + 1) h.count
      fits := hroom
      live := fun a ha => ?_
      stmt_eq := fun a ha => ?_
      earlier := fun a ha => ?_
      past := fun stmt hstmt => Nat.lt_succ_of_lt (h.past stmt hstmt) }
  all_goals dsimp only at *
  · rw [hmap, mem_cons]
    by_cases ha : a = s.now
    · rw [ha, update_self]
      split_ifs with hkey
      · simp [hkey]
      · rw [h.listed]
        simp only [true_or, true_and, hkey, iff_false, not_and]
        exact fun hmem => absurd rfl (hne hmem)
    · rw [update_of_ne ha]
      split_ifs with hkey
      · simp only [Option.some.injEq, ha, false_or, Ne.symm ha, false_iff, not_and]
        exact fun hmem he => hnew a hmem (he.trans hkey.symm)
      · rw [h.listed, or_iff_right ha]
  · rw [hentry ha, huse ha, update_self, update_self]
    exact (h.earlier a ha).2
  · rw [hentry ha, hentry hb, huse ha, huse hb]
    exact hab
  · rcases mem_cons.mp ha with rfl | ha
    · rw [update_self]
      exact fun hmem => Nat.lt_irrefl _ (h.past _ hmem)
    · rw [hentry ha]
      exact h.live a ha
  · rcases mem_cons.mp ha with rfl | ha
    · rw [update_self]
    · rw [hentry ha]
      exact h.stmt_eq a ha
  · rcases mem_cons.mp ha with rfl | ha
    · rw [update_self, update_self]
      exact ⟨Nat.lt_succ_self _, Nat.lt_succ_self _⟩
    · rw [hentry ha, huse ha]
      exact ⟨Nat.lt_succ_of_lt (h.earlier a ha).1, Nat.lt_succ_of_lt (h.earlier a ha).2⟩

lemma idle (h : s.Numbered) (hnew : ∀ a ∈ s.cache.list, (s.cache.entry a).key ≠ key)
    {entry : ℕ → CachedEntry} (hentry : ∀ a ∈ s.cache.list, entry a = s.cache.entry a) :
    Numbered
      { cache := { s.cache with entry := entry }
        now := s.now + 1
        lastUse := update s.lastUse key s.now } := by
  have huse {a : ℕ} (ha : a ∈ s.cache.list) :
      update s.lastUse key s.now (entry a).key = s.lastUse (s.cache.entry a).key := by
    rw [hentry a ha]
    exact update_of_ne (hnew a ha) _ _
  refine
    { nodup := h.nodup
      listed := fun k a => (h.listed k a).trans (and_congr_right fun ha =>
        iff_of_eq (congrArg (CachedEntry.key · = k) (hentry a ha).symm))
      recent := h.recent.imp_of_mem fun {a b} ha hb hab => ?_
      count := h.count
      fits := h.fits
      live := fun a ha => ?_
      stmt_eq := fun a ha => ?_
      earlier := fun a ha => ?_
      past := fun stmt hstmt => Nat.lt_succ_of_lt (h.past stmt hstmt) }
  all_goals dsimp only at *
  · rw [huse ha, huse hb]
    exact hab
  · rw [hentry a ha]
    exact h.live a ha
  · rw [hentry a ha]
    exact h.stmt_eq a ha
  · rw [huse ha]
    exact ⟨Nat.lt_succ_of_lt (h.earlier a ha).1, Nat.lt_succ_of_lt (h.earlier a ha).2⟩

lemma touch (h : s.Numbered) (hn : node ∈ s.cache.list) : Numbered
      { cache := { s.cache with list := node :: s.cache.list.erase node }
        now := s.now + 1
        lastUse := update s.lastUse (s.cache.entry node).key s.now } := by
  have hmem {a : ℕ} : a ∈ s.cache.list.erase node ↔ a ≠ node ∧ a ∈ s.cache.list := h.nodup.mem_erase_iff
  have hall {a : ℕ} : a ∈ node :: s.cache.list.erase node ↔ a ∈ s.cache.list :=
    (perm_cons_erase hn).mem_iff.symm
  have huse {a : ℕ} (ha : a ∈ s.cache.list.erase node) :
      update s.lastUse (s.cache.entry node).key s.now (s.cache.entry a).key = s.lastUse (s.cache.entry a).key :=
    update_of_ne (fun hkey => (hmem.mp ha).1 (h.key_inj (hmem.mp ha).2 hn hkey)) _ _
  have hlength := (perm_cons_erase hn).length_eq
  refine
    { nodup := (perm_cons_erase hn).nodup_iff.mp h.nodup
      listed := fun k a => (h.listed k a).trans (and_congr_left' hall.symm)
      recent := pairwise_cons.mpr ⟨fun a ha => ?_,
        (h.recent.sublist erase_sublist).imp_of_mem fun {a b} ha hb hab => ?_⟩
      count := h.count.trans hlength
      fits := hlength ▸ h.fits
      live := fun a ha => h.live a (hall.mp ha)
      stmt_eq := fun a ha => h.stmt_eq a (hall.mp ha)
      earlier := fun a ha => ?_
      past := fun stmt hstmt => Nat.lt_succ_of_lt (h.past stmt hstmt) }
  all_goals dsimp only at *
  · rw [huse ha, update_self]
    exact (h.earlier a (hmem.mp ha).2).2
  · rw [huse ha, huse hb]
    exact hab
  · refine ⟨Nat.lt_succ_of_lt (h.earlier a (hall.mp ha)).1, ?_⟩
    rcases mem_cons.mp ha with rfl | ha
    · rw [update_self]
      exact Nat.lt_succ_self _
    · rw [huse ha]
      exact Nat.lt_succ_of_lt (h.earlier a (hmem.mp ha).2).2

lemma key_ne (h : s.Numbered) (hfree : find eqKey key s.cache.map = none) :
    ∀ a ∈ s.cache.list, (s.cache.entry a).key ≠ key := by
  intro a ha hkey
  have hfound := (h.listed key a).mpr ⟨ha, hkey⟩
  rw [hfree] at hfound
  cases hfound

lemma evict (h : s.Numbered) (hlimit : 0 < s.cache.cacheLimit) (key : UInt64) :
    Numbered { s with cache := s.cache.evict } ∧ s.cache.evict.list.length < s.cache.evict.cacheLimit ∧
      (find eqKey key s.cache.map = none → find eqKey key s.cache.evict.map = none) ∧
      s.cache.evict.finalized = s.cache.finalized ++
        if s.cache.list.length = s.cache.cacheLimit then
          (s.cache.list.getLast?.map fun node => (s.cache.entry node).stmt).toList
        else [] := by
  have hfits := h.fits
  rw [LinkedStatements.evict, h.count]
  split_ifs with hfull hlength hlength
  · cases hlast : s.cache.list.getLast? with
    | none =>
      rw [List.getLast?_eq_none_iff.mp hlast, length_nil] at hlength
      omega
    | some node =>
      have hn := mem_of_getLast? hlast
      refine ⟨h.discard hn, ?_, fun hfree => ?_, rfl⟩
      · change (s.cache.list.erase node).length < s.cache.cacheLimit
        rw [length_erase_of_mem hn]
        omega
      · change find eqKey key (remove eqKey _ s.cache.map) = none
        rw [find_remove_of, hfree, ite_self]
  · omega
  · omega
  · exact ⟨h, by omega, id, (append_nil _).symm⟩

lemma evict_destroy (h : s.Numbered) (hn : node ∈ s.cache.list) :
    (s.cache.destroy node).evict = s.cache.destroy node := by
  have hpos := length_pos_of_mem hn
  have hroom : ¬ s.cache.cacheLimit ≤ s.cache.count - 1 := by
    have hfits := h.fits
    rw [h.count]
    omega
  exact if_neg hroom

lemma put_existing (h : s.Numbered) (hfound : find eqKey key s.cache.map = some node)
    {faults : PutFaults} (hcreate : faults.create = false) :
    (s.step (.put key faults)).Numbered := by
  obtain ⟨hn, rfl⟩ := (h.listed key node).mp hfound
  have hpos := length_pos_of_mem hn
  have hfits := h.fits
  have hput : s.cache.put faults s.now (s.cache.entry node).key s.now =
      { s.cache.destroy node with
        map := AssocMap.put eqKey (s.cache.entry node).key s.now s.cache.map
        list := s.now :: s.cache.list.erase node
        count := s.cache.count - 1 + 1
        entry := update s.cache.entry s.now ⟨(s.cache.entry node).key, s.now⟩ } := by
    rw [LinkedStatements.put, LinkedStatements.dropExisting, hfound]
    dsimp only
    rw [h.evict_destroy hn, hcreate, if_neg Bool.false_ne_true]
    rw [if_neg (by simp [LinkedStatements.destroy, hfound])]
    rfl
  have hdiscarded := h.discard hn
  have hinserted := hdiscarded.insert (s.cache.entry node).key
    (AssocMap.put eqKey (s.cache.entry node).key s.now s.cache.map) (fun a ha hkey => ?_) ?_
    fun k => ?_
  · rw [CacheHistory.step]
    rw [hput]
    exact hinserted
  · obtain ⟨hne, hmem⟩ := h.nodup.mem_erase_iff.mp ha
    exact hne (h.key_inj hmem hn hkey)
  · change (s.cache.list.erase node).length < s.cache.cacheLimit
    rw [length_erase_of_mem hn]
    omega
  · change _ = if _ then _ else find eqKey k (remove eqKey (s.cache.entry node).key s.cache.map)
    rw [find_put_of, find_remove_of]
    split_ifs <;> rfl

lemma put_new (h : s.Numbered) (hlimit : 0 < s.cache.cacheLimit)
    (hfree : find eqKey key s.cache.map = none) (faults : PutFaults) :
    (s.step (.put key faults)).Numbered := by
  obtain ⟨hevicted, hroom, hgone, -⟩ := h.evict hlimit key
  have hnew := hevicted.key_ne (hgone hfree)
  have hdrop : s.cache.dropExisting key = s.cache := by
    rw [LinkedStatements.dropExisting, hfree]
  rw [CacheHistory.step]
  rw [LinkedStatements.put, hdrop]
  dsimp only
  split_ifs
  · exact hevicted.idle hnew fun _ _ => rfl
  · exact hevicted.idle hnew fun a ha => update_of_ne (Nat.ne_of_lt (hevicted.earlier a ha).1) _ _
  · exact hevicted.insert _ _ hnew hroom fun k => find_put_of _ _ _ _

lemma step (h : s.Numbered) (hlimit : 0 < s.cache.cacheLimit) {call : CacheCall}
    (hcall : s.Provided call) : (s.step call).Numbered := by
  cases call with
  | get key =>
    rw [CacheHistory.step]
    dsimp only [CacheCall.key]
    rw [LinkedStatements.get]
    cases hfound : find eqKey key s.cache.map with
    | none => exact h.idle (h.key_ne hfound) fun _ _ => rfl
    | some node =>
      obtain ⟨hn, rfl⟩ := (h.listed key node).mp hfound
      exact h.touch hn
  | put key faults =>
    cases hfound : find eqKey key s.cache.map with
    | none => exact h.put_new hlimit hfound faults
    | some node =>
      refine h.put_existing hfound ?_
      rw [← Bool.not_eq_true]
      intro hcreate
      cases hfound.symm.trans (hcall hcreate)

lemma finalized_step (h : s.Numbered) (hlimit : 0 < s.cache.cacheLimit) (call : CacheCall) :
    (s.step call).cache.finalized = s.cache.finalized ++ s.displaced call := by
  cases call with
  | get key =>
    rw [CacheHistory.step, displaced, append_nil]
    dsimp only
    rw [LinkedStatements.get]
    cases find eqKey key s.cache.map <;> rfl
  | put key faults =>
    have hput : (s.step (.put key faults)).cache.finalized = (s.cache.dropExisting key).evict.finalized := by
      rw [CacheHistory.step]
      dsimp only
      rw [LinkedStatements.put]
      dsimp only
      split_ifs <;> rfl
    rw [hput, displaced, LinkedStatements.dropExisting]
    cases hfound : find eqKey key s.cache.map with
    | none => exact (h.evict hlimit key).2.2.2
    | some node =>
      have hn := ((h.listed key node).mp hfound).1
      dsimp only
      rw [h.evict_destroy hn]
      rfl

end Numbered

lemma cacheLimit_step (s : CacheHistory) (call : CacheCall) :
    (s.step call).cache.cacheLimit = s.cache.cacheLimit := by
  have hdrop (key : UInt64) : (s.cache.dropExisting key).cacheLimit = s.cache.cacheLimit := by
    rw [LinkedStatements.dropExisting]
    cases find eqKey key s.cache.map <;> rfl
  have hevict (c : LinkedStatements) : c.evict.cacheLimit = c.cacheLimit := by
    rw [LinkedStatements.evict]
    cases c.list.getLast? <;> split_ifs <;> rfl
  cases call with
  | get key =>
    rw [step, LinkedStatements.get]
    cases find eqKey key s.cache.map <;> rfl
  | put key faults =>
    rw [step, LinkedStatements.put]
    dsimp only
    split_ifs <;> exact (hevict _).trans (hdrop key)

def start (cacheLimit : ℕ) : CacheHistory := { cache := { cacheLimit := cacheLimit } }

lemma numbered_start (cacheLimit : ℕ) : (start cacheLimit).Numbered where
  nodup := nodup_nil
  listed := fun _ _ => by simp [start]
  recent := List.Pairwise.nil
  count := rfl
  fits := Nat.zero_le _
  live := fun _ h => nomatch h
  stmt_eq := fun _ h => nomatch h
  earlier := fun _ h => nomatch h
  past := fun _ h => nomatch h

/-- In a cache with room for a statement, the map and the list agree after any calls, and a call
finalizes what it displaces, as long as no entry of a key is replaced without memory for the new one. -/
theorem cache_tidy (cacheLimit : ℕ) (calls : List CacheCall) (hlimit : 0 < cacheLimit)
    (h : Machine.Along step Provided (start cacheLimit) calls) :
    (calls.foldl step (start cacheLimit)).Tidy ∧
      ∀ call, ((calls.foldl step (start cacheLimit)).step call).cache.finalized =
        (calls.foldl step (start cacheLimit)).cache.finalized ++
          (calls.foldl step (start cacheLimit)).displaced call := by
  have hrun := h.invariant (I := fun s => s.Numbered ∧ s.cache.cacheLimit = cacheLimit)
    (fun s call hs hcall => ⟨hs.1.step (hs.2.symm ▸ hlimit) hcall, (s.cacheLimit_step call).trans hs.2⟩)
    ⟨numbered_start cacheLimit, rfl⟩
  exact ⟨hrun.1.toTidy, hrun.1.finalized_step (hrun.2.symm ▸ hlimit)⟩

theorem cache_tidy_two :
    ((([.put 1 {}, .put 2 {}] : List CacheCall).foldl step (start 1)).cache.finalized = [0]) ∧
      (([.put 1 {}, .put 2 {}] : List CacheCall).foldl step (start 1)).Tidy :=
  ⟨rfl, (cache_tidy 1 [.put 1 {}, .put 2 {}] (by decide) ⟨nofun, nofun, trivial⟩).1⟩

/-- The map keeps a node whose memory is freed when a statement is replaced without memory for its
entry, and a cache for no statements keeps one. -/
theorem replaced_without_memory : (¬ ∀ calls : List CacheCall, (calls.foldl step (start 1)).Tidy) ∧
      ¬ ∀ calls : List CacheCall, (calls.foldl step (start 0)).Tidy := by
  refine ⟨fun h => ?_, fun h => ?_⟩
  · have hlisted := (h [.put 1 {}, .put 1 { create := true }]).listed 1 0
    exact absurd (hlisted.mp (by decide)).1 (by decide)
  · exact absurd (h [.put 1 {}]).fits (by decide)

end CacheHistory
end ZyncBase
