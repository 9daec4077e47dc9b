import ZyncBase.Memory.LockFreeCache

/-! The maps that the writer of the cache swaps in: what they contain, and what is no longer in use after
the swap. -/
namespace ZyncBase

open AssocMap List Function

section Meaning

variable {K V : Type} [DecidableEq K]

def CacheMutation.run (contents : K → Option V) : CacheMutation K V → K → Option V
  | .update key data => Function.update contents key (some data)
  | .evict key => Function.update contents key none

def CacheOperation.run (contents : K → Option V) : CacheOperation K V → K → Option V
  | .update key data => Function.update contents key (some data)
  | .evict key => Function.update contents key none
  | .applyBatch mutations => mutations.foldl CacheMutation.run contents
  | .clear => fun _ => none

end Meaning

namespace CachePlan

variable {K V : Type} [DecidableEq K]

/-- The entries of a map are its own, and have been made. -/
structure Proper (m : List (K × ℕ)) (made : ℕ) : Prop where
  distinct : Distinct eqKey m
  injective : ∀ {k k' entry}, find eqKey k m = some entry → find eqKey k' m = some entry → k = k'
  made : ∀ {k entry}, find eqKey k m = some entry → entry < made

variable {m : List (K × ℕ)}

lemma mem_iff_find (hd : Distinct eqKey m) {k : K} {entry : ℕ} :
    (k, entry) ∈ m ↔ find eqKey k m = some entry := by
  constructor
  · exact fun h => find_of_mem eqKey hd h ((eqKey_iff _ _).mpr rfl)
  · intro h
    obtain ⟨k', hk, hmem⟩ := mem_of_find eqKey h
    rw [eqKey_iff] at hk
    exact hk ▸ hmem

lemma Proper.nodup_snd {made : ℕ} (h : Proper m made) : (m.map Prod.snd).Nodup := by
  refine pairwise_map.mpr (h.distinct.imp_of_mem fun {a b} ha hb hne heq => ?_)
  have hkey := h.injective ((mem_iff_find h.distinct).mp ha)
    (by rw [heq]; exact (mem_iff_find h.distinct).mp hb)
  rw [eqKey_eq_false] at hne
  exact hne hkey

lemma find_put_key (k k' : K) (entry : ℕ) (m : List (K × ℕ)) :
    find eqKey k' (put eqKey k entry m) = if k = k' then some entry else find eqKey k' m := by
  simp only [find_put, eqKey_iff]

lemma find_remove_key (k k' : K) (m : List (K × ℕ)) :
    find eqKey k' (remove eqKey k m) = if k = k' then none else find eqKey k' m := by
  simp only [find_remove, eqKey_iff]

def lookup (m : List (K × ℕ)) (values : List V) (k : K) : Option V :=
  (find eqKey k m).bind fun entry => values[entry]?

lemma Proper.put {made : ℕ} (h : Proper m made) (key : K) : Proper (put eqKey key made m) (made + 1) where
  distinct := distinct_put eqKey h.distinct
  injective {k k' entry} hk hk' := by
    rw [find_put_key] at hk hk'
    split_ifs at hk hk' with hkey hkey' hkey'
    · exact hkey.symm.trans hkey'
    · cases hk
      exact absurd (h.made hk') (lt_irrefl _)
    · cases hk'
      exact absurd (h.made hk) (lt_irrefl _)
    · exact h.injective hk hk'
  made {k entry} hk := by
    rw [find_put_key] at hk
    split_ifs at hk
    · cases hk
      exact Nat.lt_succ_self _
    · exact (h.made hk).trans (Nat.lt_succ_self _)

lemma Proper.remove {made : ℕ} (h : Proper m made) (key : K) : Proper (remove eqKey key m) made where
  distinct := distinct_remove eqKey h.distinct
  injective {k k' entry} hk hk' := by
    rw [find_remove_key] at hk hk'
    split_ifs at hk hk'
    exact h.injective hk hk'
  made {k entry} hk := by
    rw [find_remove_key] at hk
    split_ifs at hk
    exact h.made hk

lemma Proper.getElem?_append {values : List V} (h : Proper m values.length)
    (more : List V) {k : K} {entry : ℕ} (hk : find eqKey k m = some entry) :
    (values ++ more)[entry]? = values[entry]? := List.getElem?_append_left (h.made hk)

lemma lookup_put {values : List V} (h : Proper m values.length) (key : K)
    (data : V) : lookup (put eqKey key values.length m) (values ++ [data]) =
      update (lookup m values) key (some data) := by
  funext k
  rw [lookup, find_put_key, update_apply]
  by_cases hk : key = k
  · rw [if_pos hk, if_pos hk.symm]
    simp
  · rw [if_neg hk, if_neg (Ne.symm hk), lookup]
    exact Option.bind_congr fun entry hentry => h.getElem?_append [data] hentry

lemma lookup_remove (m : List (K × ℕ)) (values : List V) (key : K) :
    lookup (remove eqKey key m) values = update (lookup m values) key none := by
  funext k
  rw [lookup, find_remove_key, update_apply]
  by_cases hk : key = k
  · rw [if_pos hk, if_pos hk.symm]
    rfl
  · rw [if_neg hk, if_neg (Ne.symm hk)]
    rfl

/-- What the writer relies on when it swaps a plan in. -/
structure Sound (old : List (K × ℕ)) (values : List V) (contents : K → Option V)
    (plan : CachePlan K V) : Prop where
  proper : Proper plan.entries (values.length + plan.created.length)
  origin : ∀ {k entry}, find eqKey k plan.entries = some entry →
    find eqKey k old = some entry ∨ values.length ≤ entry
  dropped : ∀ {entry}, .entry entry ∈ plan.dropped ↔
    ∃ k, find eqKey k old = some entry ∧ find eqKey k plan.entries ≠ some entry
  maps : ∀ map, .map map ∉ plan.dropped
  dropped_nodup : plan.dropped.Nodup
  superseded : ∀ entry ∈ plan.superseded, values.length ≤ entry ∧
    entry < values.length + plan.created.length ∧ ∀ k, find eqKey k plan.entries ≠ some entry
  superseded_nodup : plan.superseded.Nodup
  contents : lookup plan.entries (values ++ plan.created) = contents

variable {old : List (K × ℕ)} {values : List V} {plan : CachePlan K V}

lemma sound_update (h : Proper old values.length) (key : K) (data : V) :
    Sound old values (update (lookup old values) key (some data))
      { entries := put eqKey key values.length old, created := [data],
        dropped := (find eqKey key old).toList.map .entry } where
  proper := h.put key
  origin {k entry} hk := by
    rw [find_put_key] at hk
    split_ifs at hk
    · cases hk
      exact .inr le_rfl
    · exact .inl hk
  dropped {entry} := by
    simp only [mem_map, Option.mem_toList, CacheResource.entry.injEq, exists_eq_right,
      find_put_key]
    constructor
    · intro hkey
      refine ⟨key, hkey, ?_⟩
      rw [if_pos rfl]
      intro heq
      cases heq
      exact absurd (h.made hkey) (lt_irrefl _)
    · rintro ⟨k, hk, hne⟩
      split_ifs at hne with hkey
      · exact hkey ▸ hk
      · exact absurd hk hne
  maps map := by simp
  dropped_nodup := by cases find eqKey key old <;> simp
  superseded _ hmem := absurd hmem not_mem_nil
  superseded_nodup := nodup_nil
  contents := lookup_put h key data

lemma sound_evict (h : Proper old values.length) {key : K} {entry : ℕ}
    (hkey : find eqKey key old = some entry) :
    Sound old values (update (lookup old values) key none)
      { entries := remove eqKey key old, created := [], dropped := [.entry entry] } where
  proper := h.remove key
  origin {k entry'} hk := by
    rw [find_remove_key] at hk
    split_ifs at hk
    exact .inl hk
  dropped {entry'} := by
    simp only [mem_singleton, CacheResource.entry.injEq, find_remove_key]
    constructor
    · rintro rfl
      exact ⟨key, hkey, by rw [if_pos rfl]; exact Option.some_ne_none _ ∘ Eq.symm⟩
    · rintro ⟨k, hk, hne⟩
      split_ifs at hne with heq
      · subst heq
        rw [hkey] at hk
        exact (Option.some_inj.mp hk).symm
      · exact absurd hk hne
  maps map := by simp
  dropped_nodup := nodup_singleton _
  superseded _ hmem := absurd hmem not_mem_nil
  superseded_nodup := nodup_nil
  contents := by
    rw [append_nil]
    exact lookup_remove old values key

lemma sound_clear (h : Proper old values.length) : Sound old values (fun _ => none)
    { entries := [], created := [], dropped := old.map fun e => .entry e.2, reserved := true } where
  proper := ⟨List.Pairwise.nil, nofun, nofun⟩
  origin := nofun
  dropped {entry} := by
    simp only [mem_map, CacheResource.entry.injEq, find_nil, ne_eq]
    constructor
    · rintro ⟨⟨k, entry'⟩, hmem, rfl⟩
      exact ⟨k, (mem_iff_find h.distinct).mp hmem, nofun⟩
    · rintro ⟨k, hk, -⟩
      exact ⟨(k, entry), (mem_iff_find h.distinct).mpr hk, rfl⟩
  maps map := by simp
  dropped_nodup := by
    have hnodup := h.nodup_snd.map (f := CacheResource.entry) fun _ _ heq =>
      CacheResource.entry.inj heq
    rw [map_map] at hnodup
    exact hnodup
  superseded _ hmem := absurd hmem not_mem_nil
  superseded_nodup := nodup_nil
  contents := rfl

/-- The state of a batch after some of its mutations. -/
structure BatchState (old : List (K × ℕ)) (values : List V) (contents : K → Option V)
    (acc : List (K × ℕ) × List (K × V)) : Prop where
  proper : Proper acc.1 (values.length + acc.2.length)
  origin : ∀ {k entry}, find eqKey k acc.1 = some entry → find eqKey k old = some entry ∨
    ∃ i v, entry = values.length + i ∧ acc.2[i]? = some (k, v)
  contents : lookup acc.1 (values ++ acc.2.map Prod.snd) = contents

lemma BatchState.apply {contents : K → Option V} {acc : List (K × ℕ) × List (K × V)}
    (h : BatchState old values contents acc) (m : CacheMutation K V) :
    BatchState old values (m.run contents) (m.apply values.length acc) := by
  have hlength : values.length + acc.2.length = (values ++ acc.2.map Prod.snd).length := by simp
  cases m with
  | update key data =>
    refine ⟨?_, fun {k entry} hk => ?_, ?_⟩
    · have hput := h.proper.put key
      simpa [CacheMutation.apply, Nat.add_assoc] using hput
    · simp only [CacheMutation.apply, find_put_key] at hk
      split_ifs at hk with hkey
      · cases hk
        exact .inr ⟨acc.2.length, data, rfl, by simp [CacheMutation.apply, hkey]⟩
      · rcases h.origin hk with hold | ⟨i, v, hentry, hi⟩
        · exact .inl hold
        · refine .inr ⟨i, v, hentry, ?_⟩
          exact (List.getElem?_append_left (List.getElem?_eq_some_iff.mp hi).1).trans hi
    · have hproper := h.proper
      rw [hlength] at hproper
      have hlookup := lookup_put hproper key data
      rw [h.contents] at hlookup
      rw [CacheMutation.run, ← hlookup, ← hlength, append_assoc, CacheMutation.apply, map_append]
      rfl
  | evict key =>
    refine ⟨h.proper.remove key, fun {k entry} hk => ?_, ?_⟩
    · simp only [CacheMutation.apply, find_remove_key] at hk
      split_ifs at hk
      exact h.origin hk
    · rw [CacheMutation.run, ← h.contents]
      exact lookup_remove _ _ _

lemma batchState (h : Proper old values.length) (mutations : List (CacheMutation K V)) :
    BatchState old values (mutations.foldl CacheMutation.run (lookup old values))
      (mutations.foldl (CacheMutation.apply values.length) (old, [])) := by
  have hstart : BatchState old values (lookup old values) (old, []) :=
    ⟨h, .inl, by rw [map_nil, append_nil]⟩
  generalize lookup old values = contents at hstart
  generalize ((old, []) : List (K × ℕ) × List (K × V)) = acc at hstart
  induction mutations generalizing contents acc with
  | nil => exact hstart
  | cons m ms ih => exact ih _ _ (hstart.apply m)

lemma nodup_filterMap {α β : Type} {p : α → Prop} [DecidablePred p] {f : α → β} {l : List α}
    (h : (l.map f).Nodup) : (l.filterMap fun a => if p a then none else some (f a)).Nodup := by
  refine h.sublist ?_
  induction l with
  | nil => exact List.Sublist.slnil
  | cons a l ih =>
    rw [map_cons, nodup_cons] at h
    rw [filterMap_cons, map_cons]
    by_cases ha : p a
    · rw [if_pos ha]
      exact (ih h.2).cons _
    · rw [if_neg ha]
      exact (ih h.2).cons_cons _

lemma sound_applyBatch (h : Proper old values.length) (mutations : List (CacheMutation K V)) :
    Sound old values (mutations.foldl CacheMutation.run (lookup old values))
      (let new := mutations.foldl (CacheMutation.apply values.length) (old, [])
      { entries := new.1
        created := new.2.map Prod.snd
        superseded := (new.2.zipIdx values.length).filterMap fun e =>
          if find eqKey e.1.1 new.1 = some e.2 then none else some e.2
        dropped := old.filterMap fun e =>
          if find eqKey e.1 new.1 = some e.2 then none else some (.entry e.2)
        reserved := true }) := by
  have hbatch := batchState h mutations
  generalize mutations.foldl (CacheMutation.apply values.length) (old, []) = new at hbatch
  refine ⟨?_, fun {k entry} hk => ?_, fun {entry} => ?_, fun map => ?_, ?_, fun entry hentry => ?_, ?_,
    hbatch.contents⟩
  · simpa using hbatch.proper
  · rcases hbatch.origin hk with hold | ⟨i, v, rfl, -⟩
    · exact .inl hold
    · exact .inr (Nat.le_add_right _ _)
  · simp only [mem_filterMap]
    constructor
    · rintro ⟨⟨k, entry'⟩, hmem, hif⟩
      split_ifs at hif with hkept
      cases hif
      exact ⟨k, (mem_iff_find h.distinct).mp hmem, hkept⟩
    · rintro ⟨k, hk, hne⟩
      exact ⟨(k, entry), (mem_iff_find h.distinct).mpr hk, if_neg hne⟩
  · simp only [mem_filterMap, not_exists, not_and]
    intro e _
    split_ifs
    · exact nofun
    · exact nofun
  · have hnodup := h.nodup_snd.map (f := CacheResource.entry) fun _ _ heq =>
      CacheResource.entry.inj heq
    rw [map_map] at hnodup
    exact nodup_filterMap hnodup
  · simp only [mem_filterMap] at hentry
    obtain ⟨⟨⟨k, v⟩, i⟩, hmem, hif⟩ := hentry
    split_ifs at hif with hkept
    cases hif
    have hle := le_snd_of_mem_zipIdx hmem
    have hlt := snd_lt_add_of_mem_zipIdx hmem
    refine ⟨hle, by simpa using hlt, fun k' hk' => hkept ?_⟩
    obtain ⟨j, rfl⟩ := Nat.exists_eq_add_of_le hle
    rw [mk_add_mem_zipIdx_iff_getElem?] at hmem
    rcases hbatch.origin hk' with hold | ⟨j', v', hj, hentry⟩
    · exact absurd (h.made hold) (by omega)
    · have heq : j' = j := Nat.add_left_cancel hj.symm
      subst heq
      rw [hmem] at hentry
      cases hentry
      exact hk'
  · refine nodup_filterMap ?_
    rw [zipIdx_map_snd]
    exact nodup_range'

lemma sound_plan (h : Proper old values.length) {op : CacheOperation K V}
    (hplan : op.plan old values.length = some plan) : Sound old values (op.run (lookup old values)) plan := by
  cases op with
  | update key data =>
    cases hplan
    exact sound_update h key data
  | evict key =>
    obtain ⟨entry, hentry, rfl⟩ := Option.map_eq_some_iff.mp hplan
    exact sound_evict h hentry
  | applyBatch mutations =>
    rw [CacheOperation.plan] at hplan
    split_ifs at hplan
    cases hplan
    exact sound_applyBatch h mutations
  | clear =>
    rw [CacheOperation.plan] at hplan
    split_ifs at hplan
    cases hplan
    exact sound_clear h

end CachePlan

end ZyncBase
