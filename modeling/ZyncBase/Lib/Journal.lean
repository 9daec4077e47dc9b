import Mathlib.Data.List.Nodup
import Mathlib.Logic.Function.Basic
import ZyncBase.Lib.AssocMap

/-! Journals of a keyed state that changes move by move. Each move reports changes of some keys and
the journal keeps one entry for a key, from its first value to its last. Moves may also miss a key
that they change: the journal is exact when no miss comes before the first report of its key or
after the last. -/
namespace Journal

open AssocMap Function List

variable {κ ν : Type*} [DecidableEq κ]

/-- A change of one key. -/
structure Change (κ ν : Type*) where
  key : κ
  old : Option ν
  new : Option ν

/-- The entries of a journal: a key with its values at both ends. -/
abbrev Log (κ ν : Type*) := List (κ × Option ν × Option ν)

/-- A further change of a key continues its entry. -/
def record (log : Log κ ν) (c : Change κ ν) : Log κ ν :=
  put eqKey c.key (((find eqKey c.key log).map Prod.fst).getD c.old, c.new) log

/-- Set or remove the key of each entry. -/
def replay (σ : κ → Option ν) (log : Log κ ν) : κ → Option ν :=
  log.foldl (fun σ e => Function.update σ e.1 e.2.2) σ

/-- Entries that say something: the key is present at one end. -/
def present (e : κ × Option ν × Option ν) : Bool := e.2.1.isSome || e.2.2.isSome

/-- A move of the state, with the changes that it reports. -/
structure Move (κ ν : Type*) where
  before : κ → Option ν
  after : κ → Option ν
  changes : List (Change κ ν)

namespace Move

variable {m : Move κ ν} {k : κ}

def Reports (m : Move κ ν) (k : κ) : Prop := k ∈ m.changes.map Change.key

instance (m : Move κ ν) : DecidablePred m.Reports :=
  fun k => inferInstanceAs (Decidable (k ∈ m.changes.map Change.key))

/-- The move changes the key without reporting it. -/
def Misses (m : Move κ ν) (k : κ) : Prop := ¬ m.Reports k ∧ m.after k ≠ m.before k

/-- What the move reports is true. -/
structure Faithful (m : Move κ ν) : Prop where
  nodup : (m.changes.map Change.key).Nodup
  ends : ∀ c ∈ m.changes, c.old = m.before c.key ∧ c.new = m.after c.key

end Move

/-- Moves one after the other from a first state. -/
inductive Run (σ₀ : κ → Option ν) : (κ → Option ν) → List (Move κ ν) → Prop where
  | start : Run σ₀ σ₀ []
  | step {ms : List (Move κ ν)} {m : Move κ ν} (run : Run σ₀ m.before ms) (faithful : m.Faithful) :
    Run σ₀ m.after (ms ++ [m])

def journal (ms : List (Move κ ν)) : Log κ ν := (ms.flatMap Move.changes).foldl record []

/-- A move changed the key, reported or not. -/
def Touched (ms : List (Move κ ν)) (k : κ) : Prop := ∃ m ∈ ms, m.Reports k ∨ m.Misses k

/-- Some element has `P` and none before it has `Q`. -/
def Early {μ : Type*} (P Q : μ → Prop) : List μ → Prop
  | [] => False
  | m :: ms => P m ∨ ¬ Q m ∧ Early P Q ms

/-- Some element has `P` and none after it has `Q`. -/
def Late {μ : Type*} (P Q : μ → Prop) : List μ → Prop
  | [] => False
  | m :: ms => Late P Q ms ∨ P m ∧ ∀ m' ∈ ms, ¬ Q m'

/-- The key is missed before it is first reported. -/
def EarlyMiss (ms : List (Move κ ν)) (k : κ) : Prop := Early (·.Misses k) (·.Reports k) ms

/-- The key is missed after it is last reported. -/
def LateMiss (ms : List (Move κ ν)) (k : κ) : Prop := Late (·.Misses k) (·.Reports k) ms

/-- The log has one entry for each key touched and present at one end, with its values at both. -/
structure Exact (σ₀ σ : κ → Option ν) (touched : κ → Prop) (log : Log κ ν) : Prop where
  distinct : Distinct eqKey log
  ends : ∀ k old new, (k, old, new) ∈ log → touched k ∧ old = σ₀ k ∧ new = σ k ∧ (old.isSome ∨ new.isSome)
  complete : ∀ k, touched k → (σ₀ k).isSome ∨ (σ k).isSome → k ∈ log.map Prod.fst

section Record

variable {k : κ} {log : Log κ ν}

lemma find_record (c : Change κ ν) : find eqKey k (record log c) =
    if c.key = k then some (((find eqKey k log).map Prod.fst).getD c.old, c.new)
    else find eqKey k log := by
  rw [record, find_put]
  simp only [eqKey_iff]
  split_ifs with h
  · rw [h]
  · rfl

lemma distinct_foldl_record (cs : List (Change κ ν)) (h : Distinct eqKey log) :
    Distinct eqKey (cs.foldl record log) := by
  induction cs generalizing log with
  | nil => exact h
  | cons c cs ih => exact ih (distinct_put eqKey h)

lemma distinct_journal (ms : List (Move κ ν)) : Distinct eqKey (journal ms) :=
  distinct_foldl_record _ List.Pairwise.nil

lemma find_foldl_record_of_not_mem {cs : List (Change κ ν)} (h : k ∉ cs.map Change.key) :
    find eqKey k (cs.foldl record log) = find eqKey k log := by
  induction cs generalizing log with
  | nil => rfl
  | cons c cs ih =>
    rw [map_cons, mem_cons, not_or] at h
    rw [foldl_cons, ih h.2, find_record, if_neg (Ne.symm h.1)]

lemma find_foldl_record {m : Move κ ν} (h : m.Faithful) : find eqKey k (m.changes.foldl record log) =
    if m.Reports k then some (((find eqKey k log).map Prod.fst).getD (m.before k), m.after k)
    else find eqKey k log := by
  split_ifs with hk
  · obtain ⟨c, hc, rfl⟩ := mem_map.mp hk
    obtain ⟨as, bs, hsplit⟩ := append_of_mem hc
    have hn := h.nodup
    rw [hsplit, map_append, map_cons, nodup_middle, nodup_cons, mem_append, not_or] at hn
    rw [hsplit, foldl_append, foldl_cons, find_foldl_record_of_not_mem hn.1.2, find_record,
      if_pos rfl, find_foldl_record_of_not_mem hn.1.1, (h.ends c hc).1, (h.ends c hc).2]
  · exact find_foldl_record_of_not_mem hk

lemma journal_concat (ms : List (Move κ ν)) (m : Move κ ν) :
    journal (ms ++ [m]) = m.changes.foldl record (journal ms) := by
  rw [journal, journal, flatMap_append, foldl_append, flatMap_singleton]

end Record

section Order

variable {μ μ' : Type*} {P Q : μ → Prop} {P' Q' : μ' → Prop} {ms : List μ} {ms' : List μ'} {m : μ}

lemma early_concat : Early P Q (ms ++ [m]) ↔ Early P Q ms ∨ (∀ m' ∈ ms, ¬ Q m') ∧ P m := by
  induction ms with
  | nil => simp [Early]
  | cons a ms ih =>
    rw [cons_append, Early, Early, ih, forall_mem_cons]
    tauto

lemma late_concat : Late P Q (ms ++ [m]) ↔ P m ∨ Late P Q ms ∧ ¬ Q m := by
  induction ms with
  | nil => simp [Late]
  | cons a ms ih =>
    rw [cons_append, Late, Late, ih, forall_mem_append, forall_mem_singleton]
    tauto

lemma exists_of_early (h : Early P Q ms) : ∃ m ∈ ms, P m := by
  induction ms with
  | nil => cases h
  | cons a ms ih =>
    rcases h with h | ⟨_, h⟩
    · exact ⟨a, mem_cons_self, h⟩
    · obtain ⟨m, hm, hp⟩ := ih h
      exact ⟨m, mem_cons_of_mem _ hm, hp⟩

lemma exists_of_late (h : Late P Q ms) : ∃ m ∈ ms, P m := by
  induction ms with
  | nil => cases h
  | cons a ms ih =>
    rcases h with h | ⟨h, _⟩
    · obtain ⟨m, hm, hp⟩ := ih h
      exact ⟨m, mem_cons_of_mem _ hm, hp⟩
    · exact ⟨a, mem_cons_self, h⟩

lemma early_of_mem (hm : m ∈ ms) (hp : P m) (hq : ∀ m' ∈ ms, ¬ Q m') : Early P Q ms := by
  induction ms with
  | nil => cases hm
  | cons a ms ih =>
    rw [forall_mem_cons] at hq
    cases mem_cons.mp hm with
    | inl h => exact .inl (h ▸ hp)
    | inr h => exact .inr ⟨hq.1, ih h hq.2⟩

lemma early_congr (h : List.Forall₂ (fun m m' => (P m ↔ P' m') ∧ (Q m ↔ Q' m')) ms ms') :
    Early P Q ms ↔ Early P' Q' ms' := by
  induction h with
  | nil => rfl
  | cons hm _ ih => rw [Early, Early, hm.1, hm.2, ih]

lemma late_congr (h : List.Forall₂ (fun m m' => (P m ↔ P' m') ∧ (Q m ↔ Q' m')) ms ms') :
    Late P Q ms ↔ Late P' Q' ms' := by
  have hnone : ∀ {as : List μ} {bs : List μ'}, List.Forall₂ (fun m m' => (P m ↔ P' m') ∧ (Q m ↔ Q' m')) as bs →
        ((∀ m ∈ as, ¬ Q m) ↔ ∀ m' ∈ bs, ¬ Q' m') := by
    intro as bs h
    induction h with
    | nil => simp
    | cons hm _ ih => rw [forall_mem_cons, forall_mem_cons, hm.2, ih]
  induction h with
  | nil => rfl
  | cons hm hms ih => exact or_congr ih (and_congr hm.1 (hnone hms))

end Order

section Exact

variable {rank : Option ν → ℕ} {σ₀ σ : κ → Option ν} {ms : List (Move κ ν)} {k : κ}

/-- Missed changes only ever lower the rank of a value. -/
def Declines (rank : Option ν → ℕ) (ms : List (Move κ ν)) : Prop :=
  ∀ m ∈ ms, ∀ k, m.Misses k → rank (m.after k) < rank (m.before k)

/-- What the journal knows of a key after some moves: nothing, and then the key is as it was unless
a move missed it, or an entry whose ends are true unless a move missed the key before or after. -/
inductive Known (rank : Option ν → ℕ) (v₀ v : Option ν) (reported early late : Prop) :
    Option (Option ν × Option ν) → Prop where
  | nothing (hr : ¬ reported) (h : v = v₀ ∧ ¬ early ∧ ¬ late ∨ rank v < rank v₀ ∧ early ∧ late) :
    Known rank v₀ v reported early late none
  | entry (old new : Option ν) (hr : reported) (hold : old = v₀ ∧ ¬ early ∨ rank old < rank v₀ ∧ early)
    (hnew : v = new ∧ ¬ late ∨ rank v < rank new ∧ late) :
    Known rank v₀ v reported early late (some (old, new))

lemma Known.move {m : Move κ ν} {found : Option (Option ν × Option ν)}
    (h : Known rank (σ₀ k) (m.before k) (∃ m' ∈ ms, m'.Reports k) (EarlyMiss ms k) (LateMiss ms k)
      found) (hd : m.Misses k → rank (m.after k) < rank (m.before k)) :
    Known rank (σ₀ k) (m.after k) (∃ m' ∈ ms ++ [m], m'.Reports k) (EarlyMiss (ms ++ [m]) k)
      (LateMiss (ms ++ [m]) k)
      (if m.Reports k then some ((found.map Prod.fst).getD (m.before k), m.after k) else found) := by
  have hreported : (∃ m' ∈ ms ++ [m], m'.Reports k) ↔ (∃ m' ∈ ms, m'.Reports k) ∨ m.Reports k := by
    simp [or_and_right, exists_or]
  have hnone : (∀ m' ∈ ms, ¬ m'.Reports k) ↔ ¬ ∃ m' ∈ ms, m'.Reports k := by simp
  rw [hreported, EarlyMiss, LateMiss, early_concat, late_concat, hnone]
  change Known _ _ _ _ (EarlyMiss ms k ∨ _) (_ ∨ LateMiss ms k ∧ _) _
  by_cases hr : m.Reports k
  · -- the entry now ends with this move
    have hm : ¬ m.Misses k := fun hm => hm.1 hr
    simp only [hr, hm, if_true, or_true, and_false, or_false, not_true_eq_false]
    cases h with
    | nothing hno hv =>
      have hold := hv.imp (fun h => And.intro h.1 h.2.1) fun h => And.intro h.1 h.2.1
      exact .entry _ _ trivial hold (.inl ⟨rfl, not_false⟩)
    | entry old new hyes hold hnew =>
      exact .entry _ _ trivial hold (.inl ⟨rfl, not_false⟩)
  · by_cases hm : m.Misses k
    · have hlower := hd hm
      simp only [hr, hm, if_false, or_false, and_true, true_or]
      cases h with
      | nothing hno hv =>
        refine .nothing hno (.inr ⟨?_, .inr hno, trivial⟩)
        rcases hv with ⟨he, _⟩ | ⟨hlt, _⟩
        · rwa [he] at hlower
        · exact Nat.lt_trans hlower hlt
      | entry old new hyes hold hnew =>
        refine .entry _ _ hyes ?_ (.inr ⟨?_, trivial⟩)
        · simpa [hyes] using hold
        · rcases hnew with ⟨he, _⟩ | ⟨hlt, _⟩
          · rwa [he] at hlower
          · exact Nat.lt_trans hlower hlt
    · have hkeep : m.after k = m.before k := by
        by_contra hne
        exact hm ⟨hr, hne⟩
      simpa only [hr, hm, hkeep, if_false, or_false, and_false, false_or, not_false_eq_true, and_true]
        using h

lemma Run.known (h : Run σ₀ σ ms) (hd : Declines rank ms) (k : κ) :
    Known rank (σ₀ k) (σ k) (∃ m ∈ ms, m.Reports k) (EarlyMiss ms k) (LateMiss ms k)
      (find eqKey k (journal ms)) := by
  induction h with
  | start => exact .nothing (by simp) (.inl ⟨rfl, not_false, not_false⟩)
  | step run faithful ih =>
    rw [Declines, forall_mem_append, forall_mem_singleton] at hd
    rw [journal_concat, find_foldl_record faithful]
    exact (ih hd.1).move (hd.2 k)

lemma mem_filter_present {log : Log κ ν} (hd : Distinct eqKey log) {old new : Option ν} :
    (k, old, new) ∈ log.filter present ↔ find eqKey k log = some (old, new) ∧ (old.isSome ∨ new.isSome) := by
  rw [mem_filter, present, Bool.or_eq_true]
  refine and_congr_left fun _ => ⟨fun h => find_of_mem eqKey hd h (by simp), fun h => ?_⟩
  obtain ⟨k', hk, hm⟩ := mem_of_find eqKey h
  rwa [← eqKey_iff _ _ |>.mp hk]

omit [DecidableEq κ] in
lemma isSome_of_rank_lt {v v' : Option ν} (hmin : ∀ v, rank none ≤ rank v)
    (h : rank v < rank v') : v'.isSome := by
  cases v' with
  | none => exact absurd (hmin v) (Nat.not_le.mpr h)
  | some a => rfl

omit [DecidableEq κ] in
lemma Touched.of_earlyMiss (h : EarlyMiss ms k) : Touched ms k := by
  obtain ⟨m, hm, hmiss⟩ := exists_of_early h
  exact ⟨m, hm, .inr hmiss⟩

lemma Exact.not_missed {found : Option (Option ν × Option ν)} (hmin : ∀ v, rank none ≤ rank v)
    (h : Exact σ₀ σ (Touched ms) ((journal ms).filter present)) (hfound : find eqKey k (journal ms) = found)
    (hk : Known rank (σ₀ k) (σ k) (∃ m ∈ ms, m.Reports k) (EarlyMiss ms k) (LateMiss ms k) found) :
    ¬ EarlyMiss ms k ∧ ¬ LateMiss ms k := by
  have hdistinct := distinct_journal ms
  have hcomplete : EarlyMiss ms k → (σ₀ k).isSome → ∃ old new, found = some (old, new) ∧ old = σ₀ k := by
    intro hearly hsome
    obtain ⟨⟨_, old, new⟩, hm, rfl⟩ :=
      mem_map.mp (h.complete k (.of_earlyMiss hearly) (.inl hsome))
    rw [← hfound]
    exact ⟨old, new, ((mem_filter_present hdistinct).mp hm).1, (h.ends _ _ _ hm).2.1⟩
  cases hk with
  | nothing hno hv =>
    rcases hv with ⟨_, hearly, hlate⟩ | ⟨hlt, hearly, _⟩
    · exact ⟨hearly, hlate⟩
    · obtain ⟨_, _, hsome, _⟩ := hcomplete hearly (isSome_of_rank_lt hmin hlt)
      cases hsome
  | entry old new hyes hold hnew =>
    constructor
    · rcases hold with ⟨_, hearly⟩ | ⟨hlt, hearly⟩
      · exact hearly
      · obtain ⟨_, _, hsome, hends⟩ := hcomplete hearly (isSome_of_rank_lt hmin hlt)
        cases hsome
        rw [hends] at hlt
        exact absurd hlt (Nat.lt_irrefl _)
    · rcases hnew with ⟨_, hlate⟩ | ⟨hlt, _⟩
      · exact hlate
      · have hm := (mem_filter_present hdistinct).mpr ⟨hfound, .inr (isSome_of_rank_lt hmin hlt)⟩
        rw [(h.ends _ _ _ hm).2.2.1] at hlt
        exact absurd hlt (Nat.lt_irrefl _)

lemma Run.exact (h : Run σ₀ σ ms) (hd : Declines rank ms) (hno : ∀ k, ¬ EarlyMiss ms k ∧ ¬ LateMiss ms k) :
    Exact σ₀ σ (Touched ms) ((journal ms).filter present) := by
  have hdistinct := distinct_journal ms
  refine ⟨hdistinct.filter _, fun k old new hm => ?_, fun k htouched hsome => ?_⟩
  · obtain ⟨hfind, hpresent⟩ := (mem_filter_present hdistinct).mp hm
    have hknown := h.known hd k
    rw [hfind] at hknown
    cases hknown with
    | entry _ _ hyes hold hnew =>
      obtain ⟨m, hm, hr⟩ := hyes
      exact ⟨⟨m, hm, .inl hr⟩, (hold.resolve_right fun h => (hno k).1 h.2).1,
        (hnew.resolve_right fun h => (hno k).2 h.2).1.symm, hpresent⟩
  · have hknown := h.known hd k
    cases hfind : find eqKey k (journal ms) with
    | none =>
      rw [hfind] at hknown
      cases hknown with
      | nothing hnone hv =>
        obtain ⟨m, hm, hr | hmiss⟩ := htouched
        · exact absurd ⟨m, hm, hr⟩ hnone
        · exact absurd (early_of_mem hm hmiss fun m' hm' hr => hnone ⟨m', hm', hr⟩) (hno k).1
    | some p =>
      obtain ⟨old, new⟩ := p
      rw [hfind] at hknown
      cases hknown with
      | entry _ _ hyes hold hnew =>
        have ho := (hold.resolve_right fun h => (hno k).1 h.2).1
        have hn := (hnew.resolve_right fun h => (hno k).2 h.2).1
        have hm := (mem_filter_present hdistinct).mpr ⟨hfind, by rwa [ho, ← hn]⟩
        exact mem_map_of_mem (f := Prod.fst) hm

/-- The journal of a run is exact, apart from entries that say nothing, exactly when no key is
missed before its first report or after its last. -/
lemma Run.exact_iff (h : Run σ₀ σ ms) (hd : Declines rank ms) (hmin : ∀ v, rank none ≤ rank v) :
    Exact σ₀ σ (Touched ms) ((journal ms).filter present) ↔ ∀ k, ¬ EarlyMiss ms k ∧ ¬ LateMiss ms k :=
  ⟨fun hexact k => hexact.not_missed hmin rfl (h.known hd k), h.exact hd⟩

lemma replay_eq {log : Log κ ν} (hd : Distinct eqKey log) (σ : κ → Option ν) (k : κ) :
    replay σ log k = ((find eqKey k log).map Prod.snd).getD (σ k) := by
  induction log generalizing σ with
  | nil => rfl
  | cons e es ih =>
    rw [Distinct, pairwise_cons] at hd
    rw [replay, foldl_cons]
    change replay _ es k = _
    rw [ih hd.2, find]
    by_cases hk : e.1 = k
    · subst hk
      have hnone : find eqKey e.1 es = none := by
        cases hf : find eqKey e.1 es with
        | none => rfl
        | some p =>
          obtain ⟨k', hk', hm⟩ := mem_of_find eqKey hf
          have hne := hd.1 _ hm
          rw [eqKey_eq_false] at hne
          exact absurd (eqKey_iff _ _ |>.mp hk').symm hne
      simp [hnone]
    · rw [if_neg (by simpa using hk), update_of_ne (Ne.symm hk)]

lemma Exact.replay {touched : κ → Prop} {log : Log κ ν} (h : Exact σ₀ σ touched log)
    (hall : ∀ k, ¬ touched k → σ k = σ₀ k) : Journal.replay σ₀ log = σ := by
  funext k
  rw [replay_eq h.distinct]
  cases hf : find eqKey k log with
  | some p =>
    obtain ⟨k', hk, hm⟩ := mem_of_find eqKey hf
    rw [eqKey_iff] at hk
    subst hk
    exact (h.ends _ _ _ hm).2.2.1
  | none =>
    have hnot : k ∉ log.map Prod.fst := by
      intro hm
      obtain ⟨⟨_, p⟩, he, rfl⟩ := mem_map.mp hm
      rw [find_of_mem eqKey h.distinct he (by simp)] at hf
      cases hf
    by_cases ht : touched k
    · have hnone : ¬ ((σ₀ k).isSome ∨ (σ k).isSome) := fun hs => hnot (h.complete k ht hs)
      rw [not_or, Option.not_isSome_iff_eq_none, Option.not_isSome_iff_eq_none] at hnone
      rw [hnone.2]
      exact hnone.1
    · exact (hall k ht).symm

omit [DecidableEq κ] in
lemma Run.append {σ₁ : κ → Option ν} {ms' : List (Move κ ν)} (h : Run σ₀ σ₁ ms)
    (h' : Run σ₁ σ ms') : Run σ₀ σ (ms ++ ms') := by
  induction h' with
  | start => rwa [append_nil]
  | step run faithful ih =>
    rw [← append_assoc]
    exact .step ih faithful

omit [DecidableEq κ] in
lemma Run.eq_of_not_touched (h : Run σ₀ σ ms) (hk : ¬ Touched ms k) : σ k = σ₀ k := by
  induction h with
  | start => rfl
  | step run faithful ih =>
    simp only [Touched, mem_append, mem_singleton, or_and_right, exists_or, exists_eq_left, not_or] at hk
    obtain ⟨hbefore, hr, hm⟩ := hk
    rw [← ih (by simpa [Touched] using hbefore)]
    by_contra hne
    exact hm ⟨hr, hne⟩

end Exact
end Journal
