import Mathlib.Data.List.Induction
import ZyncBase.Memory.CacheLookups

/-! What a lookup of the lock-free cache returns: what the updates had come to at some point of the
lookup. -/
namespace ZyncBase

open AssocMap Function Machine List LockFreeCache

def CacheEvent.reader? {K V : Type} : CacheEvent K V → Option ℕ
  | .get r _ | .reader r _ | .release r => some r
  | _ => none

namespace LockFreeCache

variable {K V : Type} [DecidableEq K]

/-- At some point of the run the condition holds. -/
def During (c : LockFreeCache K V) (events : List (CacheEvent K V)) (p : LockFreeCache K V → Prop) : Prop :=
  ∃ events', events' <+: events ∧ p (events'.foldl step c)

variable {p : LockFreeCache K V → Prop}

lemma During.later {c : LockFreeCache K V} {events : List (CacheEvent K V)}
    (h : During c events p) (e : CacheEvent K V) : During c (events ++ [e]) p := by
  obtain ⟨events', hprefix, hp⟩ := h
  exact ⟨events', hprefix.trans (prefix_append _ _), hp⟩

lemma During.imp {c : LockFreeCache K V} {events : List (CacheEvent K V)}
    {q : LockFreeCache K V → Prop} (h : During c events p) (hpq : ∀ c, p c → q c) : During c events q := by
  obtain ⟨events', hprefix, hp⟩ := h
  exact ⟨events', hprefix, hpq _ hp⟩

lemma During.grows {c : LockFreeCache K V} (hc : c.Running) {events : List (CacheEvent K V)}
    (h : During c events p) : ∃ c', p c' ∧ c'.Running ∧ Grows c' (events.foldl step c) := by
  obtain ⟨events', ⟨more, rfl⟩, hp⟩ := h
  rw [foldl_append]
  exact ⟨_, hp, hc.run events', (hc.run events').grows more⟩

lemma readers_step_of_ne {c : LockFreeCache K V} (h : c.Consistent) {e : CacheEvent K V} {r : ℕ}
    (he : e.reader? ≠ some r) : (c.step e).readers r = c.readers r := by
  have hother : ∀ {r' : ℕ}, (some r' : Option ℕ) ≠ some r → ∀ reader : CacheReader K,
      update c.readers r' reader r = c.readers r :=
    fun hr reader => update_of_ne (fun heq => hr (congrArg some heq.symm)) _ _
  cases e with
  | get r' key =>
    rw [step]
    split
    · exact hother he _
    · exact hother he _
    · rfl
  | reader r' slot =>
    obtain ⟨reader, hreaders, -⟩ := readers_stepReader (c := c) r' slot
    rw [step, hreaders]
    exact hother he _
  | release r' =>
    rw [step, releaseHandle]
    split
    · exact hother he _
    · rfl
  | writer free acquired =>
    rw [step, (writerKeeps_stepWriter h free acquired).readers]
  | reclaimer t =>
    rw [step, stepReclaimer]
    split
    · rfl
    · split_ifs <;> rfl
    · rfl
    · rfl
    · split_ifs <;> rfl
  | setReadable readable => rfl
  | _ =>
    rw [step]
    split <;> rfl

/-- A lookup that takes place now finds nothing. -/
def Absent (key : K) (c : LockFreeCache K V) : Prop := c.contents key = none ∨ c.readable = false

/-- What a lookup of a key has found out since it has started. -/
def Looked (start : LockFreeCache K V) (events : List (CacheEvent K V)) (key : K)
    (c : LockFreeCache K V) : CacheReader K → Prop
  | .idle => False
  | .checking k | .entering k | .claiming k _ | .loading k _ => k = key
  | .looking k _ map => k = key ∧ During start events fun c' => c'.current = map
  | .counting k _ entry => k = key ∧ During start events fun c' =>
      ∃ v, c.values[entry]? = some v ∧ c'.contents key = some v
  | .holding _ entry => During start events fun c' =>
      ∃ v, c.values[entry]? = some v ∧ c'.contents key = some v
  | .missing _ | .notFound => During start events fun c' => Absent key c'

variable {start c : LockFreeCache K V} {events : List (CacheEvent K V)} {key : K}

lemma Looked.later {reader : CacheReader K} (h : Looked start events key c reader)
    {c' : LockFreeCache K V} (hgrows : Grows c c') (e : CacheEvent K V) :
    Looked start (events ++ [e]) key c' reader := by
  have hvalue : ∀ {entry : ℕ} {v : V}, c.values[entry]? = some v → c'.values[entry]? = some v :=
    fun hv => (hgrows.getElem? (List.getElem?_eq_some_iff.mp hv).1).trans hv
  have hfound : ∀ {entry : ℕ},
      (During start events fun c' => ∃ v, c.values[entry]? = some v ∧ c'.contents key = some v) →
      During start (events ++ [e]) fun c'' => ∃ v, c'.values[entry]? = some v ∧ c''.contents key = some v :=
    fun h => (h.later e).imp fun _ ⟨v, hv, hkey⟩ => ⟨v, hvalue hv, hkey⟩
  cases reader with
  | looking k slot map => exact ⟨h.1, h.2.later e⟩
  | counting k slot entry => exact ⟨h.1, hfound h.2⟩
  | holding slot entry => exact hfound h
  | missing slot => exact During.later (p := Absent key) h e
  | notFound => exact During.later (p := Absent key) h e
  | _ => exact h

lemma contents_looking (hstart : start.Running) (hc : events.foldl step start = c) {map : ℕ}
    (h : During start events fun c' => c'.current = map) (key : K) :
    During start events fun c' => c'.contents key =
      (find eqKey key (c.entries map)).bind fun entry => c.values[entry]? := by
  obtain ⟨events', ⟨more, rfl⟩, rfl⟩ := h
  refine ⟨events', prefix_append _ _, ?_⟩
  have hgrows := (hstart.run events').grows more
  have hconsistent := (hstart.run events').consistent
  rw [foldl_append] at hc
  rw [hc] at hgrows
  rw [hgrows.entries hconsistent.current]
  exact Option.bind_congr fun entry hentry => (hgrows.getElem? (hconsistent.proper.made hentry)).symm

lemma made_looking (hstart : start.Running) (hc : events.foldl step start = c) {map : ℕ}
    (h : During start events fun c' => c'.current = map) {entry : ℕ}
    (hentry : find eqKey key (c.entries map) = some entry) : ∃ v, c.values[entry]? = some v := by
  obtain ⟨c', rfl, hrunning, hgrows⟩ := h.grows hstart
  have hconsistent := hrunning.consistent
  rw [hc] at hgrows
  rw [hgrows.entries hconsistent.current] at hentry
  have hmade := hconsistent.proper.made hentry
  exact ⟨_, (hgrows.getElem? hmade).trans (getElem?_eq_getElem hmade)⟩

lemma looked_stepReader (hstart : start.Running) (hc : events.foldl step start = c) (r : ℕ)
    (slot : Fin 128) (h : Looked start events key c (c.readers r)) :
    Looked start events key c ((c.stepReader r slot).readers r) := by
  have hunreadable : c.readable = false → During start events fun c' => Absent key c' :=
    fun hreadable => ⟨events, prefix_rfl, .inr (by rw [hc]; exact hreadable)⟩
  rw [stepReader]
  cases hr : c.readers r with
  | checking k =>
    rw [hr] at h
    simp only [setReader, update_self]
    split_ifs with hreadable
    · exact h
    · exact hunreadable (Bool.eq_false_iff.mpr hreadable)
  | entering k =>
    rw [hr] at h
    simp only [setReader, update_self]
    exact h
  | claiming k epoch =>
    rw [hr] at h
    simp only
    split_ifs
    · simp only [setReader, update_self]
      exact h
    · rw [hr]
      exact h
  | loading k slot =>
    rw [hr] at h
    simp only [setReader, update_self]
    exact ⟨h, events, prefix_rfl, by rw [hc]⟩
  | looking k slot map =>
    rw [hr] at h
    obtain ⟨rfl, hmap⟩ := h
    have hcontents := contents_looking hstart hc hmap k
    simp only
    split
    · next entry hentry =>
      simp only [setReader, update_self]
      rw [hentry] at hcontents
      obtain ⟨v, hv⟩ := made_looking hstart hc hmap hentry
      exact ⟨rfl, hcontents.imp fun c' hc' => ⟨v, hv, hc'.trans hv⟩⟩
    · next hentry =>
      simp only [setReader, update_self]
      rw [hentry] at hcontents
      exact hcontents.imp (q := Absent k) fun c' => .inl
  | counting k slot entry =>
    rw [hr] at h
    simp only [setReader, update_self]
    split_ifs with hreadable
    · exact h.2
    · exact hunreadable (Bool.eq_false_iff.mpr hreadable)
  | missing slot =>
    rw [hr] at h
    simp only [setReader, update_self]
    exact h
  | idle =>
    rw [hr] at h
    exact h.elim
  | holding slot entry =>
    rw [hr] at h
    simp only [hr]
    exact h
  | notFound =>
    rw [hr] at h
    simp only [hr]
    exact h

lemma looked (hstart : start.Running) {r : ℕ} (hr : start.readers r = .checking key)
    (hget : ∀ key', .get r key' ∉ events) (hrelease : .release r ∉ events) :
    Looked start events key (events.foldl step start) ((events.foldl step start).readers r) := by
  induction events using List.reverseRecOn with
  | nil =>
    rw [foldl_nil, hr]
    exact rfl
  | append_singleton events e ih =>
    simp only [mem_append, mem_singleton, not_or] at hget hrelease
    have hlooked := ih (fun key' => (hget key').1) hrelease.1
    have hrunning := hstart.run events
    rw [foldl_append, foldl_cons, foldl_nil]
    generalize hc : events.foldl step start = c at hlooked hrunning
    refine Looked.later ?_ (grows_step hrunning.consistent e) e
    by_cases he : e.reader? = some r
    · cases e with
      | get r' key' =>
        cases he
        exact absurd rfl (hget key').2
      | release r' =>
        cases he
        exact absurd rfl hrelease.2
      | reader r' slot =>
        cases he
        exact looked_stepReader hstart hc r slot hlooked
      | _ => cases he
    · rw [readers_step_of_ne hrunning.consistent he]
      exact hlooked

lemma Running.latest (h : c.Running) (hlatest : c.latest = c.contents) (events : List (CacheEvent K V)) :
    (events.foldl LockFreeCache.step c).latest = (events.foldl LockFreeCache.step c).contents := by
  induction events generalizing c with
  | nil => exact hlatest
  | cons e events ih => exact ih (h.step e) (latest_step h.consistent hlatest e)

lemma Running.along_slotOf (h : c.Running) {r : ℕ} {slot : Fin 128} (hr : c.slotOf (some r) = some slot)
    (hevents : ∀ e ∈ events, e.reader? ≠ some r) :
    Along LockFreeCache.step (fun c e => (c.step e).slotOf (some r) = some slot) c events := by
  induction events generalizing c with
  | nil => trivial
  | cons e events ih =>
    have hstep : (c.step e).slotOf (some r) = some slot := by
      rw [slotOf, readers_step_of_ne h.consistent (hevents e mem_cons_self)]
      exact hr
    exact ⟨hstep, ih (h.step e) hstep fun e' he' => hevents e' (mem_cons_of_mem _ he')⟩

/-- In every run: nothing is freed twice, a thread keeps what it can come to until it leaves its
slot, and a lookup returns what the updates had come to at some point of it, or nothing where they had
come to nothing or the cache was not readable. -/
theorem reclaimed_once_unpinned_and_lookups_latest (events : List (CacheEvent K V)) :
    let c := events.foldl step ({} : LockFreeCache K V)
    c.freed.Nodup ∧
    (∀ t slot x more, c.slotOf t = some slot → x ∈ c.reachable →
      Along step (fun c e => (c.step e).slotOf t = some slot) c more →
      x ∉ (more.foldl step c).freed) ∧
    ∀ r key more, c.readers r = .checking key → (∀ key', .get r key' ∉ more) → .release r ∉ more →
      (∀ slot entry, (more.foldl step c).readers r = .holding slot entry →
        During c more fun c' => ∃ v, (more.foldl step c).values[entry]? = some v ∧
          c'.latest key = some v) ∧
      ((more.foldl step c).readers r = .notFound →
        During c more fun c' => c'.latest key = none ∨ c'.readable = false) := by
  intro c
  have hrunning : c.Running := running_init.run events
  have hlatest : c.latest = c.contents := running_init.latest rfl events
  refine ⟨hrunning.consistent.sound.freed_nodup, fun t slot x more ht hx hrun => ?_,
    fun r key more hr hget hrelease => ?_⟩
  · exact hrunning.not_freed ht hx hrun
  · have hlooked := looked hrunning hr hget hrelease
    have hcontents : ∀ events : List (CacheEvent K V),
        (events.foldl step c).contents = (events.foldl step c).latest :=
      fun events => (hrunning.latest hlatest events).symm
    refine ⟨fun slot entry hholding => ?_, fun hnone => ?_⟩
    · rw [hholding] at hlooked
      obtain ⟨events', hprefix, v, hv, hkey⟩ := hlooked
      exact ⟨events', hprefix, v, hv, hcontents events' ▸ hkey⟩
    · rw [hnone] at hlooked
      obtain ⟨events', hprefix, habsent⟩ := hlooked
      exact ⟨events', hprefix, habsent.imp_left fun hkey => hcontents events' ▸ hkey⟩

namespace CacheExample

/-- The writer is called, and goes on until it is done. -/
def writes (op : CacheOperation ℕ ℕ) : List (CacheEvent ℕ ℕ) :=
  .write op :: List.replicate 13 (.writer 0 true)

/-- The reader looks the key up until it has its handle. -/
def looks : List (CacheEvent ℕ ℕ) := List.replicate 6 (.reader 0 1)

def stored : List (CacheEvent ℕ ℕ) := writes (.update 1 5) ++ [.get 0 1]

/-- The writer replaces the value, and a thread frees what it can. -/
def replaced : List (CacheEvent ℕ ℕ) :=
  writes (.update 1 6) ++ .reclaim 0 :: List.replicate 135 (.reclaimer 0)

def unreadable : List (CacheEvent ℕ ℕ) := writes (.update 1 5) ++ [.setReadable false, .get 0 1]

lemma readers_stored : (stored.foldl step {}).readers 0 = .checking 1 := rfl

lemma readers_looks : (looks.foldl step (stored.foldl step {})).readers 0 = .holding 1 0 := rfl

theorem value_kept : .entry 0 ∉ (replaced.foldl step ((stored ++ looks).foldl step {})).freed ∧
    During (stored.foldl step {}) looks fun c' => ∃ v,
      (looks.foldl step (stored.foldl step {})).values[0]? = some v ∧ c'.latest 1 = some v := by
  have hkept := (reclaimed_once_unpinned_and_lookups_latest (stored ++ looks)).2.1
  have hlooked := (reclaimed_once_unpinned_and_lookups_latest stored).2.2
  refine ⟨hkept (some 0) 1 (.entry 0) replaced rfl ⟨1, rfl⟩ ?_, ?_⟩
  · exact (running_init.run _).along_slotOf rfl
      (by simp [replaced, writes, or_imp, forall_and, CacheEvent.reader?])
  · exact (hlooked 0 1 looks readers_stored (by simp [looks]) (by simp [looks])).1 1 0 readers_looks

/-- A lookup returns nothing while the cache is not readable. -/
theorem unreadable_notFound : ¬ ∀ (events more : List (CacheEvent ℕ ℕ)) (r key : ℕ),
    (events.foldl step {}).readers r = .checking key → (∀ key', .get r key' ∉ more) →
    .release r ∉ more → (more.foldl step (events.foldl step {})).readers r = .notFound →
    During (events.foldl step {}) more fun c' => c'.latest key = none := by
  intro hall
  obtain ⟨events, hprefix, hnone⟩ := hall unreadable [.reader 0 0] 0 1 rfl (by simp) (by simp) rfl
  rcases events with _ | ⟨e, _ | ⟨e', events⟩⟩
  · cases hnone
  · obtain ⟨rfl, -⟩ := cons_prefix_cons.mp hprefix
    cases hnone
  · obtain ⟨-, hnil⟩ := cons_prefix_cons.mp hprefix
    exact absurd (prefix_nil.mp hnil) (cons_ne_nil _ _)

end CacheExample

end LockFreeCache

end ZyncBase
