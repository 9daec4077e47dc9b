import ZyncBase.Lib.Machine
import ZyncBase.Memory.CacheReclamation

/-! Lookups of the lock-free cache: what they can come to is not freed while they are pinned, and what
they return was in the cache at some point of the lookup. -/
namespace ZyncBase

open AssocMap Function Machine List EpochReclamation

def CacheReader.slot? {K : Type} : CacheReader K → Option (Fin 128)
  | .loading _ slot | .looking _ slot _ | .counting _ slot _ | .holding slot _ | .missing slot =>
    some slot
  | .idle | .checking _ | .entering _ | .claiming _ _ | .notFound => none

def CacheWriter.slot? {K V : Type} : CacheWriter K V → Option (Fin 128)
  | .loading _ slot | .preparing _ slot _ | .swapping _ slot _ _ | .deferring slot _ _ _
  | .pushing slot _ _ _ _ | .bumping slot _ | .restoring slot | .exiting slot _ => some slot
  | .idle | .entering _ | .claiming _ _ => none

namespace LockFreeCache

variable {K V : Type}

def slotOf (c : LockFreeCache K V) : Option ℕ → Option (Fin 128)
  | none => c.writer.slot?
  | some r => (c.readers r).slot?

/-- A slot that a thread has pinned is not free, and is of no other thread. -/
structure Owned (c : LockFreeCache K V) : Prop where
  pinned : ∀ {t slot}, c.slotOf t = some slot → c.slots slot ≠ none
  unique : ∀ {t t' slot}, c.slotOf t = some slot → c.slotOf t' = some slot → t = t'

/-- What a step does to the slots: nothing, or one thread pins a free slot or leaves its own. -/
inductive SlotStep (c c' : LockFreeCache K V) : Prop
  | same (hslots : c'.slots = c.slots) (hslotOf : c'.slotOf = c.slotOf)
  | pin (t : Option ℕ) (slot : Fin 128) (epoch : ℕ) (hfree : c.slots slot = none)
    (hslots : c'.slots = Function.update c.slots slot (some epoch))
    (hslotOf : c'.slotOf = Function.update c.slotOf t (some slot))
  | unpin (t : Option ℕ) (slot : Fin 128) (howner : c.slotOf t = some slot)
    (hslots : c'.slots = Function.update c.slots slot none)
    (hslotOf : c'.slotOf = Function.update c.slotOf t none)

variable {c c' : LockFreeCache K V}

lemma Owned.step (h : c.Owned) (hstep : SlotStep c c') : c'.Owned := by
  cases hstep with
  | same hslots hslotOf =>
    refine ⟨fun {t slot} ht => ?_, fun {t t' slot} ht ht' => ?_⟩
    · rw [hslotOf] at ht
      rw [hslots]
      exact h.pinned ht
    · rw [hslotOf] at ht ht'
      exact h.unique ht ht'
  | pin t₀ slot₀ epoch hfree hslots hslotOf =>
    have hnot : ∀ t, c.slotOf t ≠ some slot₀ := fun t ht => h.pinned ht hfree
    refine ⟨fun {t slot} ht => ?_, fun {t t' slot} ht ht' => ?_⟩
    · rw [hslots, update_apply]
      split_ifs with hslot
      · exact Option.some_ne_none _
      · rw [hslotOf, update_apply] at ht
        split_ifs at ht with heq
        · exact absurd (Option.some_inj.mp ht).symm hslot
        · exact h.pinned ht
    · rw [hslotOf, update_apply] at ht ht'
      split_ifs at ht ht' with heq heq' heq'
      · exact heq.trans heq'.symm
      · cases ht
        exact absurd ht' (hnot t')
      · cases ht'
        exact absurd ht (hnot t)
      · exact h.unique ht ht'
  | unpin t₀ slot₀ howner hslots hslotOf =>
    refine ⟨fun {t slot} ht => ?_, fun {t t' slot} ht ht' => ?_⟩
    · rw [hslotOf, update_apply] at ht
      split_ifs at ht with heq
      rw [hslots, update_of_ne]
      · exact h.pinned ht
      · rintro rfl
        exact heq (h.unique ht howner)
    · rw [hslotOf, update_apply] at ht ht'
      split_ifs at ht ht'
      exact h.unique ht ht'

lemma slotOf_setReader (c : LockFreeCache K V) (r : ℕ) (reader : CacheReader K) :
    (c.setReader r reader).slotOf = update c.slotOf (some r) reader.slot? := by
  funext t
  cases t with
  | none => rfl
  | some r' =>
    by_cases hr : r' = r
    · subst hr
      simp [slotOf, setReader]
    · rw [update_of_ne fun heq => hr (Option.some_inj.mp heq)]
      simp [slotOf, setReader, hr]

lemma slotStep_setReader {r : ℕ} {old reader : CacheReader K}
    (hold : c.readers r = old) (hslot : reader.slot? = old.slot?) : SlotStep c (c.setReader r reader) := by
  refine .same rfl ?_
  rw [slotOf_setReader]
  refine Function.update_eq_self_iff.mpr ?_
  rw [slotOf, hold, hslot]

lemma slotOf_writer {slot : Option (Fin 128)} (h : c'.readers = c.readers) (hslot : c'.writer.slot? = slot) :
    c'.slotOf = update c.slotOf none slot := by
  funext t
  cases t with
  | none => exact hslot
  | some r =>
    rw [update_of_ne (Option.some_ne_none r)]
    simp only [slotOf, h]

lemma slotStep_writer (hreaders : c'.readers = c.readers)
    (hslots : c'.slots = c.slots) (hslot : c'.writer.slot? = c.writer.slot?) : SlotStep c c' := by
  refine .same hslots ?_
  rw [slotOf_writer hreaders hslot]
  exact Function.update_eq_self _ _

lemma slotOf_init (t : Option ℕ) : ({} : LockFreeCache K V).slotOf t = none := by
  cases t <;> rfl

/-- Maps and entries are only ever added. -/
structure Grows (c c' : LockFreeCache K V) : Prop where
  maps : c.maps <+: c'.maps
  values : c.values <+: c'.values

lemma Grows.refl (c : LockFreeCache K V) : Grows c c := ⟨prefix_rfl, prefix_rfl⟩

lemma Grows.trans {c'' : LockFreeCache K V} (h : Grows c c') (h' : Grows c' c'') : Grows c c'' :=
  ⟨h.maps.trans h'.maps, h.values.trans h'.values⟩

lemma Grows.entries (h : Grows c c') {map : ℕ}
    (hmap : map < c.maps.length) : c'.entries map = c.entries map := by
  obtain ⟨more, hmore⟩ := h.maps
  rw [LockFreeCache.entries, LockFreeCache.entries, ← hmore, getElem?_append_left hmap]

lemma Grows.getElem? (h : Grows c c') {entry : ℕ}
    (hentry : entry < c.values.length) : c'.values[entry]? = c.values[entry]? := by
  obtain ⟨more, hmore⟩ := h.values
  rw [← hmore, getElem?_append_left hentry]

variable [DecidableEq K]

lemma slotStep_stepReader (c : LockFreeCache K V) (r : ℕ) (free : Fin 128) :
    SlotStep c (c.stepReader r free) := by
  rw [stepReader]
  cases hr : c.readers r with
  | claiming key epoch =>
    simp only
    split_ifs with hfree
    · exact .pin (some r) free epoch hfree rfl (slotOf_setReader _ r _)
    · exact .same rfl rfl
  | missing slot =>
    refine .unpin (some r) slot ?_ rfl (slotOf_setReader _ r _)
    rw [slotOf, hr]
    rfl
  | checking key => exact slotStep_setReader hr (by split_ifs <;> rfl)
  | entering key => exact slotStep_setReader hr rfl
  | loading key slot => exact slotStep_setReader hr rfl
  | looking key slot map =>
    simp only
    split <;> exact slotStep_setReader hr rfl
  | counting key slot entry => exact slotStep_setReader hr (by split_ifs <;> rfl)
  | idle => exact .same rfl rfl
  | holding slot entry => exact .same rfl rfl
  | notFound => exact .same rfl rfl

lemma slotStep_stepWriter (c : LockFreeCache K V) (free : Fin 128) (acquired : Bool) :
    SlotStep c (c.stepWriter free acquired) := by
  rw [stepWriter]
  rcases hw : c.writer with _ | op | ⟨op, epoch⟩ | ⟨op, slot⟩ | ⟨op, slot, old⟩ | ⟨op, slot, old, plan⟩ |
    ⟨slot, _ | ⟨x, dropped⟩, reserved, restore⟩ | ⟨slot, node, dropped, reserved, restore⟩ |
    ⟨slot, restore⟩ | slot | ⟨slot, again⟩
  case claiming =>
    simp only
    split_ifs with hfree
    · exact .pin none free epoch hfree rfl (slotOf_writer rfl rfl)
    · exact .same rfl rfl
  case exiting =>
    refine .unpin none slot ?_ rfl (slotOf_writer rfl ?_)
    · rw [slotOf, hw]
      rfl
    · cases again <;> rfl
  case preparing =>
    simp only
    split
    · exact slotStep_writer rfl rfl (by rw [hw]; rfl)
    · refine slotStep_writer rfl rfl ?_
      rw [hw]
      cases op.isClear <;> rfl
  case swapping =>
    simp only [swap]
    split_ifs <;> exact slotStep_writer rfl rfl (congrArg CacheWriter.slot? hw).symm
  case deferring.cons =>
    simp only
    split_ifs <;> exact slotStep_writer rfl rfl (by rw [hw]; rfl)
  case bumping =>
    refine slotStep_writer rfl rfl ?_
    rw [hw]
    cases restore <;> rfl
  case idle => exact .same rfl rfl
  all_goals exact slotStep_writer rfl rfl (by rw [hw]; rfl)

lemma slotStep_step (c : LockFreeCache K V) (e : CacheEvent K V) : SlotStep c (c.step e) := by
  cases e with
  | get r key =>
    rw [step]
    split
    · next hr => exact slotStep_setReader hr rfl
    · next hr => exact slotStep_setReader hr rfl
    · exact .same rfl rfl
  | reader r slot => exact slotStep_stepReader c r slot
  | release r =>
    rw [step, releaseHandle]
    split
    · next slot entry hr =>
      refine .unpin (some r) slot ?_ rfl (slotOf_setReader _ r _)
      rw [slotOf, hr]
      rfl
    · exact .same rfl rfl
  | write op =>
    rw [step]
    split
    · next hw _ => exact slotStep_writer rfl rfl (by rw [hw]; rfl)
    · exact .same rfl rfl
  | writer slot acquired => exact slotStep_stepWriter c slot acquired
  | outOfMemory =>
    rw [step]
    split
    · next hw => exact slotStep_writer rfl rfl (by rw [hw]; rfl)
    · exact .same rfl rfl
  | reclaim t =>
    rw [step]
    split <;> exact .same rfl rfl
  | reclaimer t =>
    rw [step, stepReclaimer]
    split
    · exact .same rfl rfl
    · split_ifs <;> exact .same rfl rfl
    · exact .same rfl rfl
    · exact .same rfl rfl
    · split_ifs <;> exact .same rfl rfl
  | setReadable readable => exact .same rfl rfl

/-- The state of a run. -/
structure Running (c : LockFreeCache K V) : Prop where
  consistent : c.Consistent
  owned : c.Owned

lemma Running.step (h : c.Running) (e : CacheEvent K V) :
    (c.step e).Running := ⟨h.consistent.step e, h.owned.step (slotStep_step c e)⟩

lemma running_init : ({} : LockFreeCache K V).Running := by
  refine ⟨consistent_init, fun {t slot} ht => ?_, fun {t t' slot} ht => ?_⟩
  · rw [slotOf_init] at ht
    cases ht
  · rw [slotOf_init] at ht
    cases ht

lemma Running.run (h : c.Running) (events : List (CacheEvent K V)) :
    (events.foldl LockFreeCache.step c).Running := invariant (fun _ e hc => hc.step e) h events

lemma kept_step (h : c.Consistent) {e : CacheEvent K V} {slot : Fin 128}
    {x : CacheResource} {age : ℕ} (hkept : Kept slot x age c.epochs)
    (hslot : (c.step e).slots slot ≠ none) : Kept slot x age (c.step e).epochs := by
  obtain ⟨m, xs, hm, hepochs, -, hxs⟩ := Reclaims.step h e
  have hslots : (c.step e).slots = m.slots := congrArg State.slots hepochs
  rw [hepochs]
  refine Kept.discard ?_ fun x hx => (hxs x hx).1
  rcases hm with rfl | hstep
  · exact hkept
  · rw [hslots] at hslot
    exact hkept.step hstep hslot

lemma Running.kept (h : c.Running) {t : Option ℕ} {slot : Fin 128}
    (ht : c.slotOf t = some slot) {x : CacheResource} (hx : x ∈ c.reachable) :
    Kept slot x c.epoch c.epochs := by
  obtain ⟨e, he⟩ := Option.ne_none_iff_exists'.mp (h.owned.pinned ht)
  exact h.consistent.sound.kept he hx

/-- What a thread can come to while it has pinned a slot is not freed before it leaves the slot. -/
lemma Running.not_freed (h : c.Running) {t : Option ℕ} {slot : Fin 128}
    (ht : c.slotOf t = some slot) {x : CacheResource} (hx : x ∈ c.reachable) {events : List (CacheEvent K V)}
    (hrun : Along LockFreeCache.step (fun c e => (c.step e).slotOf t = some slot) c events) :
    x ∉ (events.foldl LockFreeCache.step c).freed := by
  have hkept := Along.invariant (I := fun c' : LockFreeCache K V =>
      c'.Running ∧ Kept slot x c.epoch c'.epochs)
    (fun c' e hc' he =>
      ⟨hc'.1.step e, kept_step hc'.1.consistent hc'.2 ((hc'.1.step e).owned.pinned he)⟩)
    hrun ⟨h, h.kept ht hx⟩
  exact hkept.2.freed

lemma grows_step (h : c.Consistent) (e : CacheEvent K V) : Grows c (c.step e) := by
  rcases step_maps h e with ⟨op, slot, plan, -, -, hstep⟩ | hsame
  · rw [hstep]
    exact ⟨prefix_append _ _, prefix_append _ _⟩
  · refine ⟨?_, ?_⟩
    · exact hsame.maps ▸ prefix_rfl
    · exact hsame.values ▸ prefix_rfl

lemma Running.grows (h : c.Running) (events : List (CacheEvent K V)) :
    Grows c (events.foldl LockFreeCache.step c) := by
  induction events generalizing c with
  | nil => exact .refl c
  | cons e events ih => exact (grows_step h.consistent e).trans (ih (h.step e))

/-- What the updates that have been swapped in come to, one after the other. -/
def latest (c : LockFreeCache K V) : K → Option V :=
  c.completed.foldl CacheOperation.run fun _ => none

lemma latest_step (h : c.Consistent) (hlatest : c.latest = c.contents)
    (e : CacheEvent K V) : (c.step e).latest = (c.step e).contents := by
  rcases step_maps h e with ⟨op, slot, plan, -, hplan, hstep⟩ | hsame
  · have hcontents := (CachePlan.sound_plan h.proper hplan).contents
    have hold : CachePlan.lookup (c.entries c.current) c.values = c.latest := hlatest.symm
    have hlast : (c.publish op slot c.current plan).latest = op.run c.latest := by
      simp [latest, publish]
    rw [hstep, hlast, ← hold, ← hcontents]
    funext key
    rw [contents, entries_publish]
    rfl
  · have hlast : (c.step e).latest = c.latest := by rw [latest, hsame.completed, latest]
    rw [hlast, hlatest]
    funext key
    rw [contents, contents, entries, entries, hsame.maps, hsame.values, hsame.current]

end LockFreeCache

end ZyncBase
