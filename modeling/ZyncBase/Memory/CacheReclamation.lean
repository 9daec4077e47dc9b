import ZyncBase.Memory.CachePlans

/-! The lock-free cache reclaims by epochs: each of its steps is a step of the general scheme. -/
namespace ZyncBase

open AssocMap EpochReclamation Function List LockFreeCache

abbrev CacheEpochs := EpochReclamation.State CacheResource (Fin 128) (Option ℕ)

/-- What the writer has taken out of use and has not given a node. -/
def CacheWriter.pending {K V : Type} : CacheWriter K V → List CacheResource
  | .deferring _ dropped _ _ | .pushing _ _ dropped _ _ => dropped
  | _ => []

def CacheWriter.nodes {K V : Type} : CacheWriter K V → List DeferNode
  | .pushing _ node _ _ _ => [node]
  | _ => []

def CacheReclaimer.nodes : CacheReclaimer → List DeferNode
  | .freeing _ nodes => nodes
  | _ => []

def CacheReclaimer.scan : CacheReclaimer → Option (Scan (Fin 128))
  | .idle => none
  | .scanning oldest next => some ⟨oldest, {i | i.val < next}⟩
  | .swapping oldest | .freeing oldest _ => some ⟨oldest, Set.univ⟩

namespace LockFreeCache

variable {K V : Type} [DecidableEq K]

/-- What a lookup that starts now can come to. -/
def reachable (c : LockFreeCache K V) : Set CacheResource
  | .map map => map = c.current
  | .entry entry => ∃ key, find eqKey key (c.entries c.current) = some entry

/-- The cache as an instance of reclamation by epochs. The writer holds its nodes as a thread of its own. -/
def epochs (c : LockFreeCache K V) : CacheEpochs where
  epoch := c.epoch
  slots := c.slots
  linked := c.reachable
  unlinked := {x | x ∈ c.writer.pending ++ c.leaked}
  stack := c.deferStack
  held
    | none => c.writer.nodes
    | some t => (c.reclaimers t).nodes
  scans
    | none => none
    | some t => (c.reclaimers t).scan
  freed := c.freed

/-- The resource has a number that has been given out. -/
def Made (c : LockFreeCache K V) : CacheResource → Prop
  | .map map => map < c.maps.length
  | .entry entry => entry < c.values.length

/-- What the writer has found is still so: it is the only one. -/
def WriterReady (c : LockFreeCache K V) : Prop :=
  match c.writer with
  | .claiming _ epoch => epoch ≤ c.epoch
  | .preparing _ _ old => old = c.current
  | .swapping op _ old plan =>
    old = c.current ∧ op.plan (c.entries old) c.values.length = some plan
  | _ => True

structure Consistent (c : LockFreeCache K V) : Prop where
  current : c.current < c.maps.length
  proper : CachePlan.Proper (c.entries c.current) c.values.length
  writer : c.WriterReady
  readers : ∀ r key epoch, c.readers r = .claiming key epoch → epoch ≤ c.epoch
  pending : (c.writer.pending ++ c.leaked).Nodup
  made : ∀ x, ¬ c.epochs.Fresh x → c.Made x
  sound : Sound c.epochs

/-- One step of the cache is at most one step of reclamation, and what the writer has made in vain is
freed. -/
def Reclaims (c c' : LockFreeCache K V) : Prop :=
  ∃ m xs, (m = c.epochs ∨ Step c.epochs m) ∧ c'.epochs = m.discard xs ∧
    xs.Nodup ∧ ∀ x ∈ xs, m.Fresh x ∧ c'.Made x

lemma Reclaims.of_eq {c c' : LockFreeCache K V} (h : c'.epochs = c.epochs) : Reclaims c c' :=
  ⟨c.epochs, [], .inl rfl, by rw [h, discard_nil], nodup_nil, nofun⟩

lemma Reclaims.of_step {c c' : LockFreeCache K V} (h : Step c.epochs c'.epochs) : Reclaims c c' :=
  ⟨c'.epochs, [], .inr h, by rw [discard_nil], nodup_nil, nofun⟩

lemma Reclaims.stepReader {c : LockFreeCache K V} (h : c.Consistent) (r : ℕ) (free : Fin 128) :
    Reclaims c (c.stepReader r free) := by
  rw [LockFreeCache.stepReader]
  cases hr : c.readers r with
  | claiming key epoch =>
    simp only
    split_ifs with hfree
    · exact Reclaims.of_step (.pin free epoch hfree (h.readers r key epoch hr))
    · exact Reclaims.of_eq rfl
  | missing slot => exact Reclaims.of_step (.unpin slot)
  | looking key slot map =>
    simp only
    split
    · exact Reclaims.of_eq rfl
    · exact Reclaims.of_eq rfl
  | _ => exact Reclaims.of_eq rfl

lemma Reclaims.releaseHandle (c : LockFreeCache K V) (r : ℕ) : Reclaims c (c.releaseHandle r) := by
  rw [LockFreeCache.releaseHandle]
  split
  · exact Reclaims.of_step (.unpin _)
  · exact Reclaims.of_eq rfl

lemma held_writer {c c' : LockFreeCache K V} {nodes : List DeferNode}
    (h : c'.reclaimers = c.reclaimers) (hnodes : c'.writer.nodes = nodes) :
    c'.epochs.held = update c.epochs.held none nodes := by
  funext t
  cases t with
  | none => exact hnodes
  | some t =>
    rw [update_of_ne (Option.some_ne_none t)]
    simp only [epochs, h]

lemma held_writer_same {c c' : LockFreeCache K V} (h : c'.reclaimers = c.reclaimers)
    (hnodes : c'.writer.nodes = c.writer.nodes) : c'.epochs.held = c.epochs.held := by
  rw [held_writer h hnodes]
  exact update_eq_self none _

lemma epochs_setReclaimer (c : LockFreeCache K V) (t : ℕ) (reclaimer : CacheReclaimer) :
    (c.setReclaimer t reclaimer).epochs = { c.epochs with
      held := update c.epochs.held (some t) reclaimer.nodes
      scans := update c.epochs.scans (some t) reclaimer.scan } := by
  refine State.ext rfl rfl rfl rfl rfl (funext fun t' => ?_) (funext fun t' => ?_) rfl
  all_goals
    rcases t' with _ | t'
    · rfl
    by_cases ht : t' = t
    · subst ht
      simp [epochs, setReclaimer]
    · simp [epochs, setReclaimer, ht]

/-- A reclaimer that keeps its nodes. -/
lemma epochs_rescanned {c : LockFreeCache K V} {t : ℕ} {reclaimer : CacheReclaimer}
    (h : reclaimer.nodes = (c.reclaimers t).nodes) : (c.setReclaimer t reclaimer).epochs =
      { c.epochs with scans := update c.epochs.scans (some t) reclaimer.scan } := by
  rw [epochs_setReclaimer, h]
  exact State.ext rfl rfl rfl rfl rfl (update_eq_self (some t) c.epochs.held) rfl rfl

/-- A reclaimer that keeps its scan. -/
lemma epochs_reheld {c : LockFreeCache K V} {t : ℕ} {reclaimer : CacheReclaimer}
    (h : reclaimer.scan = (c.reclaimers t).scan) : (c.setReclaimer t reclaimer).epochs =
      { c.epochs with held := update c.epochs.held (some t) reclaimer.nodes } := by
  rw [epochs_setReclaimer, h]
  exact State.ext rfl rfl rfl rfl rfl rfl (update_eq_self (some t) c.epochs.scans) rfl

lemma Reclaims.stepReclaimer (c : LockFreeCache K V) (t : ℕ) : Reclaims c (c.stepReclaimer t) := by
  have hself : ∀ {reclaimer}, c.reclaimers t = reclaimer →
      c.epochs.held (some t) = reclaimer.nodes ∧ c.epochs.scans (some t) = reclaimer.scan :=
    fun h => by subst h; exact ⟨rfl, rfl⟩
  rw [LockFreeCache.stepReclaimer]
  rcases ht : c.reclaimers t with _ | ⟨oldest, next⟩ | oldest | ⟨oldest, _ | ⟨node, nodes⟩⟩
  · exact Reclaims.of_eq rfl
  · obtain ⟨-, hscan⟩ := hself ht
    simp only
    split_ifs with hnext
    · refine Reclaims.of_step ?_
      have hseen : ({i | i.val < next + 1} : Set (Fin 128)) = insert ⟨next, hnext⟩ {i | i.val < next} := by
        ext i
        simp only [Set.mem_ofPred_eq, Set.mem_insert_iff, Fin.ext_iff]
        omega
      rw [epochs_rescanned (by rw [ht]; rfl), CacheReclaimer.scan, hseen]
      exact .look (some t) ⟨next, hnext⟩ _ hscan
    · have hseen : ({i | i.val < next} : Set (Fin 128)) = Set.univ :=
        Set.eq_univ_of_forall fun i => i.isLt.trans_le (not_lt.mp hnext)
      rw [CacheReclaimer.scan, hseen] at hscan
      refine Reclaims.of_eq ?_
      rw [epochs_rescanned (by rw [ht]; rfl), update_eq_self_iff.mpr hscan.symm]
  · refine Reclaims.of_step ?_
    rw [epochs_reheld (by rw [ht]; rfl)]
    exact .grab (some t) (hself ht).1
  · refine Reclaims.of_step ?_
    rw [epochs_rescanned (by rw [ht]; rfl)]
    exact .rest (some t)
  · obtain ⟨hheld, hscan⟩ := hself ht
    simp only
    split_ifs with hold
    · refine Reclaims.of_step ?_
      rw [epochs_reheld (by rw [ht]; rfl)]
      exact .free (some t) node nodes _ hheld hscan Set.mem_univ hold
    · refine Reclaims.of_step ?_
      rw [epochs_reheld (by rw [ht]; rfl)]
      exact .push (some t) node nodes hheld

lemma Consistent.fresh {c : LockFreeCache K V} (h : c.Consistent) {x : CacheResource}
    (hx : ¬ c.Made x) : c.epochs.Fresh x := by
  by_contra hfresh
  exact hx (h.made x hfresh)

omit [DecidableEq K] in
lemma entries_publish (c : LockFreeCache K V) (op : CacheOperation K V) (slot : Fin 128) (old : ℕ)
    (plan : CachePlan K V) :
    (c.publish op slot old plan).entries (c.publish op slot old plan).current = plan.entries := by
  simp [entries, publish]

section Publish

variable {c : LockFreeCache K V} (h : c.Consistent) {op : CacheOperation K V}
  {plan : CachePlan K V} (hplan : op.plan (c.entries c.current) c.values.length = some plan)
  (slot : Fin 128)

include h hplan

lemma reachable_publish {x : CacheResource}
    (hx : x ∈ (c.publish op slot c.current plan).reachable) : x ∈ c.reachable ∨ ¬ c.Made x := by
  cases x with
  | map map =>
    cases hx
    exact .inr (lt_irrefl _)
  | entry entry =>
    obtain ⟨key, hkey⟩ := hx
    rw [entries_publish] at hkey
    rcases (CachePlan.sound_plan h.proper hplan).origin hkey with hold | hnew
    · exact .inl ⟨key, hold⟩
    · exact .inr (not_lt.mpr hnew)

lemma dropped_publish (x : CacheResource) : x ∈ plan.dropped ++ [.map c.current] ↔
    x ∈ c.reachable ∧ x ∉ (c.publish op slot c.current plan).reachable := by
  have hsound := CachePlan.sound_plan h.proper hplan
  rw [mem_append, mem_singleton]
  cases x with
  | map map =>
    have hcurrent := h.current
    constructor
    · rintro (hdropped | heq)
      · exact absurd hdropped (hsound.maps map)
      · cases heq
        exact ⟨rfl, fun heq : c.current = c.maps.length => by omega⟩
    · rintro ⟨heq, -⟩
      exact .inr (congrArg _ heq)
  | entry entry =>
    constructor
    · rintro (hdropped | heq)
      · obtain ⟨key, hkey, hne⟩ := hsound.dropped.mp hdropped
        refine ⟨⟨key, hkey⟩, ?_⟩
        rintro ⟨key', hkey'⟩
        rw [entries_publish] at hkey'
        rcases hsound.origin hkey' with hold | hnew
        · exact hne (h.proper.injective hkey hold ▸ hkey')
        · exact absurd (h.proper.made hkey) (not_lt.mpr hnew)
      · cases heq
    · rintro ⟨⟨key, hkey⟩, hnot⟩
      refine .inl (hsound.dropped.mpr ⟨key, hkey, fun hkept => hnot ⟨key, ?_⟩⟩)
      rw [entries_publish]
      exact hkept

lemma Reclaims.publish (hpending : c.writer.pending = []) (hnodes : c.writer.nodes = []) :
    Reclaims c (c.publish op slot c.current plan) := by
  have hsound := CachePlan.sound_plan h.proper hplan
  have hnew := fun x (hx : x ∈ (c.publish op slot c.current plan).reachable) =>
    (reachable_publish h hplan slot hx).imp_right h.fresh
  have hrelink : Step c.epochs _ := .relink _ hnew
  refine ⟨_, plan.superseded.map .entry, .inr hrelink, ?_, ?_, fun x hx => ?_⟩
  · refine State.ext rfl rfl rfl ?_ rfl ?_ rfl rfl
    · ext x
      have hdropped := dropped_publish h hplan slot x
      simp only [epochs, State.discard, hpending, nil_append, Set.mem_union,
        Set.mem_sdiff, Set.mem_ofPred_eq, ← hdropped]
      rw [LockFreeCache.publish, CacheWriter.pending, mem_append, or_comm]
    · exact held_writer_same rfl hnodes.symm
  · exact hsound.superseded_nodup.map fun _ _ heq => CacheResource.entry.inj heq
  · obtain ⟨entry, hentry, rfl⟩ := mem_map.mp hx
    obtain ⟨hle, hlt, hnot⟩ := hsound.superseded entry hentry
    refine ⟨fresh_step (h.fresh (not_lt.mpr hle)) hrelink ?_, ?_⟩
    · rintro ⟨key, hkey⟩
      rw [entries_publish] at hkey
      exact hnot key hkey
    · rw [Made, LockFreeCache.publish, length_append]
      exact hlt

end Publish

lemma epochs_of_writer {c : LockFreeCache K V} {w w' : CacheWriter K V} (hw : c.writer = w)
    (hpending : w'.pending = w.pending) (hnodes : w'.nodes = w.nodes) :
    { c with writer := w' }.epochs = c.epochs := by
  subst hw
  refine State.ext rfl rfl rfl ?_ rfl ?_ rfl rfl
  · simp only [epochs, hpending]
  · exact held_writer_same rfl hnodes

lemma Reclaims.stepWriter {c : LockFreeCache K V} (h : c.Consistent) (free : Fin 128)
    (acquired : Bool) : Reclaims c (c.stepWriter free acquired) := by
  have hready := h.writer
  have hpending := h.pending
  rw [WriterReady] at hready
  rw [LockFreeCache.stepWriter]
  rcases hw : c.writer with _ | op | ⟨op, epoch⟩ | ⟨op, slot⟩ | ⟨op, slot, old⟩ | ⟨op, slot, old, plan⟩ |
    ⟨slot, _ | ⟨x, dropped⟩, reserved, restore⟩ | ⟨slot, node, dropped, reserved, restore⟩ |
    ⟨slot, restore⟩ | slot | ⟨slot, again⟩
  · exact Reclaims.of_eq rfl
  · refine Reclaims.of_eq (epochs_of_writer hw rfl rfl)
  · simp only [hw] at hready
    simp only
    split_ifs with hfree
    · refine Reclaims.of_step ?_
      convert Step.pin (s := c.epochs) free epoch hfree hready using 1
      exact epochs_of_writer (c := c.setSlot free (some epoch)) hw rfl rfl
    · exact Reclaims.of_eq rfl
  · exact Reclaims.of_eq (epochs_of_writer hw rfl rfl)
  · simp only
    split
    · exact Reclaims.of_eq (epochs_of_writer hw rfl rfl)
    · refine Reclaims.of_eq (epochs_of_writer hw ?_ ?_)
      · split_ifs <;> rfl
      · split_ifs <;> rfl
  · simp only [hw] at hready
    obtain ⟨rfl, hplan⟩ := hready
    simp only [swap, if_true]
    exact Reclaims.publish h hplan slot (by rw [hw]; rfl) (by rw [hw]; rfl)
  · exact Reclaims.of_eq (epochs_of_writer hw rfl rfl)
  · have hnodup : ((x :: dropped) ++ c.leaked).Nodup := by
      rw [hw] at hpending
      exact hpending
    simp only
    split_ifs with hnode
    · refine Reclaims.of_step ?_
      have hmem : x ∈ c.epochs.unlinked := by simp [epochs, hw, CacheWriter.pending]
      convert Step.stamp (s := c.epochs) none x hmem using 1
      refine State.ext rfl rfl rfl ?_ rfl ?_ rfl rfl
      · ext y
        rw [cons_append, nodup_cons] at hnodup
        simp only [epochs, hw, CacheWriter.pending, cons_append, Set.mem_sdiff,
          Set.mem_ofPred_eq, mem_cons, Set.mem_singleton_iff]
        constructor
        · exact fun hy => ⟨.inr hy, fun heq => hnodup.1 (heq ▸ hy)⟩
        · exact fun hy => hy.1.resolve_left hy.2
      · refine held_writer rfl ?_
        simp [epochs, hw, CacheWriter.nodes]
    · refine Reclaims.of_eq (State.ext rfl rfl rfl ?_ rfl ?_ rfl rfl)
      · ext y
        simp only [epochs, hw, CacheWriter.pending, Set.mem_ofPred_eq, mem_append,
          mem_cons, not_mem_nil, or_false]
        tauto
      · refine held_writer_same rfl ?_
        simp [hw, CacheWriter.nodes]
  · refine Reclaims.of_step ?_
    have hheld : c.epochs.held none = [node] := by simp [epochs, hw, CacheWriter.nodes]
    convert Step.push (s := c.epochs) none node [] hheld using 1
    refine State.ext rfl rfl rfl ?_ rfl ?_ rfl rfl
    · simp only [epochs, hw, CacheWriter.pending]
    · exact held_writer rfl rfl
  · refine Reclaims.of_step ?_
    have hadvance : Step c.epochs _ := .advance
    convert hadvance using 1
    refine State.ext rfl rfl rfl ?_ rfl (held_writer_same rfl ?_) rfl rfl
    · cases restore <;> simp [epochs, hw, CacheWriter.pending]
    · cases restore <;> simp [hw, CacheWriter.nodes]
  · exact Reclaims.of_eq (epochs_of_writer hw rfl rfl)
  · refine Reclaims.of_step ?_
    have hunpin : Step c.epochs _ := .unpin slot
    convert hunpin using 1
    refine State.ext rfl rfl rfl ?_ rfl (held_writer_same rfl ?_) rfl rfl
    · cases again <;> simp [epochs, hw, CacheWriter.pending, setSlot]
    · cases again <;> simp [hw, CacheWriter.nodes]

lemma Reclaims.step {c : LockFreeCache K V} (h : c.Consistent) (e : CacheEvent K V) :
    Reclaims c (c.step e) := by
  cases e with
  | get r key =>
    rw [LockFreeCache.step]
    split <;> exact Reclaims.of_eq rfl
  | reader r slot => exact Reclaims.stepReader h r slot
  | release r => exact Reclaims.releaseHandle c r
  | write op =>
    rw [LockFreeCache.step]
    split
    · next hw _ => exact Reclaims.of_eq (epochs_of_writer hw rfl rfl)
    · exact Reclaims.of_eq rfl
  | writer slot acquired => exact Reclaims.stepWriter h slot acquired
  | outOfMemory =>
    rw [LockFreeCache.step]
    split
    · next hw => exact Reclaims.of_eq (epochs_of_writer hw rfl rfl)
    · exact Reclaims.of_eq rfl
  | reclaim t =>
    rw [LockFreeCache.step]
    split
    · next hidle =>
      have hseen : ({i | i.val < 0} : Set (Fin 128)) = ∅ := by simp
      refine Reclaims.of_step ?_
      rw [epochs_rescanned (by rw [hidle]; rfl), CacheReclaimer.scan, hseen]
      exact .scan (some t)
    · exact Reclaims.of_eq rfl
  | reclaimer t => exact Reclaims.stepReclaimer c t
  | setReadable readable => exact Reclaims.of_eq rfl

/-- The step has not published a map. -/
structure SameMaps (c c' : LockFreeCache K V) : Prop where
  maps : c'.maps = c.maps
  values : c'.values = c.values
  current : c'.current = c.current
  completed : c'.completed = c.completed

omit [DecidableEq K] in
lemma SameMaps.refl (c : LockFreeCache K V) : SameMaps c c := ⟨rfl, rfl, rfl, rfl⟩

/-- What a step of another thread than the writer leaves. -/
structure WriterRests (c c' : LockFreeCache K V) : Prop extends SameMaps c c' where
  writer : c'.writer = c.writer
  epoch : c'.epoch = c.epoch
  leaked : c'.leaked = c.leaked

omit [DecidableEq K] in
lemma WriterRests.refl (c : LockFreeCache K V) : WriterRests c c := ⟨.refl c, rfl, rfl, rfl⟩

lemma writerRests_stepReader (c : LockFreeCache K V) (r : ℕ) (free : Fin 128) :
    WriterRests c (c.stepReader r free) := by
  rw [stepReader]
  split
  · exact ⟨⟨rfl, rfl, rfl, rfl⟩, rfl, rfl, rfl⟩
  · exact ⟨⟨rfl, rfl, rfl, rfl⟩, rfl, rfl, rfl⟩
  · split_ifs <;> exact ⟨⟨rfl, rfl, rfl, rfl⟩, rfl, rfl, rfl⟩
  · exact ⟨⟨rfl, rfl, rfl, rfl⟩, rfl, rfl, rfl⟩
  · split <;> exact ⟨⟨rfl, rfl, rfl, rfl⟩, rfl, rfl, rfl⟩
  all_goals exact ⟨⟨rfl, rfl, rfl, rfl⟩, rfl, rfl, rfl⟩

omit [DecidableEq K] in
lemma writerRests_stepReclaimer (c : LockFreeCache K V) (t : ℕ) : WriterRests c (c.stepReclaimer t) := by
  rw [stepReclaimer]
  split
  · exact .refl c
  · split_ifs <;> exact ⟨⟨rfl, rfl, rfl, rfl⟩, rfl, rfl, rfl⟩
  · exact ⟨⟨rfl, rfl, rfl, rfl⟩, rfl, rfl, rfl⟩
  · exact ⟨⟨rfl, rfl, rfl, rfl⟩, rfl, rfl, rfl⟩
  · split_ifs <;> exact ⟨⟨rfl, rfl, rfl, rfl⟩, rfl, rfl, rfl⟩

/-- What a step of the writer keeps for itself. -/
structure WriterKeeps (c c' : LockFreeCache K V) : Prop where
  ready : c'.WriterReady
  pending : (c'.writer.pending ++ c'.leaked).Nodup
  epoch : c.epoch ≤ c'.epoch
  readers : c'.readers = c.readers

lemma WriterKeeps.publish {c : LockFreeCache K V} (h : c.Consistent) {op : CacheOperation K V}
    {plan : CachePlan K V} (hplan : op.plan (c.entries c.current) c.values.length = some plan)
    (slot : Fin 128) : WriterKeeps c (c.publish op slot c.current plan) := by
  have hsound := CachePlan.sound_plan h.proper hplan
  obtain ⟨place, hplace⟩ := h.sound.placed
  refine ⟨trivial, ?_, le_rfl, rfl⟩
  refine List.Nodup.append ?_ ((nodup_append.mp h.pending).2.1) fun x hx hleaked => ?_
  · refine List.Nodup.append hsound.dropped_nodup (nodup_singleton _) fun x hx hmap => ?_
    rw [mem_singleton.mp hmap] at hx
    exact hsound.maps _ hx
  · -- What is leaked has been taken out of use before.
    have hlinked : x ∈ c.epochs.content .linked := ((dropped_publish h hplan slot x).mp hx).1
    exact hplace.not_mem (q := .unlinked) hlinked nofun (mem_append_right _ hleaked)

lemma writerKeeps_stepWriter {c : LockFreeCache K V} (h : c.Consistent) (free : Fin 128)
    (acquired : Bool) : WriterKeeps c (c.stepWriter free acquired) := by
  have hready := h.writer
  have hpending := h.pending
  have hleaked := (nodup_append.mp hpending).2.1
  rw [WriterReady] at hready
  rw [stepWriter]
  rcases hw : c.writer with _ | op | ⟨op, epoch⟩ | ⟨op, slot⟩ | ⟨op, slot, old⟩ | ⟨op, slot, old, plan⟩ |
    ⟨slot, _ | ⟨x, dropped⟩, reserved, restore⟩ | ⟨slot, node, dropped, reserved, restore⟩ |
    ⟨slot, restore⟩ | slot | ⟨slot, again⟩
  all_goals simp only [hw, CacheWriter.pending, nil_append] at hready hpending
  · exact ⟨by rw [WriterReady, hw]; trivial, by rw [hw]; exact hpending, le_rfl, rfl⟩
  · exact ⟨le_refl c.epoch, hpending, le_rfl, rfl⟩
  · simp only
    split_ifs
    · exact ⟨trivial, hpending, le_rfl, rfl⟩
    · exact ⟨h.writer, h.pending, le_rfl, rfl⟩
  · exact ⟨rfl, hpending, le_rfl, rfl⟩
  · subst hready
    simp only
    split
    · next plan hplan => exact ⟨⟨rfl, hplan⟩, hpending, le_rfl, rfl⟩
    · split_ifs <;> exact ⟨trivial, hpending, le_rfl, rfl⟩
  · obtain ⟨rfl, hplan⟩ := hready
    simp only [swap, if_true]
    exact WriterKeeps.publish h hplan slot
  · exact ⟨trivial, hpending, le_rfl, rfl⟩
  · simp only
    split_ifs
    · exact ⟨trivial, hpending.of_cons, le_rfl, rfl⟩
    · refine ⟨trivial, ?_, le_rfl, rfl⟩
      refine hpending.perm ?_
      rw [CacheWriter.pending, ← append_assoc]
      exact (perm_append_singleton x (dropped ++ c.leaked)).symm
  · exact ⟨trivial, hpending, le_rfl, rfl⟩
  · cases restore <;> exact ⟨trivial, hpending, Nat.le_succ _, rfl⟩
  · exact ⟨trivial, hpending, le_rfl, rfl⟩
  · cases again <;> exact ⟨trivial, hpending, le_rfl, rfl⟩

lemma step_maps {c : LockFreeCache K V} (h : c.Consistent) (e : CacheEvent K V) :
    (∃ op slot plan, c.writer = .swapping op slot c.current plan ∧
      op.plan (c.entries c.current) c.values.length = some plan ∧
      c.step e = c.publish op slot c.current plan) ∨ SameMaps c (c.step e) := by
  have hsame : SameMaps c c := .refl c
  cases e with
  | reader r slot => exact .inr (writerRests_stepReader c r slot).toSameMaps
  | reclaimer t => exact .inr (writerRests_stepReclaimer c t).toSameMaps
  | writer free acquired =>
    have hready := h.writer
    rw [WriterReady] at hready
    rw [step, stepWriter]
    rcases hw : c.writer with _ | op | ⟨op, epoch⟩ | ⟨op, slot⟩ | ⟨op, slot, old⟩ |
      ⟨op, slot, old, plan⟩ | ⟨slot, _ | ⟨x, dropped⟩, reserved, restore⟩ |
      ⟨slot, node, dropped, reserved, restore⟩ | ⟨slot, restore⟩ | slot | ⟨slot, again⟩
    case swapping =>
      simp only [hw] at hready
      obtain ⟨rfl, hplan⟩ := hready
      simp only [swap, if_true]
      exact .inl ⟨op, slot, plan, rfl, hplan, rfl⟩
    case claiming =>
      simp only
      split_ifs <;> exact .inr ⟨rfl, rfl, rfl, rfl⟩
    case preparing =>
      simp only
      split <;> exact .inr ⟨rfl, rfl, rfl, rfl⟩
    case deferring.cons =>
      simp only
      split_ifs <;> exact .inr ⟨rfl, rfl, rfl, rfl⟩
    all_goals exact .inr ⟨rfl, rfl, rfl, rfl⟩
  | setReadable readable => exact .inr ⟨rfl, rfl, rfl, rfl⟩
  | release r =>
    rw [step, releaseHandle]
    split <;> exact .inr ⟨rfl, rfl, rfl, rfl⟩
  | _ =>
    rw [step]
    split <;> exact .inr ⟨rfl, rfl, rfl, rfl⟩

lemma step_writer {c : LockFreeCache K V} (h : c.Consistent) (e : CacheEvent K V) :
    (c.step e).WriterReady ∧ ((c.step e).writer.pending ++ (c.step e).leaked).Nodup ∧
      c.epoch ≤ (c.step e).epoch := by
  have hrests : ∀ {c'}, WriterRests c c' →
      c'.WriterReady ∧ (c'.writer.pending ++ c'.leaked).Nodup ∧ c.epoch ≤ c'.epoch := by
    intro c' hc
    refine ⟨?_, ?_, hc.epoch.ge⟩
    · have hready := h.writer
      rw [WriterReady] at hready ⊢
      rw [hc.writer]
      simpa only [entries, hc.epoch, hc.current, hc.maps, hc.values] using hready
    · rw [hc.writer, hc.leaked]
      exact h.pending
  cases e with
  | reader r slot => exact hrests (writerRests_stepReader c r slot)
  | reclaimer t => exact hrests (writerRests_stepReclaimer c t)
  | writer free acquired =>
    have hkeeps := writerKeeps_stepWriter h free acquired
    exact ⟨hkeeps.ready, hkeeps.pending, hkeeps.epoch⟩
  | setReadable readable => exact hrests ⟨⟨rfl, rfl, rfl, rfl⟩, rfl, rfl, rfl⟩
  | release r =>
    rw [step, releaseHandle]
    split <;> exact hrests ⟨⟨rfl, rfl, rfl, rfl⟩, rfl, rfl, rfl⟩
  | write op =>
    rw [step]
    split
    · next hw _ =>
      have hpending := h.pending
      rw [hw] at hpending
      exact ⟨trivial, hpending, le_rfl⟩
    · exact hrests (.refl c)
  | outOfMemory =>
    rw [step]
    split
    · next hw =>
      have hpending := h.pending
      rw [hw] at hpending
      exact ⟨trivial, hpending, le_rfl⟩
    · exact hrests (.refl c)
  | _ =>
    rw [step]
    split <;> exact hrests ⟨⟨rfl, rfl, rfl, rfl⟩, rfl, rfl, rfl⟩

lemma readers_stepReader {c : LockFreeCache K V} (r : ℕ) (free : Fin 128) :
    ∃ reader, (c.stepReader r free).readers = update c.readers r reader ∧
      ∀ key epoch, reader = .claiming key epoch → epoch = c.epoch ∨ c.readers r = reader := by
  rw [stepReader]
  cases hr : c.readers r with
  | entering key => exact ⟨_, rfl, fun _ _ heq => by cases heq; exact .inl rfl⟩
  | claiming key epoch =>
    simp only
    split_ifs
    · exact ⟨_, rfl, nofun⟩
    · exact ⟨_, (update_eq_self_iff.mpr hr.symm).symm, fun _ _ _ => .inr rfl⟩
  | checking key =>
    refine ⟨_, rfl, fun _ _ heq => ?_⟩
    split_ifs at heq
  | looking key slot map =>
    simp only
    split <;> exact ⟨_, rfl, nofun⟩
  | counting key slot entry =>
    refine ⟨_, rfl, fun _ _ heq => ?_⟩
    split_ifs at heq
  | loading key slot => exact ⟨_, rfl, nofun⟩
  | missing slot => exact ⟨_, rfl, nofun⟩
  | idle => exact ⟨_, (update_eq_self_iff.mpr hr.symm).symm, nofun⟩
  | holding slot entry => exact ⟨_, (update_eq_self_iff.mpr hr.symm).symm, nofun⟩
  | notFound => exact ⟨_, (update_eq_self_iff.mpr hr.symm).symm, nofun⟩

lemma readers_step {c : LockFreeCache K V} (h : c.Consistent) (e : CacheEvent K V) :
    ∃ r reader, (c.step e).readers = update c.readers r reader ∧
      ∀ key epoch, reader = .claiming key epoch → epoch = c.epoch ∨ c.readers r = reader := by
  have hsame : ∀ {c' : LockFreeCache K V}, c'.readers = c.readers → ∃ r reader,
      c'.readers = update c.readers r reader ∧
        ∀ key epoch, reader = .claiming key epoch → epoch = c.epoch ∨ c.readers r = reader :=
    fun heq => ⟨0, c.readers 0, heq.trans (update_eq_self 0 _).symm, fun _ _ _ => .inr rfl⟩
  cases e with
  | reader r slot =>
    obtain ⟨reader, hreader⟩ := readers_stepReader (c := c) r slot
    exact ⟨r, reader, hreader⟩
  | get r key =>
    rw [step]
    split
    · exact ⟨r, _, rfl, nofun⟩
    · exact ⟨r, _, rfl, nofun⟩
    · exact hsame rfl
  | release r =>
    rw [step, releaseHandle]
    split
    · exact ⟨r, _, rfl, nofun⟩
    · exact hsame rfl
  | writer free acquired => exact hsame (writerKeeps_stepWriter h free acquired).readers
  | reclaimer t =>
    refine hsame ?_
    rw [step, stepReclaimer]
    split
    · rfl
    · split_ifs <;> rfl
    · rfl
    · rfl
    · split_ifs <;> rfl
  | setReadable readable => exact hsame rfl
  | _ =>
    rw [step]
    split <;> exact hsame rfl

lemma Consistent.step {c : LockFreeCache K V} (h : c.Consistent) (e : CacheEvent K V) :
    (c.step e).Consistent := by
  obtain ⟨hwriter, hpending, hepoch⟩ := step_writer h e
  obtain ⟨m, xs, hm, hepochs, hnodup, hxs⟩ := Reclaims.step h e
  have hmaps : (c.step e).current < (c.step e).maps.length ∧
      CachePlan.Proper ((c.step e).entries (c.step e).current) (c.step e).values.length ∧
      ∀ x, c.Made x → (c.step e).Made x := by
    rcases step_maps h e with ⟨op, slot, plan, -, hplan, hstep⟩ | hsame
    · rw [hstep]
      refine ⟨by simp [publish], ?_, fun x hx => ?_⟩
      · rw [entries_publish]
        simpa [publish] using (CachePlan.sound_plan h.proper hplan).proper
      · cases x <;> simp only [Made, publish, length_append] at hx ⊢ <;> omega
    · have hentries : (c.step e).entries (c.step e).current = c.entries c.current := by
        simp only [entries, hsame.maps, hsame.current]
      refine ⟨by rw [hsame.current, hsame.maps]; exact h.current,
        by rw [hentries, hsame.values]; exact h.proper, fun x hx => ?_⟩
      cases x <;> simpa only [Made, hsame.maps, hsame.values] using hx
  refine ⟨hmaps.1, hmaps.2.1, hwriter, fun r key epoch hr => ?_, hpending, fun x hx => ?_, ?_⟩
  · obtain ⟨r', reader, hreaders, hreader⟩ := readers_step h e
    rw [hreaders, update_apply] at hr
    split_ifs at hr with heq
    · rcases hreader key epoch hr with rfl | hold
      · exact hepoch
      · exact (h.readers r' key epoch (hold.trans hr)).trans hepoch
    · exact (h.readers r key epoch hr).trans hepoch
  · by_contra hmade
    rw [hepochs] at hx
    refine hx (fresh_discard ?_ fun hmem => hmade (hxs x hmem).2)
    have hfresh := h.fresh fun hmade' => hmade (hmaps.2.2 x hmade')
    rcases hm with rfl | hstep
    · exact hfresh
    · refine fresh_step hfresh hstep fun hlinked => hmade ?_
      have hreachable : x ∈ (c.step e).reachable := by
        change x ∈ (c.step e).epochs.linked
        rw [hepochs]
        exact hlinked
      cases x with
      | map map =>
        cases hreachable
        exact hmaps.1
      | entry entry =>
        obtain ⟨key, hkey⟩ := hreachable
        exact hmaps.2.1.made hkey
  · rw [hepochs]
    refine Sound.discard ?_ (fun x hx => (hxs x hx).1) hnodup
    rcases hm with rfl | hstep
    · exact h.sound
    · exact h.sound.step hstep

lemma consistent_init : ({} : LockFreeCache K V).Consistent where
  current := Nat.zero_lt_one
  proper := ⟨List.Pairwise.nil, nofun, nofun⟩
  writer := trivial
  readers := nofun
  pending := nodup_nil
  made x hx := by
    by_contra hmade
    refine hx fun p hp => hmade ?_
    cases p with
    | linked =>
      cases x with
      | map map =>
        cases hp
        exact Nat.zero_lt_one
      | entry entry =>
        obtain ⟨key, hkey⟩ := hp
        cases hkey
    | held t => cases t <;> cases hp
    | _ => cases hp
  sound := Sound.init (fun _ => rfl) (Set.eq_empty_of_forall_notMem fun _ hx =>
    not_mem_nil hx) rfl (fun t => by cases t <;> rfl) (fun t => by cases t <;> rfl) rfl

end LockFreeCache

end ZyncBase
