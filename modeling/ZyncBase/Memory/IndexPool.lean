import Mathlib.Data.List.Nodup
import Mathlib.Tactic.SplitIfs
import ZyncBase.Lib.Machine

/-! The pool of nodes that threads share without a lock, by its atomic steps: a list of free array slots
under a tagged head, a counter for the slots that were never used, and heap nodes when there are none. -/
namespace ZyncBase

open Function List

inductive PoolNode where
  | slot (i : ℕ)
  | heap (n : ℕ)
  deriving DecidableEq, Repr

/-- Where a thread is. A head that it has loaded stands with the version of the head. -/
inductive PoolPhase where
  | idle
  | popping (i version : ℕ)
  | popReady (i : ℕ) (next : Option ℕ) (version : ℕ)
  | fresh
  | overflow
  | pushing (i : ℕ) (head : Option ℕ) (version : ℕ)
  | pushReady (i : ℕ) (head : Option ℕ) (version : ℕ)

/-- The slot that the thread is putting back. -/
def PoolPhase.held : PoolPhase → Option ℕ
  | pushing i .. | pushReady i .. => some i
  | _ => none

/-- The changes of the head and the additions to `initialized_count` are counted in full. The words have the
last 32 bits of them, the tag and the fresh index. `handles` are the nodes that were handed out and not
given back. -/
structure IndexPool (T : Type) where
  capacity : ℕ
  head : Option ℕ := none
  version : ℕ := 0
  next : ℕ → Option ℕ := fun _ => none
  issued : ℕ := 0
  created : ℕ := 0
  phase : T → PoolPhase := fun _ => .idle
  handles : List PoolNode := []
  freed : List ℕ := []

/-- An atomic step may fail: a weak exchange without a reason, an allocation for want of memory. -/
inductive PoolEvent (T : Type) where
  | acquire (t : T)
  | release (t : T) (node : PoolNode)
  | advance (t : T) (fails : Bool)

def PoolEvent.thread {T : Type} : PoolEvent T → T
  | acquire t | release t _ | advance t _ => t

namespace IndexPool

variable {T : Type}

/-- What a thread that pops does about the head that it loads. -/
def loadHead (s : IndexPool T) : PoolPhase :=
  match s.head with
  | none => .fresh
  | some i => .popping i s.version

/-- The word of the head has the index and the tag that were loaded. -/
def unchanged (s : IndexPool T) (head : Option ℕ) (version : ℕ) : Bool :=
  s.head = head && s.version % UInt32.size = version % UInt32.size

section Steps

variable [DecidableEq T]

def goto (s : IndexPool T) (t : T) (p : PoolPhase) : IndexPool T :=
  { s with phase := Function.update s.phase t p }

def acquire (s : IndexPool T) (t : T) : IndexPool T :=
  match s.phase t with
  | .idle => s.goto t s.loadHead
  | _ => s

/-- The head goes to a client, unlinked. -/
def popHead (s : IndexPool T) (i : ℕ) (next : Option ℕ) : IndexPool T :=
  { s with head := next, version := s.version + 1, handles := .slot i :: s.handles }

/-- A slot that was never used goes to a client. -/
def issueSlot (s : IndexPool T) (i : ℕ) : IndexPool T :=
  { s with
    issued := s.issued + 1
    next := Function.update s.next i none
    handles := .slot i :: s.handles }

def returnSlot (s : IndexPool T) (t : T) (i : ℕ) : IndexPool T :=
  { s with handles := s.handles.erase (.slot i) }.goto t (.pushing i s.head s.version)

def pushHead (s : IndexPool T) (t : T) (i : ℕ) : IndexPool T :=
  { s with head := some i, version := s.version + 1 }.goto t .idle

/-- A node that was handed out is given back, a slot for the list and a heap node to be destroyed. -/
def release (s : IndexPool T) (t : T) (node : PoolNode) : IndexPool T :=
  match s.phase t with
  | .idle =>
    if node ∈ s.handles then
      match node with
      | .slot i => s.returnSlot t i
      | .heap n => { s with handles := s.handles.erase (.heap n), freed := n :: s.freed }
    else s
  | _ => s

def advance (s : IndexPool T) (t : T) (fails : Bool) : IndexPool T :=
  match s.phase t with
  | .idle => s
  | .popping i version => s.goto t (.popReady i (s.next i) version)
  | .popReady i next version =>
    if !fails && s.unchanged (some i) version then (s.popHead i next).goto t .idle
    else s.goto t s.loadHead
  | .fresh =>
    let i := s.issued % UInt32.size
    if i < s.capacity then (s.issueSlot i).goto t .idle
    else { s with issued := s.issued + 1 }.goto t .overflow
  | .overflow =>
    if fails then s.goto t .idle
    else
      { s with created := s.created + 1, handles := .heap s.created :: s.handles }.goto t .idle
  | .pushing i head version =>
    { s with next := Function.update s.next i head }.goto t (.pushReady i head version)
  | .pushReady i head version =>
    if !fails && s.unchanged head version then s.pushHead t i
    else s.goto t (.pushing i s.head s.version)

def step (s : IndexPool T) : PoolEvent T → IndexPool T
  | .acquire t => s.acquire t
  | .release t node => s.release t node
  | .advance t fails => s.advance t fails

end Steps

/-- A fresh index of the array is not one that the counter reaches for a second time, and a head that
passes for the one which a thread loaded to pop it is that one, not its slot with the tag come round. -/
def Unwrapped (s : IndexPool T) : PoolEvent T → Prop
  | .advance t _ =>
    (s.phase t = .fresh → s.issued % UInt32.size < s.capacity → s.issued < UInt32.size) ∧
      ∀ i next version, s.phase t = .popReady i next version → s.unchanged (some i) version →
        s.version = version
  | _ => True

def Linked (next : ℕ → Option ℕ) : Option ℕ → List ℕ → Prop
  | head, [] => head = none
  | head, i :: rest => head = some i ∧ Linked next (next i) rest

/-- No node is handed out twice at a time, and a heap node is freed once, when it is given back. -/
structure Distinct (s : IndexPool T) : Prop where
  handles : s.handles.Nodup
  freed : s.freed.Nodup
  heap : ∀ n, n < s.created ↔ .heap n ∈ s.handles ∨ n ∈ s.freed
  gone : ∀ n ∈ s.freed, .heap n ∉ s.handles

/-- Slots that are handed out are below the capacity, and those that were are on the list again or on
their way there. -/
structure Exclusive (s : IndexPool T) : Prop extends Distinct s where
  in_range : ∀ i, .slot i ∈ s.handles → i < s.capacity
  returned : ∀ i < min s.capacity s.issued, .slot i ∈ s.handles ∨
    (∃ t, (s.phase t).held = some i) ∨ ∃ free, Linked s.next s.head free ∧ free.Nodup ∧ i ∈ free

inductive SlotPlace (T : Type) where
  | unused
  | listed
  | out
  | held (t : T)

/-- What a thread knows of the list. -/
def Current (s : IndexPool T) : PoolPhase → Prop
  | .popping i version => version ≤ s.version ∧ (version = s.version → s.head = some i)
  | .popReady i next version =>
    version ≤ s.version ∧ (version = s.version → s.head = some i ∧ s.next i = next)
  | .pushReady i head _ => s.next i = head
  | _ => True

/-- Every slot is in one place. -/
structure Placed (s : IndexPool T) (place : ℕ → SlotPlace T) (free : List ℕ) : Prop where
  listed : ∀ i, i ∈ free ↔ place i = .listed
  out : ∀ i, .slot i ∈ s.handles ↔ place i = .out
  held : ∀ t i, (s.phase t).held = some i ↔ place i = .held t
  unused : ∀ i, min s.capacity s.issued ≤ i ↔ place i = .unused

/-- The list, what the threads know of it, and all nodes are accounted for. -/
structure Accounted (s : IndexPool T) (place : ℕ → SlotPlace T) (free : List ℕ) : Prop
    extends Placed s place free, Distinct s where
  linked : Linked s.next s.head free
  nodup : free.Nodup
  current : ∀ t, s.Current (s.phase t)

lemma Placed.move {s : IndexPool T} {place : ℕ → SlotPlace T} {free : List ℕ}
    (h : s.Placed place free) (s' : IndexPool T) (free' : List ℕ) (i : ℕ) (p : SlotPlace T)
    (hi : (i ∈ free' ↔ p = .listed) ∧ (.slot i ∈ s'.handles ↔ p = .out) ∧
      (∀ t, (s'.phase t).held = some i ↔ p = .held t) ∧
      (min s'.capacity s'.issued ≤ i ↔ p = .unused))
    (hother : ∀ j ≠ i, (j ∈ free' ↔ j ∈ free) ∧ (.slot j ∈ s'.handles ↔ .slot j ∈ s.handles) ∧
      (∀ t, (s'.phase t).held = some j ↔ (s.phase t).held = some j) ∧
      (min s'.capacity s'.issued ≤ j ↔ min s.capacity s.issued ≤ j)) :
    s'.Placed (update place i p) free' := by
  refine ⟨fun j => ?_, fun j => ?_, fun t j => ?_, fun j => ?_⟩
  all_goals
    rw [update_apply]
    split_ifs with hj
  · exact hj ▸ hi.1
  · exact (hother j hj).1.trans (h.listed j)
  · exact hj ▸ hi.2.1
  · exact (hother j hj).2.1.trans (h.out j)
  · exact hj ▸ hi.2.2.1 t
  · exact ((hother j hj).2.2.1 t).trans (h.held t j)
  · exact hj ▸ hi.2.2.2
  · exact (hother j hj).2.2.2.trans (h.unused j)

lemma Current.newer {s s' : IndexPool T} {p : PoolPhase} (h : s.Current p)
    (hversion : s'.version = s.version + 1) (hnext : s'.next = s.next) : s'.Current p := by
  cases p with
  | popping i version => exact ⟨by have := h.1; omega, fun _ => by have := h.1; omega⟩
  | popReady i next version => exact ⟨by have := h.1; omega, fun _ => by have := h.1; omega⟩
  | pushReady i head version => exact (congrFun hnext i).trans h
  | _ => trivial

lemma linked_update {next : ℕ → Option ℕ} {head : Option ℕ} {free : List ℕ} {j : ℕ} {x : Option ℕ}
    (hj : j ∉ free) (h : Linked next head free) : Linked (update next j x) head free := by
  induction free generalizing head with
  | nil => exact h
  | cons i rest ih =>
    obtain ⟨hne, hrest⟩ := not_or.mp (mem_cons.not.mp hj)
    refine ⟨h.1, ?_⟩
    rw [update_of_ne (Ne.symm hne)]
    exact ih hrest h.2

lemma Distinct.take {s : IndexPool T} {i : ℕ} (h : s.Distinct) (hi : .slot i ∉ s.handles) :
    (.slot i :: s.handles).Nodup ∧ (∀ n, n < s.created ↔ .heap n ∈ .slot i :: s.handles ∨ n ∈ s.freed) ∧
      ∀ n ∈ s.freed, .heap n ∉ .slot i :: s.handles :=
  ⟨nodup_cons.mpr ⟨hi, h.handles⟩, fun n => by simpa using h.heap n,
    fun n hn => by simpa using h.gone n hn⟩

namespace Accounted

variable {s : IndexPool T} {place : ℕ → SlotPlace T} {free : List ℕ} {t : T} {i : ℕ}

lemma exclusive (h : s.Accounted place free) : s.Exclusive where
  toDistinct := h.toDistinct
  in_range i hi := by
    have hplace := (h.out i).mp hi
    by_contra hge
    rw [(h.unused i).mp (by omega)] at hplace
    cases hplace
  returned i hi := by
    cases hplace : place i with
    | unused => exact absurd ((h.unused i).mpr hplace) (by omega)
    | listed => exact .inr (.inr ⟨free, h.linked, h.nodup, (h.listed i).mpr hplace⟩)
    | out => exact .inl ((h.out i).mpr hplace)
    | held t => exact .inr (.inl ⟨t, (h.held t i).mpr hplace⟩)

lemma store (h : s.Accounted place free) {j : ℕ} (hlisted : place j ≠ .listed)
    (hready : ∀ t head version, s.phase t ≠ .pushReady j head version) (x : Option ℕ) :
    { s with next := update s.next j x }.Accounted place free := by
  refine { h with linked := linked_update (mt (h.listed j).mp hlisted) h.linked, current := fun t' => ?_ }
  have hcurrent := h.current t'
  cases hphase : s.phase t' with
  | popReady i next version =>
    rw [hphase] at hcurrent
    refine ⟨hcurrent.1, fun hversion => ?_⟩
    obtain ⟨hhead, hnext⟩ := hcurrent.2 hversion
    have hmem : i ∈ free := by
      have hlinked := h.linked
      rw [hhead] at hlinked
      cases free with
      | nil => cases hlinked
      | cons a rest => exact mem_cons.mpr (.inl (Option.some.inj hlinked.1))
    refine ⟨hhead, (update_of_ne ?_ _ _).trans hnext⟩
    rintro rfl
    exact hlisted ((h.listed i).mp hmem)
  | pushReady i head version =>
    rw [hphase] at hcurrent
    refine (update_of_ne ?_ _ _).trans hcurrent
    rintro rfl
    exact hready t' head version hphase
  | _ => rw [hphase] at hcurrent; exact hcurrent

lemma not_ready (h : s.Accounted place free) (hi : ∀ t, place i ≠ .held t) (t : T)
    (head : Option ℕ) (version : ℕ) : s.phase t ≠ .pushReady i head version := by
  intro hphase
  exact hi t ((h.held t i).mp (by rw [hphase]; rfl))

lemma pop (h : s.Accounted place free) (hhead : s.head = some i) :
    (s.popHead i (s.next i)).Accounted (update place i .out) free.tail := by
  obtain _ | ⟨a, rest⟩ := free
  · cases hhead.symm.trans h.linked
  obtain ⟨ha, hrest⟩ := h.linked
  obtain rfl : a = i := Option.some.inj (ha.symm.trans hhead)
  obtain ⟨hnot, hnodup⟩ := nodup_cons.mp h.nodup
  have hplace := (h.listed a).mp mem_cons_self
  have hmoved := h.toPlaced.move (s.popHead a (s.next a)) rest a .out
    ⟨by simp [hnot], by simp [popHead], fun t => by simp [popHead, h.held, hplace],
      by simp [popHead, h.unused, hplace]⟩
    fun j hj => ⟨by simp [hj], by simp [popHead, hj], fun t => Iff.rfl, Iff.rfl⟩
  obtain ⟨hhandles, hheap, hgone⟩ := h.toDistinct.take (by simp [h.out, hplace] : .slot a ∉ s.handles)
  exact ⟨hmoved, ⟨hhandles, h.freed, hheap, hgone⟩, hrest, hnodup, fun t => (h.current t).newer rfl rfl⟩

lemma issue (h : s.Accounted place free) (hroom : s.issued < s.capacity) :
    (s.issueSlot s.issued).Accounted (update place s.issued .out) free := by
  have hplace : place s.issued = .unused := (h.unused _).mp (by omega)
  have hstored := h.store (j := s.issued) (by simp [hplace]) (h.not_ready (by simp [hplace])) none
  have hmoved := h.toPlaced.move (s.issueSlot s.issued) free s.issued .out
    ⟨by simp [h.listed, hplace], by simp [issueSlot], fun t => by simp [issueSlot, h.held, hplace],
      by simp [issueSlot]; omega⟩
    fun j hj => ⟨Iff.rfl, by simp [issueSlot, hj], fun t => Iff.rfl, by dsimp only [issueSlot]; omega⟩
  obtain ⟨hhandles, hheap, hgone⟩ := h.toDistinct.take (by simp [h.out, hplace] : .slot s.issued ∉ s.handles)
  exact ⟨hmoved, ⟨hhandles, h.freed, hheap, hgone⟩, hstored.linked, h.nodup, hstored.current⟩

lemma issue_full (h : s.Accounted place free) (hfull : s.capacity ≤ s.issued) :
    Accounted { s with issued := s.issued + 1 } place free :=
  { h with unused := fun i => by rw [← h.unused i]; dsimp only; omega }

lemma allocate (h : s.Accounted place free) :
    Accounted { s with created := s.created + 1, handles := .heap s.created :: s.handles } place
      free := by
  have hnew := mt (h.heap s.created).mpr (Nat.lt_irrefl _)
  rw [not_or] at hnew
  refine
    { h with
      out := fun i => by simpa using h.out i
      handles := nodup_cons.mpr ⟨hnew.1, h.handles⟩
      heap := fun n => ?_
      gone := fun n hn => ?_ }
  · have hn := h.heap n
    simp only [mem_cons, PoolNode.heap.injEq, or_assoc, ← hn]
    omega
  · simp only [mem_cons, PoolNode.heap.injEq, not_or]
    exact ⟨fun he => hnew.2 (he ▸ hn), h.gone n hn⟩

lemma destroy (h : s.Accounted place free) {n : ℕ} (hn : .heap n ∈ s.handles) :
    Accounted { s with handles := s.handles.erase (.heap n), freed := n :: s.freed } place free := by
  have hmem {node : PoolNode} : node ∈ s.handles.erase (.heap n) ↔ node ≠ .heap n ∧ node ∈ s.handles :=
    h.handles.mem_erase_iff
  refine
    { h with
      out := fun i => by simpa [hmem] using h.out i
      handles := h.handles.erase _
      freed := nodup_cons.mpr ⟨fun hfreed => h.gone n hfreed hn, h.freed⟩
      heap := fun m => ?_
      gone := fun m hm => ?_ }
  · rw [h.heap m]
    by_cases he : m = n
    · simp [hmem, he, hn]
    · simp [hmem, he]
  · rcases mem_cons.mp hm with rfl | hm
    · simp [hmem]
    · exact fun hout => h.gone m hm (hmem.mp hout).2

section Threads

variable [DecidableEq T]

lemma phase_goto (s : IndexPool T) (t t' : T) (p : PoolPhase) :
    (s.goto t p).phase t' = if t' = t then p else s.phase t' := update_apply ..

lemma current_goto {p : PoolPhase} (h : ∀ t', s.Current (s.phase t')) (hp : s.Current p) (t' : T) :
    (s.goto t p).Current ((s.goto t p).phase t') := by
  rw [phase_goto]
  split_ifs
  · exact hp
  · exact h t'

lemma goto (h : s.Accounted place free) {p q : PoolPhase} (ht : s.phase t = q) (hheld : q.held = p.held)
    (hp : s.Current p) : (s.goto t p).Accounted place free := by
  refine { h with held := fun t' i => ?_, current := current_goto h.current hp }
  rw [phase_goto, ← h.held]
  split_ifs with htt
  · rw [htt, ht, hheld]
  · rfl

lemma handBack (h : s.Accounted place free) (hi : .slot i ∈ s.handles) (ht : s.phase t = .idle) :
    (s.returnSlot t i).Accounted (update place i (.held t)) free := by
  have hplace := (h.out i).mp hi
  have hmem {node : PoolNode} : node ∈ s.handles.erase (.slot i) ↔ node ≠ .slot i ∧ node ∈ s.handles :=
    h.handles.mem_erase_iff
  have hmoved := h.toPlaced.move (s.returnSlot t i) free i (.held t)
    ⟨by simp [h.listed, hplace], by simp [returnSlot, IndexPool.goto, hmem], fun t' => ?_,
      by simp [returnSlot, IndexPool.goto, h.unused, hplace]⟩
    fun j hj => ⟨Iff.rfl, by simp [returnSlot, IndexPool.goto, hmem, hj], fun t' => ?_, Iff.rfl⟩
  · exact ⟨hmoved, ⟨h.handles.erase _, h.freed, fun n => by
      simpa [returnSlot, IndexPool.goto, hmem] using h.heap n,
      fun n hn hout => h.gone n hn (hmem.mp hout).2⟩, h.linked, h.nodup, current_goto h.current trivial⟩
  · rw [returnSlot, phase_goto]
    split_ifs with htt
    · simp [PoolPhase.held, htt]
    · simpa [hplace, Ne.symm htt] using h.held t' i
  · rw [returnSlot, phase_goto]
    split_ifs with htt
    · simp [PoolPhase.held, htt, ht, Ne.symm hj]
    · rfl

lemma link (h : s.Accounted place free) {version : ℕ} (ht : s.phase t = .pushReady i s.head version) :
    (s.pushHead t i).Accounted (update place i .listed) (i :: free) := by
  have hplace : place i = .held t := (h.held t i).mp (by rw [ht]; rfl)
  have hnext : s.next i = s.head := by
    have hcurrent := h.current t
    rwa [ht] at hcurrent
  have hnot : i ∉ free := by simp [h.listed, hplace]
  have hmoved := h.toPlaced.move (s.pushHead t i) (i :: free) i .listed
    ⟨by simp, by simp [pushHead, IndexPool.goto, h.out, hplace], fun t' => ?_,
      by simp [pushHead, IndexPool.goto, h.unused, hplace]⟩
    fun j hj => ⟨by simp [hj], Iff.rfl, fun t' => ?_, Iff.rfl⟩
  · exact ⟨hmoved, ⟨h.handles, h.freed, h.heap, h.gone⟩, ⟨rfl, hnext.symm ▸ h.linked⟩,
      nodup_cons.mpr ⟨hnot, h.nodup⟩,
      current_goto (s := { s with head := some i, version := s.version + 1 })
        (fun t' => (h.current t').newer rfl rfl) trivial⟩
  · rw [pushHead, phase_goto]
    split_ifs with htt
    · simp [PoolPhase.held]
    · simpa [hplace, Ne.symm htt] using h.held t' i
  · rw [pushHead, phase_goto]
    split_ifs with htt
    · simp [PoolPhase.held, htt, ht, Ne.symm hj]
    · rfl

lemma step (h : s.Accounted place free) {e : PoolEvent T} (he : s.Unwrapped e) :
    ∃ place' free', (s.step e).Accounted place' free' := by
  have hload : s.loadHead.held = none ∧ s.Current s.loadHead := by
    unfold loadHead
    cases hhead : s.head with
    | none => exact ⟨rfl, trivial⟩
    | some i => exact ⟨rfl, Nat.le_refl _, fun _ => hhead⟩
  cases e with
  | acquire t =>
    change ∃ _ _, (s.acquire t).Accounted _ _
    unfold IndexPool.acquire
    split
    · rename_i ht
      exact ⟨_, _, h.goto ht hload.1.symm hload.2⟩
    · exact ⟨_, _, h⟩
  | release t node =>
    change ∃ _ _, (s.release t node).Accounted _ _
    unfold IndexPool.release
    split
    · rename_i ht
      split_ifs with hnode
      · cases node with
        | slot i => exact ⟨_, _, h.handBack hnode ht⟩
        | heap n => exact ⟨_, _, h.destroy hnode⟩
      · exact ⟨_, _, h⟩
    · exact ⟨_, _, h⟩
  | advance t fails =>
    change ∃ _ _, (s.advance t fails).Accounted _ _
    have hcurrent := h.current t
    unfold IndexPool.advance
    cases ht : s.phase t with
    | idle => exact ⟨_, _, h⟩
    | popping i version =>
      rw [ht] at hcurrent
      exact ⟨_, _, h.goto ht rfl ⟨hcurrent.1, fun hv => ⟨hcurrent.2 hv, rfl⟩⟩⟩
    | popReady i next version =>
      rw [ht] at hcurrent
      dsimp only
      split_ifs with hswap
      · obtain ⟨-, hsame⟩ := Bool.and_eq_true_iff.mp hswap
        obtain ⟨hhead, rfl⟩ := hcurrent.2 (he.2 i next version ht hsame).symm
        exact ⟨_, _, (h.pop hhead).goto ht rfl trivial⟩
      · exact ⟨_, _, h.goto ht hload.1.symm hload.2⟩
    | fresh =>
      dsimp only
      split_ifs with hroom
      · have hmod : s.issued % UInt32.size = s.issued := Nat.mod_eq_of_lt (he.1 ht hroom)
        rw [hmod] at hroom ⊢
        exact ⟨_, _, (h.issue hroom).goto ht rfl trivial⟩
      · have hfull := Nat.le_trans (Nat.not_lt.mp hroom) (Nat.mod_le ..)
        exact ⟨_, _, (h.issue_full hfull).goto ht rfl trivial⟩
    | overflow =>
      dsimp only
      split_ifs
      · exact ⟨_, _, h.goto ht rfl trivial⟩
      · exact ⟨_, _, h.allocate.goto ht rfl trivial⟩
    | pushing i head version =>
      have hplace : place i = .held t := (h.held t i).mp (by rw [ht]; rfl)
      refine ⟨_, _, (h.store (j := i) (by simp [hplace]) (fun t' head' version' hready => ?_) head).goto ht
        rfl (show update s.next i head i = head from
          update_self ..)⟩
      have hheld := (h.held t' i).mp (by rw [hready]; rfl)
      obtain rfl : t = t' := SlotPlace.held.inj (hplace.symm.trans hheld)
      cases ht.symm.trans hready
    | pushReady i head version =>
      dsimp only
      split_ifs with hswap
      · simp only [unchanged, Bool.and_eq_true, decide_eq_true_eq] at hswap
        exact ⟨_, _, h.link (hswap.2.1.symm ▸ ht)⟩
      · exact ⟨_, _, h.goto ht rfl trivial⟩

end Threads
end Accounted

/-- A pool as `init` leaves it. Nodes that `pushInitial` puts on the list stand there as slots that were
acquired and given back. -/
def start (T : Type) (capacity : ℕ) : IndexPool T := { capacity := capacity }

lemma accounted_start (capacity : ℕ) : (start T capacity).Accounted (fun _ => .unused) [] where
  linked := rfl
  nodup := nodup_nil
  listed := by simp
  out := by simp [start]
  held := by simp [start, PoolPhase.held]
  unused := by simp [start]
  current := fun _ => trivial
  handles := nodup_nil
  freed := nodup_nil
  heap := by simp [start]
  gone := nofun

section Runs

variable [DecidableEq T]

lemma reacquires {s : IndexPool T} {t : T} {free : List ℕ} {i : ℕ} (h : Linked s.next s.head free)
    (ht : s.phase t = .idle) (hi : i ∈ free) : ∃ events : List (PoolEvent T),
      (∀ e ∈ events, e.thread = t) ∧ .slot i ∈ (events.foldl step s).handles := by
  induction free generalizing s with
  | nil => cases hi
  | cons a rest ih =>
    let pops : List (PoolEvent T) := [.acquire t, .advance t false, .advance t false]
    let s' := pops.foldl step s
    have hthreads : ∀ e ∈ pops, e.thread = t := by simp [pops, PoolEvent.thread]
    have hs' : s'.phase t = .idle ∧ s'.next = s.next ∧ s'.head = s.next a ∧
        s'.handles = .slot a :: s.handles := by
      simp [s', pops, step, acquire, advance, ht, goto, loadHead, h.1, unchanged, popHead]
    by_cases ha : i = a
    · refine ⟨pops, hthreads, ?_⟩
      rw [hs'.2.2.2, ha]
      exact mem_cons_self
    · obtain ⟨events, hthread, hout⟩ := ih (hs'.2.1 ▸ hs'.2.2.1 ▸ h.2) hs'.1
        ((mem_cons.mp hi).resolve_left ha)
      refine ⟨pops ++ events, forall_mem_append.mpr ⟨hthreads, hthread⟩, ?_⟩
      rw [foldl_append]
      exact hout

/-- In every run in which no fresh index and no tag comes round where it is relied on, nodes are handed
out to one client each, and slots that are back on the list can be acquired again. -/
theorem handles_exclusive (capacity : ℕ) (events : List (PoolEvent T))
    (h : Machine.Along step Unwrapped (start T capacity) events) :
    (events.foldl step (start T capacity)).Exclusive ∧
      ∀ t free i, (events.foldl step (start T capacity)).phase t = .idle →
        Linked (events.foldl step (start T capacity)).next (events.foldl step (start T capacity)).head free →
        i ∈ free → ∃ more : List (PoolEvent T), (∀ e ∈ more, e.thread = t) ∧
          .slot i ∈ (more.foldl step (events.foldl step (start T capacity))).handles := by
  obtain ⟨place, free, hrun⟩ := h.invariant (I := fun s => ∃ place free, s.Accounted place free)
    (fun s e ⟨_, _, hs⟩ he => hs.step he) ⟨_, _, accounted_start capacity⟩
  exact ⟨hrun.exclusive, fun t free i ht hlinked hi => reacquires hlinked ht hi⟩

end Runs

section Wrapped

/-- An attempt on a full pool for which there is no memory. -/
def failing : List (PoolEvent Unit) := [.acquire (), .advance () false, .advance () true]

lemma foldl_failing (n : ℕ) {s : IndexPool Unit} (hphase : s.phase () = .idle) (hhead : s.head = none)
    (hfull : ∀ k < n, s.capacity ≤ (s.issued + k) % UInt32.size) :
    (List.replicate n failing).flatten.foldl step s = { s with issued := s.issued + n } := by
  induction n generalizing s with
  | zero => rfl
  | succ n ih =>
    have hnow : ¬ s.issued % UInt32.size < s.capacity := Nat.not_lt.mpr (hfull 0 (Nat.succ_pos n))
    have hone : failing.foldl step s = { s with issued := s.issued + 1 } := by
      have hidle : update s.phase () .idle = s.phase := by
        funext
        exact hphase.symm
      simp [failing, step, acquire, advance, goto, loadHead, hphase, hhead, hnow, hidle]
    have hrest := ih (s := { s with issued := s.issued + 1 }) hphase hhead fun k hk => by
      have hk := hfull (k + 1) (by omega)
      rwa [show s.issued + (k + 1) = s.issued + 1 + k by omega] at hk
    rw [replicate_succ, flatten_cons, foldl_append, hone, hrest]
    exact congrArg (fun m => ({ s with issued := m } : IndexPool Unit))
      (by omega : s.issued + 1 + n = s.issued + (n + 1))

/-- One slot, taken, and taken again after the counter has wrapped. -/
def wrapping : List (PoolEvent Unit) :=
  [.acquire (), .advance () false] ++ (List.replicate (UInt32.size - 1) failing).flatten ++
    [.acquire (), .advance () false]

/-- One of two slots is given back, and both threads load the head to take it: the one that is late gets a
heap node. -/
def contended : List (PoolEvent Bool) :=
  [.acquire false, .advance false false, .acquire true, .advance true false,
    .release false (.slot 0), .advance false false, .advance false false,
    .acquire true, .acquire false, .advance true false, .advance false false, .advance true false,
    .advance false false, .advance false false, .advance false false]

theorem handles_exclusive_contended :
    (contended.foldl step (start Bool 2)).handles = [.heap 0, .slot 0, .slot 1] ∧
      (contended.foldl step (start Bool 2)).Exclusive := by
  have hfresh {s : IndexPool Bool} {t fails : Bool} (hissued : s.issued < UInt32.size)
      (hready : ∀ i next version, s.phase t ≠ .popReady i next version) : s.Unwrapped (.advance t fails) :=
    ⟨fun _ _ => hissued, fun i next version h => absurd h (hready i next version)⟩
  have hpop {s : IndexPool Bool} {t fails : Bool} {i version : ℕ} {next : Option ℕ} (hissued : s.issued < UInt32.size)
      (hphase : s.phase t = .popReady i next version) (hversion : s.version < UInt32.size)
      (hloaded : version < UInt32.size) : s.Unwrapped (.advance t fails) := by
    refine ⟨fun _ _ => hissued, fun i' next' version' h hsame => ?_⟩
    rw [hphase] at h
    cases h
    rw [unchanged, Bool.and_eq_true, decide_eq_true_eq, decide_eq_true_eq, Nat.mod_eq_of_lt hversion,
      Nat.mod_eq_of_lt hloaded] at hsame
    exact hsame.2
  refine ⟨rfl, (handles_exclusive 2 contended ?_).1⟩
  exact ⟨trivial, hfresh (by decide) nofun, trivial, hfresh (by decide) nofun,
    trivial, hfresh (by decide) nofun, hfresh (by decide) nofun,
    trivial, trivial, hfresh (by decide) nofun, hfresh (by decide) nofun, hpop (by decide) rfl (by decide) (by decide),
    hpop (by decide) rfl (by decide) (by decide), hfresh (by decide) nofun, hfresh (by decide) nofun, trivial⟩

theorem slot_handed_out_twice :
    ¬ ∀ events : List (PoolEvent Unit), (events.foldl step (start Unit 1)).Exclusive := by
  intro h
  have hhandles : (wrapping.foldl step (start Unit 1)).handles = [.slot 0, .slot 0] := by
    rw [wrapping, List.foldl_append, List.foldl_append, foldl_failing (UInt32.size - 1) rfl rfl fun k hk => ?_]
    · rfl
    · change 1 ≤ (1 + k) % UInt32.size
      rw [Nat.mod_eq_of_lt (by omega)]
      exact Nat.le_add_right 1 k
  have hnodup := (h wrapping).handles
  rw [hhandles] at hnodup
  exact absurd hnodup (by decide)

end Wrapped
end IndexPool
end ZyncBase
