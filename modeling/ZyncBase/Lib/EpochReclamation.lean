import Mathlib.Data.List.Nodup
import Mathlib.Data.Set.Insert
import Mathlib.Logic.Function.Basic
import Mathlib.Order.Basic

/-! Reclamation by epochs. Readers pin the epoch that they have read in a slot, what is taken out of a
shared structure is stamped with the epoch, and what is older than every pinned epoch is freed. -/
namespace EpochReclamation

open Function List

variable {R ι τ : Type*}

structure Node (R : Type*) where
  resource : R
  epoch : ℕ

/-- The oldest epoch that a thread has found so far, and the slots that it has looked at. -/
structure Scan (ι : Type*) where
  oldest : ℕ
  seen : Set ι

/-- What is linked can be reached by a reader. What has been taken out of the structure is stamped, held
by a thread, pushed to the stack, and freed by a thread that holds it. -/
@[ext] structure State (R ι τ : Type*) where
  epoch : ℕ
  slots : ι → Option ℕ
  linked : Set R
  unlinked : Set R
  stack : List (Node R)
  held : τ → List (Node R)
  scans : τ → Option (Scan ι)
  freed : List R

/-- Where a resource is. -/
inductive Place (τ : Type*) where
  | linked
  | unlinked
  | stacked
  | held (t : τ)
  | freed

def resources (ns : List (Node R)) : List R := ns.map Node.resource

namespace State

def content (s : State R ι τ) : Place τ → Set R
  | .linked => s.linked
  | .unlinked => s.unlinked
  | .stacked => {x | x ∈ resources s.stack}
  | .held t => {x | x ∈ resources (s.held t)}
  | .freed => {x | x ∈ s.freed}

def Fresh (x : R) (s : State R ι τ) : Prop := ∀ p, x ∉ s.content p

end State

open State

section Steps

variable [DecidableEq ι] [DecidableEq τ]

/-- One atomic step of a thread. The epoch that a reader pins has been read before. -/
inductive Step (s : State R ι τ) : State R ι τ → Prop
  | pin (i : ι) (e : ℕ) (hfree : s.slots i = none) (he : e ≤ s.epoch) :
    Step s { s with slots := Function.update s.slots i (some e) }
  | unpin (i : ι) : Step s { s with slots := Function.update s.slots i none }
  | relink (new : Set R) (hnew : ∀ x ∈ new, x ∈ s.linked ∨ s.Fresh x) :
    Step s { s with linked := new, unlinked := s.unlinked ∪ (s.linked \ new) }
  | stamp (t : τ) (x : R) (hx : x ∈ s.unlinked) :
    Step s { s with
      unlinked := s.unlinked \ {x}
      held := Function.update s.held t (s.held t ++ [⟨x, s.epoch⟩]) }
  | push (t : τ) (n : Node R) (rest : List (Node R)) (hheld : s.held t = n :: rest) :
    Step s { s with stack := n :: s.stack, held := Function.update s.held t rest }
  | advance : Step s { s with epoch := s.epoch + 1 }
  | scan (t : τ) : Step s { s with scans := Function.update s.scans t (some ⟨s.epoch, ∅⟩) }
  | look (t : τ) (i : ι) (sc : Scan ι) (hscan : s.scans t = some sc) :
    Step s { s with
      scans := Function.update s.scans t
        (some ⟨((s.slots i).map (min · sc.oldest)).getD sc.oldest, insert i sc.seen⟩) }
  | rest (t : τ) : Step s { s with scans := Function.update s.scans t none }
  | grab (t : τ) (hheld : s.held t = []) :
    Step s { s with stack := [], held := Function.update s.held t s.stack }
  | free (t : τ) (n : Node R) (rest : List (Node R)) (sc : Scan ι) (hheld : s.held t = n :: rest)
      (hscan : s.scans t = some sc) (hseen : ∀ i, i ∈ sc.seen) (hold : n.epoch < sc.oldest) :
    Step s { s with held := Function.update s.held t rest, freed := s.freed ++ [n.resource] }

end Steps

/-- Every resource is at one place, and there only once. -/
structure Placed (s : State R ι τ) (place : R → Option (Place τ)) : Prop where
  mem : ∀ p x, x ∈ s.content p ↔ place x = some p
  stack : (resources s.stack).Nodup
  held : ∀ t, (resources (s.held t)).Nodup
  freed : s.freed.Nodup

/-- The invariant of every run. -/
structure Sound (s : State R ι τ) : Prop where
  pinned : ∀ i e, s.slots i = some e → e ≤ s.epoch
  scanned : ∀ t sc, s.scans t = some sc → sc.oldest ≤ s.epoch
  placed : ∃ place, Placed s place

variable {s s' : State R ι τ}

variable {place : R → Option (Place τ)} {x : R}

lemma Placed.fresh_iff (h : Placed s place) : s.Fresh x ↔ place x = none := by
  simp only [Fresh, h.mem, Option.eq_none_iff_forall_ne_some]

open Classical in
lemma Sound.init (hslots : ∀ i, s.slots i = none) (hunlinked : s.unlinked = ∅)
    (hstack : s.stack = []) (hheld : ∀ t, s.held t = []) (hscans : ∀ t, s.scans t = none)
    (hfreed : s.freed = []) : Sound s := by
  refine ⟨fun i e h => ?_, fun t sc h => ?_,
    fun x => if x ∈ s.linked then some .linked else none, fun p x => ?_, ?_, fun t => ?_, ?_⟩
  · rw [hslots] at h
    cases h
  · rw [hscans] at h
    cases h
  · cases p with
    | linked => simp [content]
    | _ => simp [content, resources, hunlinked, hstack, hheld, hfreed]
  · rw [hstack]
    exact nodup_nil
  · rw [hheld]
    exact nodup_nil
  · rw [hfreed]
    exact nodup_nil

lemma Placed.move (h : Placed s place) [DecidableEq R]
    {p : Place τ} {q : Option (Place τ)} (hx : x ∈ s.content p) (hq : q ≠ some p)
    (hsource : s'.content p = s.content p \ {x}) (htarget : ∀ p' ∈ q, s'.content p' = insert x (s.content p'))
    (hothers : ∀ p', p' ≠ p → p' ∉ q → s'.content p' = s.content p')
    (hstack : (resources s'.stack).Nodup) (hheld : ∀ t, (resources (s'.held t)).Nodup)
    (hfreed : s'.freed.Nodup) : Placed s' (update place x q) where
  mem p' y := by
    have hplace := (h.mem p x).mp hx
    rw [update_apply]
    by_cases hsame : p' = p
    · subst hsame
      rw [hsource, Set.mem_sdiff, Set.mem_singleton_iff, h.mem]
      split_ifs with hy
      · exact iff_of_false (fun hmem => hmem.2 hy) hq
      · exact and_iff_left hy
    · by_cases hmem : p' ∈ q
      · rw [htarget p' hmem, Set.mem_insert_iff, h.mem]
        split_ifs with hy
        · exact iff_of_true (.inl hy) hmem
        · exact or_iff_right hy
      · rw [hothers p' hsame hmem, h.mem]
        split_ifs with hy
        · subst hy
          refine iff_of_false (fun heq => hsame ?_) hmem
          rw [hplace] at heq
          exact (Option.some_inj.mp heq).symm
        · exact Iff.rfl
  stack := hstack
  held := hheld
  freed := hfreed

lemma Placed.congr (h : Placed s place) (hlinked : s'.linked = s.linked) (hunlinked : s'.unlinked = s.unlinked)
    (hstack : s'.stack = s.stack) (hheld : s'.held = s.held) (hfreed : s'.freed = s.freed) :
    Placed s' place where
  mem p x := by
    rw [← h.mem]
    cases p <;> simp only [content, hlinked, hunlinked, hstack, hheld, hfreed]
  stack := hstack ▸ h.stack
  held := hheld ▸ h.held
  freed := hfreed ▸ h.freed

lemma Placed.not_mem (h : Placed s place) {p q : Place τ}
    (hx : x ∈ s.content p) (hne : q ≠ p) : x ∉ s.content q := by
  rw [h.mem] at hx ⊢
  rw [hx]
  exact fun heq => hne (Option.some_inj.mp heq).symm

lemma Placed.held_cons (h : Placed s place) {t : τ} {n : Node R}
    {rest : List (Node R)} (hheld : s.held t = n :: rest) :
    n.resource ∈ s.content (.held t) ∧ (resources rest).Nodup ∧
      {x | x ∈ resources rest} = s.content (.held t) \ {n.resource} := by
  have hnodup := h.held t
  rw [hheld, resources, map_cons, nodup_cons] at hnodup
  refine ⟨by simp [content, hheld, resources], hnodup.2, ?_⟩
  ext x
  simp only [content, hheld, resources, map_cons, mem_cons, Set.mem_ofPred_eq,
    Set.mem_sdiff, Set.mem_singleton_iff]
  constructor
  · exact fun hx => ⟨.inr hx, fun heq => hnodup.1 (heq ▸ hx)⟩
  · exact fun hx => hx.1.resolve_left hx.2

/-- A slot that stays pinned keeps the resource: every node of it is at least as young as the epoch in the
slot, and a thread that has looked at the slot frees no node of that age. -/
structure Kept (j : ι) (x : R) (age : ℕ) (s : State R ι τ) : Prop where
  pinned : ∃ e ∈ s.slots j, e ≤ age
  young : age ≤ s.epoch
  scans : ∀ t, ∀ sc ∈ s.scans t, j ∈ sc.seen → sc.oldest ≤ age
  stacked : ∀ n ∈ s.stack, n.resource = x → age ≤ n.epoch
  held : ∀ t, ∀ n ∈ s.held t, n.resource = x → age ≤ n.epoch
  fresh : ¬ s.Fresh x
  freed : x ∉ s.freed

lemma Sound.kept (h : Sound s) {j : ι} {e : ℕ} (hj : s.slots j = some e)
    (hx : x ∈ s.linked) : Kept j x s.epoch s := by
  obtain ⟨place, hplace⟩ := h.placed
  have hx' : x ∈ s.content .linked := hx
  refine ⟨⟨e, hj, h.pinned j e hj⟩, le_rfl, fun t sc hsc _ => h.scanned t sc hsc, ?_, ?_,
    fun hfresh => hfresh .linked hx', hplace.not_mem (q := .freed) hx' nofun⟩
  · rintro n hn rfl
    exact absurd (mem_map_of_mem hn) (hplace.not_mem (q := .stacked) hx' nofun)
  · rintro t n hn rfl
    exact absurd (mem_map_of_mem hn) (hplace.not_mem (q := .held t) hx' nofun)

section Steps

variable [DecidableEq τ]

lemma Placed.nodup_update {place : R → Option (Place τ)} (h : Placed s place) (t : τ)
    {ns : List (Node R)} (hns : (resources ns).Nodup) (t' : τ) :
    (resources (update s.held t ns t')).Nodup := by
  by_cases ht : t' = t
  · subst ht
    rw [update_self]
    exact hns
  · rw [update_of_ne ht]
    exact h.held t'

lemma content_held_of_ne {held : τ → List (Node R)} {t t' : τ} (ns : List (Node R)) (ht : t' ≠ t)
    (hs : s'.held = update held t ns) : s'.content (.held t') = {x | x ∈ resources (held t')} := by
  simp only [content, hs, update_of_ne ht]

variable [DecidableEq ι]

open Classical in
lemma Placed.step {place : R → Option (Place τ)} (h : Placed s place) (hstep : Step s s') :
    ∃ place', Placed s' place' := by
  cases hstep with
  | pin i e hfree he => exact ⟨place, h.congr rfl rfl rfl rfl rfl⟩
  | unpin i => exact ⟨place, h.congr rfl rfl rfl rfl rfl⟩
  | advance => exact ⟨place, h.congr rfl rfl rfl rfl rfl⟩
  | scan t => exact ⟨place, h.congr rfl rfl rfl rfl rfl⟩
  | rest t => exact ⟨place, h.congr rfl rfl rfl rfl rfl⟩
  | look t i sc hscan => exact ⟨place, h.congr rfl rfl rfl rfl rfl⟩
  | relink new hnew =>
    simp only [h.fresh_iff] at hnew
    refine ⟨fun x => if x ∈ new then some .linked
      else if place x = some .linked then some .unlinked else place x, fun p x => ?_,
      h.stack, h.held, h.freed⟩
    have hx := hnew x
    have hlinked := h.mem .linked x
    have hp := h.mem p x
    cases p <;> simp only [content, Set.mem_union, Set.mem_sdiff] at * <;> grind
  | stamp t x hx =>
    have hx' : x ∈ s.content .unlinked := hx
    have hheld := h.not_mem (q := .held t) hx' nofun
    refine ⟨_, h.move (q := some (.held t)) hx' nofun rfl ?_ ?_ h.stack (h.nodup_update t ?_) h.freed⟩
    · rintro _ ⟨⟩
      ext y
      simp [content, resources, or_comm]
    · intro p hp hq
      cases p with
      | unlinked => exact absurd rfl hp
      | held t' => exact content_held_of_ne _ (fun heq => hq (congrArg (some ∘ Place.held) heq.symm)) rfl
      | _ => rfl
    · rw [resources, map_append]
      exact List.Nodup.append (h.held t) (nodup_singleton _) (disjoint_singleton.mpr hheld)
  | push t n rest hheld =>
    obtain ⟨hn, hrest, hdiff⟩ := h.held_cons hheld
    have hstack := h.not_mem (q := .stacked) hn nofun
    refine ⟨_, h.move (q := some .stacked) hn nofun ?_ ?_ ?_ ?_ (h.nodup_update t hrest) h.freed⟩
    · rw [← hdiff]
      simp only [content, update_self]
    · rintro _ ⟨⟩
      ext y
      simp [content, resources]
    · intro p hp hq
      cases p with
      | held t' => exact content_held_of_ne _ (fun heq => hp (congrArg Place.held heq)) rfl
      | stacked => exact absurd rfl hq
      | _ => rfl
    · rw [resources, map_cons, nodup_cons]
      exact ⟨hstack, h.stack⟩
  | free t n rest sc hheld hscan hseen hold =>
    obtain ⟨hn, hrest, hdiff⟩ := h.held_cons hheld
    have hfreed := h.not_mem (q := .freed) hn nofun
    refine ⟨_, h.move (q := some .freed) hn nofun ?_ ?_ ?_ h.stack (h.nodup_update t hrest) ?_⟩
    · rw [← hdiff]
      simp only [content, update_self]
    · rintro _ ⟨⟩
      ext y
      simp [content, or_comm]
    · intro p hp hq
      cases p with
      | held t' => exact content_held_of_ne _ (fun heq => hp (congrArg Place.held heq)) rfl
      | freed => exact absurd rfl hq
      | _ => rfl
    · exact List.Nodup.append h.freed (nodup_singleton _) (disjoint_singleton.mpr hfreed)
  | grab t hheld =>
    refine ⟨fun x => if place x = some .stacked then some (.held t) else place x, fun p x => ?_,
      nodup_nil, h.nodup_update t h.stack, h.freed⟩
    have hempty : place x ≠ some (.held t) := by
      rw [ne_eq, ← h.mem]
      simp [content, hheld, resources]
    have hstack := h.mem .stacked x
    have hp := h.mem p x
    cases p with
    | held t' =>
      by_cases ht : t' = t
      · subst ht
        simp only [content, update_self] at *
        grind
      · rw [content_held_of_ne _ ht rfl]
        simp only [content] at hp
        grind
    | stacked =>
      simp only [content, resources, map_nil] at *
      grind
    | _ => simp only [content] at * ; grind

lemma Sound.step (h : Sound s) (hstep : Step s s') : Sound s' := by
  obtain ⟨place, hplace⟩ := h.placed
  refine ⟨?_, ?_, hplace.step hstep⟩
  · intro j e hj
    cases hstep with
    | pin i e' hfree he =>
      simp only [update_apply] at hj
      split_ifs at hj
      · cases hj
        exact he
      · exact h.pinned j e hj
    | unpin i =>
      simp only [update_apply] at hj
      split_ifs at hj
      exact h.pinned j e hj
    | advance => exact (h.pinned j e hj).trans (Nat.le_succ _)
    | _ => exact h.pinned j e hj
  · intro t' sc' hsc
    cases hstep with
    | scan t =>
      simp only [update_apply] at hsc
      split_ifs at hsc
      · cases hsc
        exact le_rfl
      · exact h.scanned t' sc' hsc
    | look t i sc hscan =>
      have hle := h.scanned t sc hscan
      simp only [update_apply] at hsc
      split_ifs at hsc
      · cases hsc
        cases hi : s.slots i with
        | none => exact hle
        | some e => exact (min_le_right _ _).trans hle
      · exact h.scanned t' sc' hsc
    | rest t =>
      simp only [update_apply] at hsc
      split_ifs at hsc
      exact h.scanned t' sc' hsc
    | advance => exact (h.scanned t' sc' hsc).trans (Nat.le_succ _)
    | _ => exact h.scanned t' sc' hsc

lemma not_fresh_step (hx : ¬ s.Fresh x) (hstep : Step s s') : ¬ s'.Fresh x := by
  simp only [Fresh, not_forall, not_not] at hx ⊢
  obtain ⟨p, hp⟩ := hx
  cases hstep with
  | relink new hnew =>
    cases p with
    | linked =>
      by_cases hmem : x ∈ new
      · exact ⟨.linked, hmem⟩
      · exact ⟨.unlinked, .inr ⟨hp, hmem⟩⟩
    | unlinked => exact ⟨.unlinked, .inl hp⟩
    | stacked => exact ⟨.stacked, hp⟩
    | held t => exact ⟨.held t, hp⟩
    | freed => exact ⟨.freed, hp⟩
  | stamp t y hy =>
    by_cases hxy : x = y
    · exact ⟨.held t, by simp [content, resources, hxy]⟩
    · refine ⟨p, ?_⟩
      cases p with
      | unlinked => exact ⟨hp, hxy⟩
      | held t' =>
        by_cases ht : t' = t
        · subst ht
          simpa [content, resources, hxy] using hp
        · rw [content_held_of_ne _ ht rfl]
          exact hp
      | _ => exact hp
  | push t n rest hheld =>
    by_cases hxn : x = n.resource
    · exact ⟨.stacked, by simp [content, resources, hxn]⟩
    · refine ⟨p, ?_⟩
      cases p with
      | stacked => exact mem_cons_of_mem _ hp
      | held t' =>
        by_cases ht : t' = t
        · subst ht
          simpa [content, resources, hheld, hxn] using hp
        · rw [content_held_of_ne _ ht rfl]
          exact hp
      | _ => exact hp
  | grab t hheld =>
    cases p with
    | stacked => exact ⟨.held t, by simpa [content] using hp⟩
    | held t' =>
      refine ⟨.held t', ?_⟩
      by_cases ht : t' = t
      · subst ht
        simp [content, resources, hheld] at hp
      · rw [content_held_of_ne _ ht rfl]
        exact hp
    | linked => exact ⟨.linked, hp⟩
    | unlinked => exact ⟨.unlinked, hp⟩
    | freed => exact ⟨.freed, hp⟩
  | free t n rest sc hheld hscan hseen hold =>
    by_cases hxn : x = n.resource
    · exact ⟨.freed, by simp [content, hxn]⟩
    · refine ⟨p, ?_⟩
      cases p with
      | freed => exact mem_append_left _ hp
      | held t' =>
        by_cases ht : t' = t
        · subst ht
          simpa [content, resources, hheld, hxn] using hp
        · rw [content_held_of_ne _ ht rfl]
          exact hp
      | _ => exact hp
  | _ => exact ⟨p, by cases p <;> exact hp⟩

lemma Kept.step {j : ι} {age : ℕ} (h : Kept j x age s) (hstep : Step s s')
    (hpinned : s'.slots j ≠ none) : Kept j x age s' := by
  have hfresh := not_fresh_step h.fresh hstep
  obtain ⟨e, he, hage⟩ := h.pinned
  cases hstep with
  | pin i e' hfree he' =>
    have hij : j ≠ i := fun heq => by rw [heq, hfree] at he; cases he
    refine ⟨⟨e, ?_, hage⟩, h.young, h.scans, h.stacked, h.held, hfresh, h.freed⟩
    simpa only [update_of_ne hij] using he
  | unpin i =>
    have hij : j ≠ i := fun heq => hpinned (by simp [heq])
    refine ⟨⟨e, ?_, hage⟩, h.young, h.scans, h.stacked, h.held, hfresh, h.freed⟩
    simpa only [update_of_ne hij] using he
  | relink new hnew =>
    exact ⟨h.pinned, h.young, h.scans, h.stacked, h.held, hfresh, h.freed⟩
  | stamp t y hy =>
    refine ⟨h.pinned, h.young, h.scans, h.stacked, fun t' n hn hnx => ?_, hfresh, h.freed⟩
    simp only [update_apply] at hn
    split_ifs at hn with ht
    · cases mem_append.mp hn with
      | inl hn => exact h.held t n hn hnx
      | inr hn =>
        rw [mem_singleton.mp hn]
        exact h.young
    · exact h.held t' n hn hnx
  | push t n rest hheld =>
    have hheld' : ∀ m ∈ n :: rest, m.resource = x → age ≤ m.epoch := hheld ▸ h.held t
    refine ⟨h.pinned, h.young, h.scans, fun m hm hmx => ?_, fun t' m hm hmx => ?_, hfresh, h.freed⟩
    · cases mem_cons.mp hm with
      | inl hm => exact hheld' m (hm ▸ mem_cons_self) hmx
      | inr hm => exact h.stacked m hm hmx
    · simp only [update_apply] at hm
      split_ifs at hm with ht
      · exact hheld' m (mem_cons_of_mem _ hm) hmx
      · exact h.held t' m hm hmx
  | advance =>
    exact ⟨h.pinned, h.young.trans (Nat.le_succ _), h.scans, h.stacked, h.held, hfresh, h.freed⟩
  | scan t =>
    refine ⟨h.pinned, h.young, fun t' sc hsc hseen => ?_, h.stacked, h.held, hfresh, h.freed⟩
    simp only [update_apply] at hsc
    split_ifs at hsc with ht
    · cases hsc
      exact absurd hseen (Set.notMem_empty j)
    · exact h.scans t' sc hsc hseen
  | look t i sc hscan =>
    refine ⟨h.pinned, h.young, fun t' sc' hsc hseen => ?_, h.stacked, h.held, hfresh, h.freed⟩
    simp only [update_apply] at hsc
    split_ifs at hsc with ht
    · cases hsc
      cases Set.mem_insert_iff.mp hseen with
      | inl hji =>
        subst hji
        rw [he]
        exact (min_le_left _ _).trans hage
      | inr hseen =>
        have hle := h.scans t sc hscan hseen
        cases s.slots i with
        | none => exact hle
        | some e' => exact (min_le_right _ _).trans hle
    · exact h.scans t' sc' hsc hseen
  | rest t =>
    refine ⟨h.pinned, h.young, fun t' sc hsc hseen => ?_, h.stacked, h.held, hfresh, h.freed⟩
    simp only [update_apply] at hsc
    split_ifs at hsc with ht
    · cases hsc
    · exact h.scans t' sc hsc hseen
  | grab t hheld =>
    refine ⟨h.pinned, h.young, h.scans, fun m hm => absurd hm not_mem_nil,
      fun t' m hm hmx => ?_, hfresh, h.freed⟩
    simp only [update_apply] at hm
    split_ifs at hm with ht
    · exact h.stacked m hm hmx
    · exact h.held t' m hm hmx
  | free t n rest sc hheld hscan hseen hold =>
    have hheld' : ∀ m ∈ n :: rest, m.resource = x → age ≤ m.epoch := hheld ▸ h.held t
    refine ⟨h.pinned, h.young, h.scans, h.stacked, fun t' m hm hmx => ?_, hfresh, fun hmem => ?_⟩
    · simp only [update_apply] at hm
      split_ifs at hm with ht
      · exact hheld' m (mem_cons_of_mem _ hm) hmx
      · exact h.held t' m hm hmx
    · cases mem_append.mp hmem with
      | inl hmem => exact h.freed hmem
      | inr hmem =>
        -- The node is as young as the slot, and the thread has looked at the slot.
        have hnode := hheld' n mem_cons_self (mem_singleton.mp hmem).symm
        have holdest := h.scans t sc hscan (hseen j)
        omega

lemma fresh_step (hx : s.Fresh x) (hstep : Step s s') (hlinked : x ∉ s'.linked) : s'.Fresh x := by
  intro p
  cases hstep with
  | relink new hnew =>
    cases p with
    | linked => exact hlinked
    | unlinked => exact fun hmem => hmem.elim (hx .unlinked) fun hmem => hx .linked hmem.1
    | stacked => exact hx .stacked
    | held t => exact hx (.held t)
    | freed => exact hx .freed
  | stamp t y hy =>
    have hxy : x ≠ y := fun heq => hx .unlinked (heq ▸ hy)
    cases p with
    | unlinked => exact fun hmem => hx .unlinked hmem.1
    | held t' =>
      by_cases ht : t' = t
      · subst ht
        simpa [content, resources, hxy] using hx (.held t')
      · rw [content_held_of_ne _ ht rfl]
        exact hx (.held t')
    | linked => exact hx .linked
    | stacked => exact hx .stacked
    | freed => exact hx .freed
  | push t n rest hheld =>
    have hxn := hx (.held t)
    simp only [content, hheld, resources, map_cons, Set.mem_ofPred_eq, mem_cons, not_or] at hxn
    cases p with
    | stacked =>
      simpa [content, resources, hxn.1] using hx .stacked
    | held t' =>
      by_cases ht : t' = t
      · subst ht
        simpa [content, resources] using hxn.2
      · rw [content_held_of_ne _ ht rfl]
        exact hx (.held t')
    | linked => exact hx .linked
    | unlinked => exact hx .unlinked
    | freed => exact hx .freed
  | grab t hheld =>
    cases p with
    | stacked => exact not_mem_nil
    | held t' =>
      by_cases ht : t' = t
      · subst ht
        simpa [content] using hx .stacked
      · rw [content_held_of_ne _ ht rfl]
        exact hx (.held t')
    | linked => exact hx .linked
    | unlinked => exact hx .unlinked
    | freed => exact hx .freed
  | free t n rest sc hheld hscan hseen hold =>
    have hxn := hx (.held t)
    simp only [content, hheld, resources, map_cons, Set.mem_ofPred_eq, mem_cons, not_or] at hxn
    cases p with
    | freed => simpa [content, hxn.1] using hx .freed
    | held t' =>
      by_cases ht : t' = t
      · subst ht
        simpa [content, resources] using hxn.2
      · rw [content_held_of_ne _ ht rfl]
        exact hx (.held t')
    | linked => exact hx .linked
    | unlinked => exact hx .unlinked
    | stacked => exact hx .stacked
  | _ =>
    have hp := hx p
    cases p <;> exact hp

end Steps

lemma Sound.freed_nodup (h : Sound s) : s.freed.Nodup := h.placed.choose_spec.freed

section Discard

variable {xs : List R}

/-- Resources that have never been in use are freed. -/
def State.discard (xs : List R) (s : State R ι τ) : State R ι τ := { s with freed := s.freed ++ xs }

lemma discard_nil (s : State R ι τ) : s.discard [] = s := by
  rw [State.discard, append_nil]

lemma content_discard {p : Place τ} : x ∈ (s.discard xs).content p ↔ x ∈ s.content p ∨ p = .freed ∧ x ∈ xs := by
  cases p <;> simp [State.content, State.discard]

open Classical in
lemma Sound.discard (h : Sound s) (hfresh : ∀ x ∈ xs, s.Fresh x) (hnodup : xs.Nodup) :
    Sound (s.discard xs) := by
  obtain ⟨place, hplace⟩ := h.placed
  refine ⟨h.pinned, h.scanned, fun x => if x ∈ xs then some .freed else place x, fun p x => ?_,
    hplace.stack, hplace.held, ?_⟩
  · rw [content_discard, hplace.mem]
    split_ifs with hx
    · have hnone := hplace.fresh_iff.mp (hfresh x hx)
      simp [hx, hnone, eq_comm]
    · simp [hx]
  · exact List.Nodup.append hplace.freed hnodup fun x hx hxs => hfresh x hxs .freed hx

lemma Kept.discard {j : ι} {age : ℕ} (h : Kept j x age s) (hfresh : ∀ x ∈ xs, s.Fresh x) :
    Kept j x age (s.discard xs) where
  pinned := h.pinned
  young := h.young
  scans := h.scans
  stacked := h.stacked
  held := h.held
  fresh hx := h.fresh fun p hp => hx p (content_discard.mpr (.inl hp))
  freed hmem := (mem_append.mp hmem).elim h.freed fun hx => h.fresh (hfresh x hx)

lemma fresh_discard (hx : s.Fresh x) (hxs : x ∉ xs) : (s.discard xs).Fresh x := by
  intro p hmem
  rcases content_discard.mp hmem with hp | ⟨-, hp⟩
  · exact hx p hp
  · exact hxs hp

end Discard

end EpochReclamation
