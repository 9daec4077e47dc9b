import Mathlib.Data.List.Pairwise
import Mathlib.Order.Lattice

/-! Logical clocks, one for each subject, and the stamps that they give in turn: a stamp is later
than all that its clock has given or has been set to. -/
namespace LogicalClock

open Function

variable {ι T : Type*} [LinearOrder T]

/-- No stamp is later than its clock, and each is later than the ones before it of its subject. -/
structure UpTo (clock : ι → T) (stamps : List (ι × T)) : Prop where
  below : ∀ e ∈ stamps, e.2 ≤ clock e.1
  increasing : stamps.Pairwise fun e e' => e.1 = e'.1 → e.2 < e'.2

/-- The stamps are given, in this order, while the clocks go from one reading to another. -/
structure Gives (clock : ι → T) (stamps : List (ι × T)) (clock' : ι → T) : Prop
    extends UpTo clock' stamps where
  le : ∀ i, clock i ≤ clock' i
  above : ∀ e ∈ stamps, clock e.1 < e.2

section Stamps

variable {clock clock' clock'' : ι → T} {stamps stamps' : List (ι × T)}

lemma UpTo.nil : UpTo clock [] := ⟨fun _ h => absurd h List.not_mem_nil, List.Pairwise.nil⟩

lemma Gives.of_le (h : ∀ i, clock i ≤ clock' i) : Gives clock [] clock' :=
  ⟨.nil, h, fun _ h => absurd h List.not_mem_nil⟩

lemma UpTo.append (h : UpTo clock stamps) (h' : Gives clock stamps' clock') :
    UpTo clock' (stamps ++ stamps') := by
  refine ⟨?_, List.pairwise_append.mpr ⟨h.increasing, h'.increasing, ?_⟩⟩
  · rw [List.forall_mem_append]
    exact ⟨fun e he => (h.below e he).trans (h'.le e.1), h'.below⟩
  · intro e he e' he' heq
    have hlast := h.below e he
    rw [heq] at hlast
    exact hlast.trans_lt (h'.above e' he')

lemma Gives.append (h : Gives clock stamps clock') (h' : Gives clock' stamps' clock'') :
    Gives clock (stamps ++ stamps') clock'' := by
  refine ⟨h.toUpTo.append h', fun i => (h.le i).trans (h'.le i), ?_⟩
  rw [List.forall_mem_append]
  exact ⟨h.above, fun e he => (h.le e.1).trans_lt (h'.above e he)⟩

lemma UpTo.reset (h : UpTo clock stamps) (hsub : stamps'.Sublist stamps)
    (hbelow : ∀ e ∈ stamps', e.2 ≤ clock' e.1) : UpTo clock' stamps' :=
  ⟨hbelow, h.increasing.sublist hsub⟩

lemma Gives.one [DecidableEq ι] {i : ι} {t : T} (h : clock i < t) :
    Gives clock [(i, t)] (update clock i t) := by
  refine ⟨⟨?_, List.pairwise_singleton _ _⟩, fun j => ?_, ?_⟩
  · rw [List.forall_mem_singleton, update_self]
  · by_cases hj : j = i
    · subst hj
      rw [update_self]
      exact h.le
    · rw [update_of_ne hj]
  · rwa [List.forall_mem_singleton]

lemma UpTo.pairwise_lt [DecidableEq ι] (h : UpTo clock stamps) (i : ι) :
    ((stamps.filter fun e => e.1 = i).map Prod.snd).Pairwise (· < ·) := by
  rw [List.pairwise_map]
  refine (h.increasing.filter _).imp_of_mem fun he he' hlt => hlt ?_
  rw [List.mem_filter, decide_eq_true_eq] at he he'
  rw [he.2, he'.2]

end Stamps
end LogicalClock
