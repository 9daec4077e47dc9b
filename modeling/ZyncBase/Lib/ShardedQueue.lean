import Mathlib.Logic.Function.Basic
import ZyncBase.Lib.Machine

/-! Queues in shards. An item goes to the shard that its value tells, and each shard has one worker,
which takes the items in turn and is done with one before it takes the next. -/
namespace ShardedQueue

open Function

variable {α κ : Type*}

structure Pool (α : Type*) where
  shards : ℕ → List α := fun _ => []
  /-- what the worker of a shard has taken and is not done with -/
  held : ℕ → Option α := fun _ => none
  pushed : List α := []
  done : List α := []

inductive Event (α : Type*) where
  | push (a : α)
  | pop (i : ℕ)
  | finish (i : ℕ)

namespace Pool

variable (shard : α → ℕ) (p : Pool α)

def push (a : α) : Pool α :=
  { p with
    shards := update p.shards (shard a) (p.shards (shard a) ++ [a])
    pushed := p.pushed ++ [a] }

def pop (i : ℕ) : Pool α :=
  match p.held i, p.shards i with
  | none, a :: as =>
    { p with shards := update p.shards i as, held := update p.held i (some a) }
  | _, _ => p

def finish (i : ℕ) : Pool α :=
  match p.held i with
  | some a => { p with held := update p.held i none, done := p.done ++ [a] }
  | none => p

def step : Event α → Pool α
  | .push a => p.push shard a
  | .pop i => p.pop i
  | .finish i => p.finish i

def run (es : List (Event α)) : Pool α := es.foldl (step shard) {}

/-- Nothing waits and no worker is busy. -/
def Idle : Prop := ∀ i, p.shards i = [] ∧ p.held i = none

/-- What was pushed to a shard is done, held or waits, in this order. -/
def InOrder : Prop := ∀ i, p.pushed.filter (shard · = i) =
  p.done.filter (shard · = i) ++ (p.held i).toList ++ p.shards i

variable {shard p}

lemma InOrder.shard_held (h : p.InOrder shard) {i : ℕ} {a : α} (ha : p.held i = some a) : shard a = i := by
  have hmem : a ∈ p.pushed.filter (shard · = i) := by
    rw [h i, ha]
    simp
  exact of_decide_eq_true (List.mem_filter.mp hmem).2

lemma InOrder.push (h : p.InOrder shard) (a : α) : (p.push shard a).InOrder shard := by
  intro i
  change (p.pushed ++ [a]).filter _ = _ ++ _ ++ update p.shards (shard a) _ i
  rw [List.filter_append, h i]
  by_cases hi : shard a = i
  · subst hi
    simp [Pool.push]
  · simp [Pool.push, hi, update_of_ne (Ne.symm hi)]

lemma InOrder.pop (h : p.InOrder shard) (i : ℕ) : (p.pop i).InOrder shard := by
  unfold Pool.pop
  split
  · next a as hheld hshard =>
    intro j
    change p.pushed.filter _ = p.done.filter _ ++ (update p.held i (some a) j).toList ++ update p.shards i as j
    rw [h j]
    by_cases hj : j = i
    · subst hj
      simp [hheld, hshard]
    · rw [update_of_ne hj, update_of_ne hj]
  · exact h

lemma InOrder.finish (h : p.InOrder shard) (i : ℕ) : (p.finish i).InOrder shard := by
  unfold Pool.finish
  split
  · next a hheld =>
    have ha := h.shard_held hheld
    intro j
    change p.pushed.filter _ = (p.done ++ [a]).filter _ ++ (update p.held i none j).toList ++ p.shards j
    rw [h j, List.filter_append]
    by_cases hj : j = i
    · subst hj
      simp [hheld, ha]
    · rw [update_of_ne hj, List.filter_singleton, decide_eq_false (by rwa [ha, eq_comm]), cond_false,
        List.append_nil]
  · exact h

lemma inOrder_run (es : List (Event α)) : (run shard es).InOrder shard :=
  Machine.invariant (I := InOrder shard) (fun _ e h => match e with
    | .push a => h.push a
    | .pop i => h.pop i
    | .finish i => h.finish i) (fun _ => rfl) es

section Keys

variable [DecidableEq κ] {key : α → κ} {es : List (Event α)}

lemma filter_key (hkey : ∀ a b, key a = key b → shard a = shard b) (a : α) (l : List α) :
    (l.filter (shard · = shard a)).filter (key · = key a) = l.filter (key · = key a) := by
  rw [List.filter_filter]
  refine List.filter_congr fun b _ => ?_
  by_cases hb : key b = key a
  · simp [hb, hkey b a hb]
  · simp [hb]

/-- When a key tells the shard, the workers are done with the items of a key in the order in which
they were pushed. -/
lemma done_isPrefix (hkey : ∀ a b, key a = key b → shard a = shard b) (k : κ) :
    (run shard es).done.filter (key · = k) <+: (run shard es).pushed.filter (key · = k) := by
  by_cases hk : ∃ a, key a = k
  · obtain ⟨a, rfl⟩ := hk
    rw [← filter_key hkey a, ← filter_key hkey a (run shard es).pushed, inOrder_run es (shard a),
      List.append_assoc, List.filter_append]
    exact List.prefix_append _ _
  · rw [List.filter_eq_nil_iff.mpr fun a _ ha => hk ⟨a, of_decide_eq_true ha⟩]
    exact List.nil_prefix

lemma done_eq_of_idle (hkey : ∀ a b, key a = key b → shard a = shard b) (hidle : (run shard es).Idle)
    (k : κ) : (run shard es).done.filter (key · = k) = (run shard es).pushed.filter (key · = k) := by
  by_cases hk : ∃ a, key a = k
  · obtain ⟨a, rfl⟩ := hk
    obtain ⟨hshard, hheld⟩ := hidle (shard a)
    rw [← filter_key hkey a, ← filter_key hkey a (run shard es).pushed, inOrder_run es (shard a), hshard, hheld]
    simp
  · rw [List.filter_eq_nil_iff.mpr fun a _ ha => hk ⟨a, of_decide_eq_true ha⟩,
      List.filter_eq_nil_iff.mpr fun a _ ha => hk ⟨a, of_decide_eq_true ha⟩]

end Keys
end Pool
end ShardedQueue
