import Mathlib.Data.List.Basic

/-! Machines that take one step for each event: runs whose events meet a condition on the state they
find, the rule for invariants, and simulations between two machines. -/
namespace Machine

variable {σ τ ε : Type*} {step : σ → ε → σ} {cond : σ → ε → Prop}

/-- Every event of the run meets the condition in the state that it finds. -/
def Along (step : σ → ε → σ) (cond : σ → ε → Prop) : σ → List ε → Prop
  | _, [] => True
  | s, e :: es => cond s e ∧ Along step cond (step s e) es

variable {es : List ε}

lemma along_append {s : σ} {es' : List ε} : Along step cond s (es ++ es') ↔
    Along step cond s es ∧ Along step cond (es.foldl step s) es' := by
  induction es generalizing s with
  | nil => simp [Along]
  | cons e es ih => rw [List.cons_append, Along, Along, ih, List.foldl_cons, and_assoc]

variable {I : σ → Prop}

lemma Along.invariant (hstep : ∀ s e, I s → cond s e → I (step s e))
    {s : σ} (h : Along step cond s es) (hs : I s) : I (es.foldl step s) := by
  induction es generalizing s with
  | nil => exact hs
  | cons e es ih => exact ih h.2 (hstep s e hs h.1)

/-- What a step keeps exactly under the condition survives a run exactly when every event of the
run meets the condition. -/
lemma foldl_iff_along {J : σ → Prop} {s : σ} (hJ : ∀ s, ∀ e ∈ es, J s → J (step s e))
    (hI : ∀ s, ∀ e ∈ es, J s → (I (step s e) ↔ I s ∧ cond s e)) (hs : J s) :
    I (es.foldl step s) ↔ I s ∧ Along step cond s es := by
  induction es generalizing s with
  | nil => simp [Along]
  | cons e es ih =>
    have hstep := hI s e List.mem_cons_self hs
    have hrest := ih (fun s e he => hJ s e (List.mem_cons_of_mem _ he))
      (fun s e he => hI s e (List.mem_cons_of_mem _ he)) (hJ s e List.mem_cons_self hs)
    rw [List.foldl_cons, hrest, hstep, Along, and_assoc]

/-- Two conditions that agree where an invariant holds, which each step keeps under the second one, are
met along the same runs. -/
lemma along_iff {ok : σ → ε → Prop} {s : σ} (hstep : ∀ s, ∀ e ∈ es, I s → cond s e → I (step s e))
    (hiff : ∀ s, ∀ e ∈ es, I s → (ok s e ↔ cond s e)) (hs : I s) :
    Along step ok s es ↔ Along step cond s es := by
  induction es generalizing s with
  | nil => exact Iff.rfl
  | cons e es ih =>
    rw [Along, Along, hiff s e List.mem_cons_self hs]
    exact and_congr_right fun he => ih (fun s e he => hstep s e (List.mem_cons_of_mem _ he))
      (fun s e he => hiff s e (List.mem_cons_of_mem _ he)) (hstep s e List.mem_cons_self hs he)

lemma invariant (hstep : ∀ s e, I s → I (step s e)) {s : σ} (hs : I s) (es : List ε) : I (es.foldl step s) := by
  induction es generalizing s with
  | nil => exact hs
  | cons e es ih => exact ih (hstep s e hs)

/-- As `invariant`, where each event is seen in its place in the run. -/
lemma invariant_at {s : σ} (hs : I s) (hstep : ∀ before e after, es = before ++ e :: after →
    I (before.foldl step s) → I (step (before.foldl step s) e)) : I (es.foldl step s) := by
  induction es generalizing s with
  | nil => exact hs
  | cons e es ih =>
    refine ih (hstep [] e es rfl hs) fun before e' after hsplit h => ?_
    exact hstep (e :: before) e' after (congrArg (e :: ·) hsplit) h

end Machine
