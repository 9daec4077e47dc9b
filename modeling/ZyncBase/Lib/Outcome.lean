import Mathlib.Data.List.Basic
import Mathlib.Data.List.Forall2
import Mathlib.Logic.Basic

/-! Computations that may fail, and their inversion: without and with a state, those that an access that
is not allowed stops, and those whose failure keeps what was changed before it. -/
namespace Outcome

universe u

variable {ε : Type*} {α β : Type u}

@[simp] lemma ok_bind (a : α) (f : α → Except ε β) : (Except.ok a >>= f) = f a := rfl

variable {f : α → Except ε β}

lemma bind_eq_ok {x : Except ε α} {b : β} : (x >>= f) = .ok b ↔ ∃ a, x = .ok a ∧ f a = .ok b := by
  cases x with
  | error e => simp [bind, Except.bind]
  | ok a => simp [bind, Except.bind]

lemma bind_eq_error {x : Except ε α} {e : ε} :
    (x >>= f) = .error e ↔ x = .error e ∨ ∃ a, x = .ok a ∧ f a = .error e := by
  cases x with
  | error e' => simp [bind, Except.bind]
  | ok a => simp [bind, Except.bind]

lemma map_eq_ok {x : Except ε α} {f : α → β} {b : β} : x.map f = .ok b ↔ ∃ a, x = .ok a ∧ f a = b := by
  cases x with
  | error e => simp [Except.map]
  | ok a => simp [Except.map]

lemma pure_eq_ok {a b : α} : (pure a : Except ε α) = .ok b ↔ a = b := by
  simp [pure, Except.pure]

variable {as : List α} {bs : List β}

lemma mapM_eq_ok : as.mapM f = .ok bs ↔ List.Forall₂ (fun a b => f a = .ok b) as bs := by
  induction as generalizing bs with
  | nil =>
    rw [List.mapM_nil, List.forall₂_nil_left_iff, pure_eq_ok]
    exact eq_comm
  | cons a as ih =>
    rw [List.mapM_cons, bind_eq_ok]
    constructor
    · rintro ⟨b, hb, h⟩
      obtain ⟨bs', hbs, h⟩ := bind_eq_ok.mp h
      cases h
      exact .cons hb (ih.mp hbs)
    · rintro (_ | ⟨hb, hbs⟩)
      exact ⟨_, hb, bind_eq_ok.mpr ⟨_, ih.mpr hbs, rfl⟩⟩

lemma of_mem_mapM (h : as.mapM f = .ok bs) {b : β} (hb : b ∈ bs) : ∃ a ∈ as, f a = .ok b := by
  have hpairs := mapM_eq_ok.mp h
  clear h
  induction hpairs with
  | nil => exact absurd hb List.not_mem_nil
  | @cons a b' as bs hab _ ih =>
    obtain rfl | hb := List.mem_cons.mp hb
    · exact ⟨a, List.mem_cons_self, hab⟩
    · obtain ⟨a', ha', hab'⟩ := ih hb
      exact ⟨a', List.mem_cons_of_mem a ha', hab'⟩

lemma mapM_eq_ok_map {P : α → Prop} {g : α → β} (h : ∀ a b, f a = .ok b ↔ P a ∧ b = g a) :
    as.mapM f = .ok bs ↔ (∀ a ∈ as, P a) ∧ bs = as.map g := by
  rw [mapM_eq_ok]
  induction as generalizing bs with
  | nil => simp
  | cons a as ih =>
    rw [List.forall₂_cons_left_iff, List.forall_mem_cons, List.map_cons]
    constructor
    · rintro ⟨b, bs', hb, hbs, rfl⟩
      obtain ⟨ha, rfl⟩ := (h a b).mp hb
      obtain ⟨has, rfl⟩ := ih.mp hbs
      exact ⟨⟨ha, has⟩, rfl⟩
    · rintro ⟨⟨ha, has⟩, rfl⟩
      exact ⟨_, _, (h a _).mpr ⟨ha, rfl⟩, ih.mpr ⟨has, rfl⟩, rfl⟩

lemma mapM_map {g : β → α} (h : ∀ b ∈ bs, f (g b) = .ok b) : (bs.map g).mapM f = .ok bs :=
  mapM_eq_ok.mpr (List.forall₂_map_left_iff.mpr (List.forall₂_same.mpr h))

lemma mapM_exists {R : α → β → Prop} (h : ∀ a ∈ as, ∃ b, f a = .ok b ∧ R a b) :
    ∃ bs, as.mapM f = .ok bs ∧ List.Forall₂ R as bs := by
  induction as with
  | nil => exact ⟨[], rfl, .nil⟩
  | cons a as ih =>
    obtain ⟨⟨b, hb, hR⟩, has⟩ := List.forall_mem_cons.mp h
    obtain ⟨bs, hbs, hall⟩ := ih has
    refine ⟨b :: bs, ?_, .cons hR hall⟩
    rw [List.mapM_cons, hb, ok_bind, hbs]
    rfl

lemma mapM_mapM {ε' : Type*} {g : β → Except ε' α} (hf : as.mapM f = .ok bs) (hg : bs.mapM g = .ok as) :
    ∀ a ∈ as, ∃ b, f a = .ok b ∧ g b = .ok a := by
  have hthere := mapM_eq_ok.mp hf
  have hback := mapM_eq_ok.mp hg
  clear hf hg
  induction hthere with
  | nil => exact fun a ha => absurd ha List.not_mem_nil
  | cons hab _ ih =>
    obtain ⟨hba, hrest⟩ := List.forall₂_cons.mp hback
    exact List.forall_mem_cons.mpr ⟨⟨_, hab, hba⟩, ih hrest⟩

section State

variable {ε σ : Type u} {s s' : σ}

variable {x : EStateM ε σ α}

lemma run_bind_eq_ok {f : α → EStateM ε σ β} {b : β} :
    (x >>= f) s = .ok b s' ↔ ∃ a t, x s = .ok a t ∧ f a t = .ok b s' := by
  cases h : x s with
  | ok a t => simp [bind, EStateM.bind, h, and_assoc]
  | error e t => simp [bind, EStateM.bind, h]

lemma run_bind_of_ok {f : α → EStateM ε σ β} {a : α} (h : x s = .ok a s') : (x >>= f) s = f a s' := by
  simp [bind, EStateM.bind, h]

lemma run_bind_of_error {f : α → EStateM ε σ β} {e : ε}
    (h : x s = .error e s') : (x >>= f) s = .error e s' := by
  simp [bind, EStateM.bind, h]

lemma run_pure_eq_ok {a b : α} : (pure a : EStateM ε σ α) s = .ok b s' ↔ a = b ∧ s = s' := by
  simp [pure, EStateM.pure]

lemma run_throw_ne_ok {e : ε} {b : α} : (throw e : EStateM ε σ α) s ≠ .ok b s' := by
  intro h
  cases (show EStateM.Result.error e s = .ok b s' from h)

/-- The state that a computation ends in. -/
def final : EStateM.Result ε σ α → σ
  | .ok _ s => s
  | .error _ s => s

/-- Whether it succeeds or fails, a computation ends in a state related to the one it starts in. -/
def Leads (R : σ → σ → Prop) (x : EStateM ε σ α) : Prop := ∀ s, R s (final (x s))

namespace Leads

variable {R : σ → σ → Prop}

lemma pure (hrefl : ∀ s, R s s) (a : α) : Leads R (pure a : EStateM ε σ α) := fun s => hrefl s

lemma throw (hrefl : ∀ s, R s s) (e : ε) : Leads R (throw e : EStateM ε σ α) := fun s => hrefl s

lemma bind (htrans : ∀ {s t u}, R s t → R t u → R s u)
    {f : α → EStateM ε σ β} (hx : Leads R x) (hf : ∀ a, Leads R (f a)) : Leads R (x >>= f) := by
  intro s
  have hs := hx s
  cases h : x s with
  | error e t =>
    rw [run_bind_of_error h]
    rw [h] at hs
    exact hs
  | ok a t =>
    rw [run_bind_of_ok h]
    rw [h] at hs
    exact htrans hs (hf a t)

lemma error {e : ε} (hx : Leads R x) (h : x s = .error e s') : R s s' := by
  have hs := hx s
  rwa [h] at hs

lemma ok {a : α} (hx : Leads R x) (h : x s = .ok a s') : R s s' := by
  have hs := hx s
  rwa [h] at hs

end Leads

/-- A computation leaves this part of the state alone, whether it succeeds or fails. -/
def Kept {γ : Type*} (p : σ → γ) (x : EStateM ε σ α) : Prop := ∀ s, p (final (x s)) = p s

namespace Kept

variable {γ : Type*} {p : σ → γ}

lemma error {e : ε} (hx : Kept p x) (h : x s = .error e s') : p s' = p s := by
  have hs : Leads (fun s s' => p s' = p s) x := hx
  exact hs.error h

lemma ok {a : α} (hx : Kept p x) (h : x s = .ok a s') : p s' = p s := by
  have hs : Leads (fun s s' => p s' = p s) x := hx
  exact hs.ok h

end Kept

/-- From related states the computation ends alike, in related states. -/
def Lockstep (R : σ → σ → Prop) (x : EStateM ε σ α) : Prop :=
  ∀ s t, R s t → (∃ a s' t', x s = .ok a s' ∧ x t = .ok a t' ∧ R s' t') ∨
    ∃ e s' t', x s = .error e s' ∧ x t = .error e t' ∧ R s' t'

namespace Lockstep

variable {R : σ → σ → Prop}

lemma pure (a : α) : Lockstep R (pure a : EStateM ε σ α) :=
  fun s t h => .inl ⟨a, s, t, rfl, rfl, h⟩

lemma throw (e : ε) : Lockstep R (throw e : EStateM ε σ α) :=
  fun s t h => .inr ⟨e, s, t, rfl, rfl, h⟩

lemma bind {f : α → EStateM ε σ β} (hx : Lockstep R x) (hf : ∀ a, Lockstep R (f a)) : Lockstep R (x >>= f) := by
  intro s t h
  obtain ⟨a, s', t', hs, ht, h'⟩ | ⟨e, s', t', hs, ht, h'⟩ := hx s t h
  · rw [run_bind_of_ok hs, run_bind_of_ok ht]
    exact hf a s' t' h'
  · rw [run_bind_of_error hs, run_bind_of_error ht]
    exact .inr ⟨e, s', t', rfl, rfl, h'⟩

lemma withKept {γ : Type*} {p : σ → γ} (hx : Lockstep R x) (hp : Kept p x) :
    Lockstep (fun s t => R s t ∧ p s = p t) x := by
  rintro s t ⟨h, he⟩
  obtain ⟨a, s', t', hs, ht, h'⟩ | ⟨e, s', t', hs, ht, h'⟩ := hx s t h
  · exact .inl ⟨a, s', t', hs, ht, h', by rw [hp.ok hs, hp.ok ht, he]⟩
  · exact .inr ⟨e, s', t', hs, ht, h', by rw [hp.error hs, hp.error ht, he]⟩

end Lockstep

end State
end Outcome

namespace Guarded

universe u

/-- Computations answer with a value or an error, unless they are stopped. -/
inductive Failure (ε : Type u) where
  | error (e : ε)
  | stop
  deriving DecidableEq, Repr

variable {ε α β : Type u}

/-- The computation ends in a value or an error. -/
def Answers (x : Except (Failure ε) α) : Prop := x ≠ .error .stop

@[simp] lemma answers_ok (a : α) : Answers (.ok a : Except (Failure ε) α) := by simp [Answers]

@[simp] lemma answers_pure (a : α) : Answers (pure a : Except (Failure ε) α) := answers_ok a

@[simp] lemma answers_error (e : ε) : Answers (.error (.error e) : Except (Failure ε) α) := by
  simp [Answers]

variable {f : α → Except (Failure ε) β}

lemma Answers.bind {x : Except (Failure ε) α} (hx : Answers x)
    (hf : ∀ a, x = .ok a → Answers (f a)) : Answers (x >>= f) := by
  cases x with
  | ok a => exact hf a rfl
  | error e =>
    cases e with
    | error e => exact answers_error e
    | stop => exact absurd rfl hx

lemma bind_eq_stop {x : Except (Failure ε) α} :
    (x >>= f) = .error .stop ↔ x = .error .stop ∨ ∃ a, x = .ok a ∧ f a = .error .stop := by
  cases x with
  | ok a => simp [Bind.bind, Except.bind]
  | error e => simp [Bind.bind, Except.bind]

variable {xs : List α}

lemma answers_foldlM (inv : β → Prop) {f : β → α → Except (Failure ε) β} {b : β}
    (hb : inv b) (hf : ∀ b, inv b → ∀ a ∈ xs, Answers (f b a) ∧ ∀ b', f b a = .ok b' → inv b') :
    Answers (xs.foldlM f b) := by
  induction xs generalizing b with
  | nil => exact answers_pure b
  | cons a xs ih =>
    rw [List.foldlM_cons]
    obtain ⟨ha, hinv⟩ := hf b hb a List.mem_cons_self
    refine ha.bind fun b' hb' => ih (hinv b' hb') fun b hb a hmem => ?_
    exact hf b hb a (List.mem_cons_of_mem _ hmem)

lemma answers_forM {f : α → Except (Failure ε) PUnit} (h : ∀ a ∈ xs, Answers (f a)) : Answers (xs.forM f) := by
  induction xs with
  | nil => exact answers_pure _
  | cons a xs ih =>
    obtain ⟨ha, hxs⟩ := List.forall_mem_cons.mp h
    change Answers (f a >>= fun _ => xs.forM f)
    exact ha.bind fun _ _ => ih hxs

lemma answers_mapM (h : ∀ a ∈ xs, Answers (f a)) : Answers (xs.mapM f) := by
  induction xs with
  | nil => exact answers_pure _
  | cons a xs ih =>
    obtain ⟨ha, hxs⟩ := List.forall_mem_cons.mp h
    rw [List.mapM_cons]
    exact ha.bind fun _ _ => (ih hxs).bind fun _ _ => answers_pure _

/-- The element at an index, which must be in bounds. -/
def elementAt (xs : List α) (i : ℕ) : Except (Failure ε) α :=
  match xs[i]? with
  | some a => .ok a
  | none => .error .stop

lemma elementAt_eq {i : ℕ} (h : i < xs.length) : (elementAt xs i : Except (Failure ε) α) = .ok xs[i] := by
  rw [elementAt, List.getElem?_eq_getElem h]

lemma answers_elementAt {i : ℕ} (h : i < xs.length) : Answers (elementAt xs i : Except (Failure ε) α) := by
  rw [elementAt_eq h]
  exact answers_ok _

end Guarded

/-- The rules compute what has to hold of a state for the outcome to be as wanted. -/
def Attempt (σ α : Type) : Type := σ → Option α × σ

namespace Attempt

variable {σ α β : Type}

instance : Monad (Attempt σ) where
  pure a := fun s => (some a, s)
  bind x f := fun s =>
    match x s with
    | (some a, s') => f a s'
    | (none, s') => (none, s')

def read : Attempt σ σ := fun s => (some s, s)

def change (f : σ → σ) : Attempt σ Unit := fun s => (some (), f s)

def fail : Attempt σ α := fun s => (none, s)

/-- What is undone where the computation fails. -/
def onError (x : Attempt σ α) (undo : σ → σ) : Attempt σ α := fun s =>
  match x s with
  | (some a, s') => (some a, s')
  | (none, s') => (none, undo s')

/-- Another computation where the first one fails. -/
def orTry (x y : Attempt σ α) : Attempt σ α := fun s =>
  match x s with
  | (some a, s') => (some a, s')
  | (none, s') => y s'

/-- From the state, success ends as `Q` says, and failure as `E` says. -/
def Meets (x : Attempt σ α) (s : σ) (Q : α → σ → Prop) (E : σ → Prop) : Prop :=
  match x s with
  | (some a, s') => Q a s'
  | (none, s') => E s'

variable {x y : Attempt σ α} {f : α → Attempt σ β} {s : σ} {a : α} {Q Q' : α → σ → Prop}
  {R : β → σ → Prop} {E E' : σ → Prop}

lemma bind_apply : (x >>= f) s =
    match x s with
    | (some a, s') => f a s'
    | (none, s') => (none, s') := rfl

lemma meets_pure : (pure a : Attempt σ α).Meets s Q E ↔ Q a s := Iff.rfl

lemma meets_read {Q : σ → σ → Prop} : (read : Attempt σ σ).Meets s Q E ↔ Q s s := Iff.rfl

lemma meets_change {Q : Unit → σ → Prop} {g : σ → σ} : (change g).Meets s Q E ↔ Q () (g s) := Iff.rfl

lemma meets_fail : (fail : Attempt σ α).Meets s Q E ↔ E s := Iff.rfl

lemma meets_bind : (x >>= f).Meets s R E ↔ x.Meets s (fun a s' => (f a).Meets s' R E) E := by
  unfold Meets
  change (match (match x s with | (some a, s') => f a s' | (none, s') => (none, s')) with
    | (some a, s') => R a s' | (none, s') => E s') ↔ _
  cases x s with
  | mk result s' => cases result <;> exact Iff.rfl

lemma meets_onError {undo : σ → σ} : (x.onError undo).Meets s Q E ↔ x.Meets s Q fun s' => E (undo s') := by
  unfold Meets onError
  cases x s with
  | mk result s' => cases result <;> exact Iff.rfl

lemma meets_orTry : (x.orTry y).Meets s Q E ↔ x.Meets s Q fun s' => y.Meets s' Q E := by
  unfold Meets orTry
  cases x s with
  | mk result s' => cases result <;> exact Iff.rfl

lemma Meets.mono (h : x.Meets s Q E) (hQ : ∀ a s', Q a s' → Q' a s') (hE : ∀ s', E s' → E' s') :
    x.Meets s Q' E' := by
  unfold Meets at h ⊢
  cases hx : x s with
  | mk result s' =>
    rw [hx] at h
    cases result with
    | none => exact hE s' h
    | some a => exact hQ a s' h

lemma meets_and : x.Meets s Q E ↔ x.Meets s Q (fun _ => True) ∧ x.Meets s (fun _ _ => True) E := by
  unfold Meets
  cases x s with
  | mk result s' => cases result <;> simp

lemma Meets.bind (hx : x.Meets s Q E') (hE : ∀ s', E' s' → E s')
    (hf : ∀ a s', Q a s' → (f a).Meets s' R E) : (x >>= f).Meets s R E :=
  meets_bind.mpr (hx.mono hf hE)

lemma meets_error_iff : x.Meets s (fun _ _ => True) E ↔ ((x s).1 = none → E (x s).2) := by
  unfold Meets
  cases x s with
  | mk result s' => cases result <;> simp

lemma Meets.snd (h : x.Meets s (fun _ => E) E) : E (x s).2 := by
  unfold Meets at h
  cases hx : x s with
  | mk result s' =>
    rw [hx] at h
    cases result with
    | none => exact h
    | some a => exact h

lemma Meets.of_eq {s' : σ} (h : x.Meets s Q E) (hx : x s = (some a, s')) : Q a s' := by
  unfold Meets at h
  rwa [hx] at h

lemma Meets.of_none {s' : σ} (h : x.Meets s Q E) (hx : x s = (none, s')) : E s' := by
  unfold Meets at h
  rwa [hx] at h

/-- From no state the computation fails. -/
def Succeeds (x : Attempt σ α) : Prop := ∀ s, x.Meets s (fun _ _ => True) fun _ => False

namespace Succeeds

lemma pure (a : α) : Succeeds (pure a : Attempt σ α) := fun _ => trivial

lemma bind (hx : Succeeds x) (hf : ∀ a, Succeeds (f a)) : Succeeds (x >>= f) :=
  fun s => (hx s).bind (fun _ h => h) fun a s' _ => hf a s'

lemma onError (hx : Succeeds x) (undo : σ → σ) : Succeeds (x.onError undo) :=
  fun s => meets_onError.mpr ((hx s).mono (fun _ _ h => h) fun _ h => h.elim)

lemma orTry (hx : Succeeds x) (y : Attempt σ α) : Succeeds (x.orTry y) :=
  fun s => meets_orTry.mpr ((hx s).mono (fun _ _ h => h) fun _ h => h.elim)

lemma exists_eq (hx : Succeeds x) (s : σ) : ∃ a s', x s = (some a, s') := by
  cases h : x s with
  | mk result s' =>
    cases result with
    | none => exact ((hx s).of_none h).elim
    | some a => exact ⟨a, s', rfl⟩

end Succeeds
end Attempt
