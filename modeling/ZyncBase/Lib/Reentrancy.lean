import ZyncBase.Lib.Machine

/-! A thread that works through a stack of instructions, of which some acquire and release a mutex that
is not re-entrant. What an instruction calls, handlers that are called back included, is put on top of
the stack. A discipline gives the state of the mutex in which each instruction may start, and the state
it leaves. -/
namespace Reentrancy

variable {σ κ ω ι : Type*}

/-- What a thread does next: acquire the mutex, release it, or an instruction of its program. -/
inductive Op (ι : Type*) where
  | lock
  | unlock
  | exec (i : ι)
  deriving DecidableEq, Repr

/-- `held` says whether the thread holds the mutex. -/
structure Thread (σ ι : Type*) where
  held : Bool := false
  todo : List (Op ι) := []
  mem : σ

/-- What an instruction does, given the answers of the surroundings: the memory it leaves, and what is
to be done before the rest; and the instructions of an operation. -/
structure Program (σ κ ω ι : Type*) where
  exec : σ → κ → ι → σ × List (Op ι)
  start : σ → ω → List (Op ι)

/-- An operation that is started, or the next instruction with the answers of the surroundings. -/
inductive Event (κ ω : Type*) where
  | start (o : ω)
  | run (answers : κ)

namespace Thread

/-- The thread is about to acquire the mutex that it holds. -/
def Deadlocked (t : Thread σ ι) : Prop :=
  t.held = true ∧ ∃ rest, t.todo = .lock :: rest

/-- A thread that waits for itself stays where it is. -/
def run (p : Program σ κ ω ι) (t : Thread σ ι) (answers : κ) : Thread σ ι :=
  match t.todo with
  | [] => t
  | .lock :: rest => if t.held then t else { t with held := true, todo := rest }
  | .unlock :: rest => { t with held := false, todo := rest }
  | .exec i :: rest =>
    { t with mem := (p.exec t.mem answers i).1, todo := (p.exec t.mem answers i).2 ++ rest }

/-- Operations are started one after the other. -/
def step (p : Program σ κ ω ι) (t : Thread σ ι) : Event κ ω → Thread σ ι
  | .start o => if t.todo = [] then { t with todo := p.start t.mem o } else t
  | .run answers => t.run p answers

end Thread

/-- The state of the mutex after an instruction that starts with the mutex held or not, if it may. -/
def after (effect : Bool → ι → Option Bool) (b : Bool) : Op ι → Option Bool
  | .lock => if b then none else some true
  | .unlock => if b then some false else none
  | .exec i => effect b i

def afterAll (effect : Bool → ι → Option Bool) (b : Bool) (ops : List (Op ι)) : Option Bool :=
  ops.foldlM (after effect) b

/-- What the next instruction finds meets the condition. -/
def Allows (ok : Bool → σ → κ → ι → Prop) (t : Thread σ ι) : Event κ ω → Prop
  | .start _ => True
  | .run answers =>
    match t.todo with
    | .exec i :: _ => ok t.held t.mem answers i
    | _ => True

/-- Instructions keep to the discipline as long as the condition is met; where it is not, they go on to
acquire the mutex that is held. -/
structure Discipline (p : Program σ κ ω ι) (effect : Bool → ι → Option Bool)
    (ok : Bool → σ → κ → ι → Prop) : Prop where
  start : ∀ m o, afterAll effect false (p.start m o) = some false
  keeps : ∀ b b' m k i, effect b i = some b' → ok b m k i → afterAll effect b (p.exec m k i).2 = some b'
  breaks : ∀ b b' m k i, effect b i = some b' → ¬ ok b m k i →
    b = true ∧ ∃ rest, (p.exec m k i).2 = .lock :: rest

section

variable {effect : Bool → ι → Option Bool} {b b' : Bool}

lemma afterAll_append (ops ops' : List (Op ι)) : afterAll effect b (ops ++ ops') =
    (afterAll effect b ops).bind fun b' => afterAll effect b' ops' := by
  rw [afterAll, List.foldlM_append]
  rfl

@[simp] lemma afterAll_nil : afterAll effect b [] = some b := rfl

@[simp] lemma afterAll_lock (ops : List (Op ι)) :
    afterAll effect false (.lock :: ops) = afterAll effect true ops := rfl

@[simp] lemma afterAll_unlock (ops : List (Op ι)) :
    afterAll effect true (.unlock :: ops) = afterAll effect false ops := rfl

@[simp] lemma afterAll_exec (i : ι) (ops : List (Op ι)) : afterAll effect b (.exec i :: ops) =
    (effect b i).bind fun b' => afterAll effect b' ops := rfl

lemma afterAll_of_forall {ops : List (Op ι)} (h : ∀ op ∈ ops, after effect b op = some b) :
    afterAll effect b ops = some b := by
  induction ops with
  | nil => rfl
  | cons op ops ih =>
    have hrest := ih fun op' hop => h op' (List.mem_cons_of_mem _ hop)
    rw [afterAll, List.foldlM_cons, h op List.mem_cons_self]
    exact hrest

lemma afterAll_flatMap {α : Type*} {xs : List α} {f : α → List (Op ι)}
    (h : ∀ x ∈ xs, afterAll effect b (f x) = some b) : afterAll effect b (xs.flatMap f) = some b := by
  induction xs with
  | nil => rfl
  | cons x xs ih =>
    rw [List.flatMap_cons, afterAll_append, h x List.mem_cons_self]
    exact ih fun x' hx => h x' (List.mem_cons_of_mem _ hx)

end

section

variable {p : Program σ κ ω ι} {effect : Bool → ι → Option Bool} {ok : Bool → σ → κ → ι → Prop} {t : Thread σ ι}

/-- What is left to do keeps to the discipline, and ends without the mutex. -/
def Disciplined (effect : Bool → ι → Option Bool) (t : Thread σ ι) : Prop :=
  afterAll effect t.held t.todo = some false

lemma Disciplined.not_deadlocked (h : Disciplined effect t) : ¬ t.Deadlocked := by
  rintro ⟨hheld, rest, htodo⟩
  rw [Disciplined, hheld, htodo] at h
  cases h

lemma step_of_deadlocked (h : t.Deadlocked) (e : Event κ ω) : t.step p e = t := by
  obtain ⟨hheld, rest, htodo⟩ := h
  cases e with
  | start o => simp [Thread.step, htodo]
  | run answers => simp [Thread.step, Thread.run, htodo, hheld]

lemma Disciplined.step (hp : Discipline p effect ok) (h : Disciplined effect t) {e : Event κ ω}
    (hallowed : Allows ok t e) : Disciplined effect (t.step p e) := by
  cases e with
  | start o =>
    unfold Thread.step
    split_ifs with hidle
    · have hfree : t.held = false := by simpa [Disciplined, hidle] using h
      rw [Disciplined, hfree]
      exact hp.start t.mem o
    · exact h
  | run answers =>
    obtain ⟨held, todo, mem⟩ := t
    cases todo with
    | nil => exact h
    | cons op rest =>
      cases op with
      | lock =>
        cases held with
        | true => cases h
        | false => exact h
      | unlock =>
        cases held with
        | true => exact h
        | false => cases h
      | exec i =>
        have hrest : (effect held i).bind (fun b => afterAll effect b rest) = some false := h
        obtain ⟨b', heffect, hafter⟩ := Option.bind_eq_some_iff.mp hrest
        have hkept := hp.keeps held b' mem answers i heffect hallowed
        change afterAll effect held ((p.exec mem answers i).2 ++ rest) = some false
        rw [afterAll_append, hkept]
        exact hafter

lemma Disciplined.deadlocked_step (hp : Discipline p effect ok) (h : Disciplined effect t)
    {e : Event κ ω} (hnot : ¬ Allows ok t e) : (t.step p e).Deadlocked := by
  cases e with
  | start o => exact absurd trivial hnot
  | run answers =>
    obtain ⟨held, todo, mem⟩ := t
    cases todo with
    | nil => exact absurd trivial hnot
    | cons op rest =>
      cases op with
      | lock => exact absurd trivial hnot
      | unlock => exact absurd trivial hnot
      | exec i =>
        have hrest : (effect held i).bind (fun b => afterAll effect b rest) = some false := h
        obtain ⟨b', heffect, -⟩ := Option.bind_eq_some_iff.mp hrest
        obtain ⟨hheld, after, hops⟩ := hp.breaks held b' mem answers i heffect hnot
        refine ⟨hheld, after ++ rest, ?_⟩
        change (p.exec mem answers i).2 ++ rest = _
        rw [hops, List.cons_append]

/-- A thread does not wait for itself exactly when every instruction of the run meets the condition. -/
lemma not_deadlocked_iff (hp : Discipline p effect ok) (h : Disciplined effect t)
    (events : List (Event κ ω)) : ¬ (events.foldl (Thread.step p) t).Deadlocked ↔
      Machine.Along (Thread.step p) (Allows ok) t events := by
  refine Iff.trans (b := ¬ t.Deadlocked ∧ Machine.Along (Thread.step p) (Allows ok) t events) ?_
    (and_iff_right h.not_deadlocked)
  refine Machine.foldl_iff_along (I := fun t : Thread σ ι => ¬ t.Deadlocked)
    (J := fun t : Thread σ ι => Disciplined effect t ∨ t.Deadlocked) ?_ ?_ (.inl h)
  · rintro t e - (hd | hd)
    · by_cases hallowed : Allows ok t e
      · exact .inl (hd.step hp hallowed)
      · exact .inr (hd.deadlocked_step hp hallowed)
    · rw [step_of_deadlocked hd]
      exact .inr hd
  · rintro t e - (hd | hd)
    · by_cases hallowed : Allows ok t e
      · simp [hallowed, hd.not_deadlocked, (hd.step hp hallowed).not_deadlocked]
      · simp [hallowed, hd.deadlocked_step hp hallowed]
    · rw [step_of_deadlocked hd]
      simp [hd]

lemma never_deadlocked_iff (hp : Discipline p effect ok) (h : Disciplined effect t)
    (events : List (Event κ ω)) :
    (∀ es, es <+: events → ¬ (es.foldl (Thread.step p) t).Deadlocked) ↔
      Machine.Along (Thread.step p) (Allows ok) t events := by
  constructor
  · intro hall
    exact (not_deadlocked_iff hp h events).mp (hall events (List.prefix_refl _))
  · rintro halong es ⟨es', rfl⟩
    exact (not_deadlocked_iff hp h es).mpr (Machine.along_append.mp halong).1

end

end Reentrancy
