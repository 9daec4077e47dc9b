import ZyncBase.Connection.Manager

/-! When the manager acquires its mutex a second time. Most operations end and close sockets after they
have released it; a refused connection and a dropped schema message are ended, and the sessions of a
manager that shuts down are torn down, while it is held. -/
namespace ZyncBase

open AssocMap Reentrancy

namespace ConnectionManager

/-- The mutex after an instruction, when it may start with the mutex held or not. -/
def effect (held : Bool) : ManagerInstr → Option Bool
  | .admitOpen .. | .forgetNotice _ | .teardownAll | .freeMap => if held then some true else none
  | .lookup .. | .fetchRemove _ | .acquire .. | .collect | .sweep _ =>
    if held then some false else none
  | .teardownSession _ | .failPending _ => some held
  | _ => if held then none else some false

variable {cfg : ManagerConfig} {held : Bool} {m : ConnectionManager} {answers : SocketAnswers}

/-- The new connection is refused, or the first message to it is dropped. -/
def EndsOpening (cfg : ManagerConfig) (m : ConnectionManager) (answers : SocketAnswers) : Prop :=
  cfg.maxConnections ≤ m.map.length ∨ answers.failed = false ∧ answers.dropped = true

instance : Decidable (EndsOpening cfg m answers) := inferInstanceAs (Decidable (_ ∨ _))

/-- A socket that `onOpen` ends does not call its close handler back, and no call of another connection
is left to fail when a manager that shuts down tears its worker down. -/
def Spared (cfg : ManagerConfig) (held : Bool) (m : ConnectionManager) (answers : SocketAnswers) :
    ManagerInstr → Prop
  | .admitOpen .. => EndsOpening cfg m answers → answers.calledBack = false
  | .failPending execId =>
    held = true → find eqKey execId m.pending = none ∨ answers.failed = true
  | _ => True

@[simp] lemma after_acquireConnection (connId : ℕ) (use : AcquiredUse) :
    afterAll effect false (acquireConnection connId use) = some false := rfl

@[simp] lemma after_endSocket (connId : ℕ) (answers : SocketAnswers) :
    afterAll effect false (endSocket connId answers) = some false := by
  unfold endSocket
  split_ifs <;> rfl

@[simp] lemma after_sendOrClose (connId : ℕ) (answers : SocketAnswers) :
    afterAll effect false (sendOrClose connId answers) = some false := by
  unfold sendOrClose sendServerDisconnectAndClose
  split_ifs
  · exact after_endSocket connId answers
  · rfl

lemma after_map {α : Type} (xs : List α) (f : α → ManagerInstr) {b : Bool} (h : ∀ x, effect b (f x) = some b) :
    afterAll effect b (xs.map fun x => .exec (f x)) = some b := by
  refine afterAll_of_forall fun op hop => ?_
  obtain ⟨x, -, rfl⟩ := List.mem_map.mp hop
  exact h x

/-- What `onOpen` does under the mutex calls nothing back, or ends the socket of the connection. -/
lemma admitOpen_cases (connId : ℕ) (sess : SocketSession) (m : ConnectionManager)
    (answers : SocketAnswers) : (admitOpen cfg connId sess m answers).2 =
      if answers.calledBack = true ∧ EndsOpening cfg m answers then onClose connId else [] := by
  obtain ⟨dropped, calledBack, failed, order⟩ := answers
  unfold admitOpen EndsOpening sendOrClose sendServerDisconnectAndClose sendDisconnectAndEnd endSocket
  by_cases hfull : cfg.maxConnections ≤ m.map.length
  · simp [hfull]
  · cases failed with
    | true => simp [hfull]
    | false => cases dropped <;> simp [hfull]

lemma after_failPending {execId : ℕ}
    (h : held = true → find eqKey execId m.pending = none ∨ answers.failed = true) :
    afterAll effect held (failPending execId m answers).2 = some held := by
  unfold failPending
  cases hfind : find eqKey execId m.pending with
  | none => rfl
  | some p =>
    cases hfailed : answers.failed with
    | true => rfl
    | false =>
      cases held with
      | false => exact after_acquireConnection p.callerConnId .send
      | true => simp [hfind, hfailed] at h

lemma after_removeAllForConnection (connId : ℕ) (b : Bool) :
    afterAll effect b (removeAllForConnection connId m answers).2 = some b := by
  unfold removeAllForConnection
  split_ifs
  · rfl
  · exact after_map _ (fun e : ℕ × PendingCall => .failPending e.1) fun _ => rfl

lemma after_handleMessage (connId : ℕ) (e : HandlerEffect) :
    afterAll effect false (handleMessage connId m answers e).2 = some false := by
  cases e with
  | respond => exact after_sendOrClose connId answers
  | violation => exact after_endSocket connId answers
  | sendTo other => rfl
  | calls pending => rfl

lemma after_sendGroup (connId : ℕ) (g : DrainGroup) :
    afterAll effect false (sendGroup connId g answers) = some false := by
  unfold sendGroup
  split_ifs
  · exact after_endSocket connId answers
  · exact after_map _ (fun _ => .sendOrClose connId) fun _ => rfl
  · rfl

lemma after_expire (connId : ℕ) (notify close encoded : Bool) :
    afterAll effect false (expire connId notify close encoded answers) = some false := by
  unfold expire
  split_ifs
  · exact after_endSocket connId answers
  all_goals rfl

lemma after_start (m : ConnectionManager) (o : ManagerOperation) :
    afterAll effect false (start m o) = some false := by
  unfold start
  split_ifs
  · rfl
  cases o with
  | onOpen connId sess =>
    cases sess with
    | none => rfl
    | some sess =>
      dsimp only
      split_ifs <;> rfl
  | onMessage connId binary effects => cases binary <;> rfl
  | onClose connId => rfl
  | sendToConnection connId => rfl
  | resolve connId => rfl
  | drainSendQueue entries => rfl
  | sendDisconnectToAll => rfl
  | sweepExpiredTokens now => rfl
  | deinit => rfl
  | calls pending => rfl

lemma after_exec {b b' : Bool} (i : ManagerInstr) (heffect : effect b i = some b')
    (hspared : Spared cfg b m answers i) : afterAll effect b (exec cfg m answers i).2 = some b' := by
  cases i with
  | admitOpen connId sess =>
    cases b <;> cases heffect
    change afterAll effect true (admitOpen cfg connId sess m answers).2 = some true
    rw [admitOpen_cases, if_neg]
    · rfl
    · rintro ⟨hcalled, hends⟩
      rw [hspared hends] at hcalled
      cases hcalled
  | teardownSession connId =>
    cases heffect
    exact after_removeAllForConnection connId b
  | failPending execId =>
    cases heffect
    exact after_failPending hspared
  | closeSocket connId =>
    cases b <;> cases heffect
    exact after_endSocket connId answers
  | rejectText connId =>
    cases b <;> cases heffect
    change afterAll effect false (rejectText connId answers) = some false
    unfold rejectText
    split_ifs
    · rfl
    · exact after_endSocket connId answers
    · rfl
  | lookup connId effects =>
    cases b <;> cases heffect
    simp only [exec]
    cases find eqKey connId m.map with
    | none => rfl
    | some c => exact after_map effects (.handleMessage connId) fun _ => rfl
  | handleMessage connId e =>
    cases b <;> cases heffect
    exact after_handleMessage connId e
  | fetchRemove connId =>
    cases b <;> cases heffect
    simp only [exec]
    cases find eqKey connId m.map <;> rfl
  | acquire connId use =>
    cases b <;> cases heffect
    simp only [exec]
    cases find eqKey connId m.map with
    | none => rfl
    | some c => cases use <;> rfl
  | sendOrClose connId =>
    cases b <;> cases heffect
    exact after_sendOrClose connId answers
  | drainGroups entries =>
    cases b <;> cases heffect
    exact afterAll_flatMap fun connId _ => after_acquireConnection connId _
  | sendGroup connId g =>
    cases b <;> cases heffect
    exact after_sendGroup connId g
  | collect =>
    cases b <;> cases heffect
    exact after_map _ .disconnect fun _ => rfl
  | disconnect connId =>
    cases b <;> cases heffect
    exact after_endSocket connId answers
  | sweep now =>
    cases b <;> cases heffect
    exact after_map _ (fun a : ℕ × Bool × Bool => .expire a.1 a.2.1 a.2.2 !answers.failed) fun _ => rfl
  | expire connId notify close encoded =>
    cases b <;> cases heffect
    exact after_expire connId notify close encoded
  | forgetNotice connId =>
    cases b <;> cases heffect
    rfl
  | teardownAll =>
    cases b <;> cases heffect
    exact after_map _ .teardownSession fun _ => rfl
  | freeMap =>
    cases b <;> cases heffect
    rfl
  | setCalls pending =>
    cases b <;> cases heffect
    rfl

lemma exec_of_not_spared {b b' : Bool} (i : ManagerInstr) (heffect : effect b i = some b')
    (hnot : ¬ Spared cfg b m answers i) : b = true ∧ ∃ rest, (exec cfg m answers i).2 = .lock :: rest := by
  cases i with
  | admitOpen connId sess =>
    cases b <;> cases heffect
    obtain ⟨hends, hcalled⟩ := Classical.not_imp.mp hnot
    refine ⟨rfl, _, (admitOpen_cases connId sess m answers).trans (if_pos ⟨?_, hends⟩)⟩
    exact Bool.not_eq_false _ ▸ hcalled
  | failPending execId =>
    obtain ⟨hheld, hleft⟩ := Classical.not_imp.mp hnot
    obtain ⟨hfind, hfailed⟩ := not_or.mp hleft
    obtain ⟨p, hp⟩ := Option.ne_none_iff_exists'.mp hfind
    refine ⟨hheld, [.exec (.acquire p.callerConnId .send)], ?_⟩
    change (failPending execId m answers).2 = _
    simp only [failPending, hp, if_neg hfailed]
    rfl
  | _ => exact absurd trivial hnot

lemma discipline (cfg : ManagerConfig) : Discipline (program cfg) effect (Spared cfg) where
  start := after_start
  keeps _ _ _ _ i := after_exec i
  breaks _ _ _ _ i := exec_of_not_spared i

/-- A manager on a thread that is doing nothing with it. -/
def idle (m : ConnectionManager) : Thread ConnectionManager ManagerInstr := { mem := m }

def step (cfg : ManagerConfig) : Thread ConnectionManager ManagerInstr →
    Event SocketAnswers ManagerOperation → Thread ConnectionManager ManagerInstr :=
  Thread.step (program cfg)

/-- The manager never acquires the mutex that it holds, in any state of a run, exactly when every
instruction of the run is spared. -/
theorem mutex_acquired_once_iff (cfg : ManagerConfig) (m : ConnectionManager)
    (events : List (Event SocketAnswers ManagerOperation)) :
    (∀ es, es <+: events → ¬ (es.foldl (step cfg) (idle m)).Deadlocked) ↔
      Machine.Along (step cfg) (Reentrancy.Allows (Spared cfg)) (idle m) events :=
  never_deadlocked_iff (t := idle m) (discipline cfg) rfl events

end ConnectionManager

namespace ManagerExample

def session : SocketSession := ⟨[97], true, 0⟩

/-- A server with room for one connection, which a second client opens. -/
def crowd : List (Event SocketAnswers ManagerOperation) :=
  [.start (.onOpen 1 (some session)), .run {}, .run {}, .run {},
    .start (.onOpen 2 (some session)), .run {}, .run { calledBack := true }]

/-- The refused socket calls its close handler back, and the manager waits for itself. -/
theorem refused_waits : ¬ ∀ es, es <+: crowd →
    ¬ (es.foldl (ConnectionManager.step ⟨1, 0⟩) (ConnectionManager.idle {})).Deadlocked := by
  intro h
  exact h crowd (List.prefix_refl _) ⟨rfl, _, rfl⟩

/-- A worker that is torn down at shutdown fails the call of a connection, which is told so. -/
example : (([.start .deinit, .run {}, .run { order := [2, 1] }, .run {}, .run {}] : List
      (Event SocketAnswers ManagerOperation)).foldl (ConnectionManager.step ⟨2, 0⟩)
    (ConnectionManager.idle
      { map := [(1, ⟨session, false⟩), (2, ⟨session, false⟩)]
        pending := [(1, ⟨1, 2, 7, 0, .store, 0⟩)] })).Deadlocked := ⟨rfl, _, rfl⟩

end ManagerExample
end ZyncBase
