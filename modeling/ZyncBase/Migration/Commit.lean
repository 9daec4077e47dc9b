import ZyncBase.Migration.Plans

/-! The transaction of a migration: its statements act on an uncommitted copy of the database, which
is committed whole or dropped. -/
namespace ZyncBase

open Catalog Outcome DbConnection

variable (d : Dialect SqlValue) (faults : ℕ → Bool)

/-- The database that a plan leaves, its version included. -/
def migrated (plan : MigrationPlan) (version : Bytes) (now : ℤ) : Statement SqlValue := fun db => do
  let changed ← runChanges d plan.changes db
  if plan.changes ≠ [] ∧ ¬ ForeignKeysHold d changed then none
  else runStatements (persistVersion d version now) changed

/-- `BEGIN`, the plan, and `COMMIT`. -/
def transact (plan : MigrationPlan) (version : Bytes) (now : ℤ) : Exec Unit := do
  beginTransaction faults
  applyPlan d faults plan version now
  commit faults

/-- The steps of an execution up to and including `COMMIT`, without what is undone after an error. -/
def throughCommit (config : MigrationConfig) (plan : MigrationPlan) (version : Bytes) (now : ℤ) : Exec Unit := do
  checkPlan config faults plan version
  let enabled ← (if plan.changes = [] then pure false else foreignKeysEnabled faults)
  (if enabled then setForeignKeys faults false else pure ())
  transact d faults plan version now

/-- Inside a transaction the computation does to its database what the statement does, unless it ends with an
error. The database on disk stays. -/
def Computes (x : Exec Unit) (f : Statement SqlValue) : Prop := ∀ c db, c.transaction = some db →
  (∃ c' db', x c = .ok () c' ∧ f db = some db' ∧ c'.transaction = some db' ∧ c'.committed = c.committed) ∨
    ∃ e c', x c = .error e c' ∧ c'.committed = c.committed

variable {c : DbConnection}
variable {d faults}

lemma attempt_of_fault (h : faults c.calls = true) :
    attempt faults c = .error .sqlite { c with calls := c.calls + 1 } := by
  rw [attempt, if_pos h]

lemma attempt_of_no_fault (h : faults c.calls = false) :
    attempt faults c = .ok () { c with calls := c.calls + 1 } := by
  rw [attempt, if_neg (by simp [h])]

lemma exec_of_no_fault {s : Statement SqlValue} (h : faults c.calls = false) :
    exec faults s c = match s c.db with
      | none => .error .sqlite { c with calls := c.calls + 1 }
      | some db => .ok () (({ c with calls := c.calls + 1 } : DbConnection).write db) := by
  rw [exec, run_bind_of_ok (attempt_of_no_fault h)]
  change (match s c.db with
    | none => throw MigrationError.sqlite
    | some db => modify fun c => c.write db : Exec Unit) { c with calls := c.calls + 1 } = _
  cases s c.db <;> rfl

lemma runChange_eq {change : Change} : runChange d faults change c = match applyChange d change c.db with
    | .error e => .error e c
    | .ok ss => ss.forM (exec faults) c := by
  change (match applyChange d change c.db with
    | .error e => throw e
    | .ok ss => ss.forM (exec faults) : Exec Unit) c = _
  cases applyChange d change c.db <;> rfl

lemma verifyForeignKeys_of_no_fault (h : faults c.calls = false) : verifyForeignKeys d faults c =
    if ForeignKeysHold d c.db then .ok () { c with calls := c.calls + 1 }
      else .error .foreignKeyViolation { c with calls := c.calls + 1 } := by
  rw [verifyForeignKeys, run_bind_of_ok (attempt_of_no_fault h)]
  change (if ¬ ForeignKeysHold d c.db then throw MigrationError.foreignKeyViolation
    else Pure.pure () : Exec Unit) { c with calls := c.calls + 1 } = _
  by_cases hk : ForeignKeysHold d c.db
  · rw [if_neg (not_not.mpr hk), if_pos hk]
    rfl
  · rw [if_pos hk, if_neg hk]
    rfl

lemma DbConnection.db_of_transaction {db : Db SqlValue} (h : c.transaction = some db) : c.db = db := by
  rw [DbConnection.db, h]
  rfl

namespace Computes

lemma pure : Computes (pure () : Exec Unit) some := fun c db h => .inl ⟨c, db, rfl, rfl, h, rfl⟩

lemma bind {x y : Exec Unit} {f g : Statement SqlValue} (hx : Computes x f)
    (hy : Computes y g) : Computes (do x; y) fun db => f db >>= g := by
  intro c db h
  obtain ⟨c', db', hok, hf, hdb, hsame⟩ | ⟨e, c', herr, hsame⟩ := hx c db h
  · have hrun : (do x; y : Exec Unit) c = y c' := run_bind_of_ok hok
    rw [hrun, ← hsame]
    refine (hy c' db' hdb).imp_left fun ⟨c'', db'', hok', hg, h'⟩ => ⟨c'', db'', hok', ?_, h'⟩
    change f db >>= g = _
    rw [hf]
    exact hg
  · exact .inr ⟨e, c', run_bind_of_error herr, hsame⟩

lemma exec (s : Statement SqlValue) : Computes (exec faults s) s := by
  intro c db h
  cases hfault : faults c.calls with
  | true => exact .inr ⟨_, _, run_bind_of_error (attempt_of_fault hfault), rfl⟩
  | false =>
    rw [exec_of_no_fault hfault, db_of_transaction h]
    cases hs : s db with
    | none => exact .inr ⟨_, _, rfl, rfl⟩
    | some db' =>
      refine .inl ⟨{ c with calls := c.calls + 1, transaction := some db' }, db', ?_, rfl, rfl, rfl⟩
      change EStateM.Result.ok () (write _ db') = _
      rw [write]
      change EStateM.Result.ok () (match c.transaction with | none => _ | some _ => _) = _
      rw [h]

lemma statements (ss : List (Statement SqlValue)) :
    Computes (ss.forM (ZyncBase.exec faults)) (runStatements ss) := by
  induction ss with
  | nil => exact pure
  | cons s ss ih =>
    have hcons : (runStatements (s :: ss) : Statement SqlValue) = fun db => s db >>= runStatements ss := by
      funext db
      rw [runStatements, List.foldlM_cons]
      rfl
    rw [hcons]
    exact (exec s).bind ih

lemma runChange (c : Change) : Computes (runChange d faults c) (c.run d) := by
  intro conn db h
  rw [runChange_eq, db_of_transaction h, Change.run]
  cases applyChange d c db with
  | error e => exact .inr ⟨e, conn, rfl, rfl⟩
  | ok ss => exact statements ss conn db h

lemma changes (cs : List Change) : Computes (cs.forM (ZyncBase.runChange d faults)) (runChanges d cs) := by
  induction cs with
  | nil => exact pure
  | cons c cs ih =>
    have hcons : runChanges d (c :: cs) = fun db => c.run d db >>= runChanges d cs := by
      funext db
      rw [runChanges, List.foldlM_cons]
      rfl
    rw [hcons]
    exact (runChange c).bind ih

lemma verify : Computes (verifyForeignKeys d faults)
    fun db => if ForeignKeysHold d db then some db else none := by
  intro c db h
  cases hfault : faults c.calls with
  | true => exact .inr ⟨_, _, run_bind_of_error (attempt_of_fault hfault), rfl⟩
  | false =>
    rw [verifyForeignKeys_of_no_fault hfault, db_of_transaction h]
    by_cases hk : ForeignKeysHold d db
    · rw [if_pos hk]
      exact .inl ⟨_, db, rfl, if_pos hk, h, rfl⟩
    · rw [if_neg hk]
      exact .inr ⟨_, _, rfl, rfl⟩

lemma applyPlan (plan : MigrationPlan) (version : Bytes) (now : ℤ) :
    Computes (applyPlan d faults plan version now) (migrated d plan version now) := by
  have hlast : Computes
      (do
        (if plan.changes = [] then Pure.pure () else verifyForeignKeys d faults)
        (persistVersion d version now).forM (ZyncBase.exec faults))
      fun db => if plan.changes ≠ [] ∧ ¬ ForeignKeysHold d db then none
        else runStatements (persistVersion d version now) db := by
    by_cases hnil : plan.changes = []
    · simp only [hnil, if_true, ne_eq, not_true_eq_false, false_and, if_false]
      exact pure.bind (statements _)
    · simp only [hnil, if_false, ne_eq, not_false_eq_true, true_and]
      have h := (@verify d faults).bind (@statements faults (persistVersion d version now))
      convert h using 2 with db
      by_cases hk : ForeignKeysHold d db
      · simp [hk]
      · simp [hk]
  exact (changes plan.changes).bind hlast

end Computes

section Outside

lemma run_get_bind {α : Type} (f : DbConnection → Exec α) (c : DbConnection) : (get >>= f) c = f c c := rfl

/-- Outside a transaction the database stays, and none is opened. -/
def Outside (c c' : DbConnection) : Prop :=
  c.transaction = none → c'.committed = c.committed ∧ c'.transaction = none

namespace Outside

lemma refl (c : DbConnection) : Outside c c := fun h => ⟨rfl, h⟩

lemma trans {a b c : DbConnection} (h : Outside a b) (h' : Outside b c) : Outside a c :=
  fun hnone => ⟨(h' (h hnone).2).1.trans (h hnone).1, (h' (h hnone).2).2⟩

lemma attempt : Leads Outside (attempt faults) := by
  intro c h
  unfold ZyncBase.attempt
  split_ifs
  · exact ⟨rfl, h⟩
  · exact ⟨rfl, h⟩

lemma enabled (plan : MigrationPlan) :
    Leads Outside (if plan.changes = [] then pure false else foreignKeysEnabled faults) := by
  split_ifs
  · exact .pure refl false
  · exact .bind @trans attempt fun _ c h => ⟨rfl, h⟩

lemma setForeignKeys (enabled value : Bool) :
    Leads Outside (if enabled then setForeignKeys faults value else pure ()) := by
  split_ifs
  · refine .bind @trans attempt fun _ c => ?_
    change Outside c (if c.transaction.isSome then c else { c with foreignKeys := value })
    split_ifs
    · exact refl c
    · exact fun h => ⟨rfl, h⟩
  · exact .pure refl ()

lemma checkPlan (config : MigrationConfig) (plan : MigrationPlan) (version : Bytes) :
    Leads Outside (checkPlan config faults plan version) := by
  unfold ZyncBase.checkPlan
  split_ifs
  · exact .throw refl _
  · cases parseVersion version with
    | none => exact .throw refl _
    | some target =>
      refine .bind @trans attempt fun _ c => ?_
      rw [run_get_bind]
      cases checkVersion target c.db <;> exact refl c

end Outside

lemma onError_of_ok {x cleanup : Exec Unit} {c' : DbConnection} (h : x c = .ok () c') :
    onError x cleanup c = .ok () c' := by
  rw [onError, h]

lemma onError_of_error {x cleanup : Exec Unit} {c' : DbConnection} {e : MigrationError}
    (h : x c = .error e c') : onError x cleanup c = .error e (final (cleanup c')) := by
  rw [onError, h]

lemma committed_onError {x cleanup : Exec Unit} (h : ∀ c, (final (cleanup c)).committed = c.committed)
    (c : DbConnection) : (final (onError x cleanup c)).committed = (final (x c)).committed := by
  unfold onError
  cases x c with
  | ok _ c' => rfl
  | error e c' => exact h c'

lemma committed_rollback (c : DbConnection) : (final (rollback faults c)).committed = c.committed := by
  cases hfault : faults c.calls with
  | true =>
    have h : rollback faults c = .error .sqlite { c with calls := c.calls + 1 } :=
      run_bind_of_error (attempt_of_fault hfault)
    rw [h]
    rfl
  | false =>
    rw [rollback, run_bind_of_ok (attempt_of_no_fault hfault)]
    rfl

lemma committed_setForeignKeys (enabled value : Bool) (c : DbConnection) :
    (final ((if enabled then setForeignKeys faults value else pure () : Exec Unit) c)).committed = c.committed := by
  split_ifs
  · cases hfault : faults c.calls with
    | true =>
      have h : setForeignKeys faults value c = .error .sqlite { c with calls := c.calls + 1 } :=
        run_bind_of_error (attempt_of_fault hfault)
      rw [h]
      rfl
    | false =>
      rw [setForeignKeys, run_bind_of_ok (attempt_of_no_fault hfault)]
      change (if c.transaction.isSome then _ else _ : DbConnection).committed = _
      split_ifs <;> rfl
  · rfl

end Outside

section Execute

variable {config : MigrationConfig} {plan : MigrationPlan} {version : Bytes} {now : ℤ}

lemma begin_cases (h : c.transaction = none) :
    (∃ c', beginTransaction faults c = .ok () c' ∧ c'.committed = c.committed ∧
        c'.transaction = some c.committed) ∨
      ∃ e c', beginTransaction faults c = .error e c' ∧ c'.committed = c.committed := by
  cases hfault : faults c.calls with
  | true => exact .inr ⟨_, _, run_bind_of_error (attempt_of_fault hfault), rfl⟩
  | false =>
    refine .inl ⟨{ c with calls := c.calls + 1, transaction := some c.committed }, ?_, rfl, rfl⟩
    rw [beginTransaction, run_bind_of_ok (attempt_of_no_fault hfault)]
    change (if c.transaction.isSome = true then throw MigrationError.sqlite
      else modify fun c => { c with transaction := some c.committed } : Exec Unit)
        { c with calls := c.calls + 1 } = _
    rw [h]
    rfl

lemma commit_cases {db : Db SqlValue} (h : c.transaction = some db) :
    (∃ c', commit faults c = .ok () c' ∧ c'.committed = db) ∨
      ∃ e c', commit faults c = .error e c' ∧ c'.committed = c.committed := by
  cases hfault : faults c.calls with
  | true => exact .inr ⟨_, _, run_bind_of_error (attempt_of_fault hfault), rfl⟩
  | false =>
    refine .inl ⟨{ c with calls := c.calls + 1, committed := c.db, transaction := none }, ?_, ?_⟩
    · rw [commit, run_bind_of_ok (attempt_of_no_fault hfault)]
      rfl
    · exact db_of_transaction h

lemma transact_cases (h : c.transaction = none) :
    (∃ c', transact d faults plan version now c = .ok () c' ∧
        migrated d plan version now c.committed = some c'.committed) ∨
      ∃ e c', transact d faults plan version now c = .error e c' ∧ c'.committed = c.committed := by
  unfold transact
  obtain ⟨c₁, hbegin, hsame, hopen⟩ | ⟨e, c₁, herr, hsame⟩ := @begin_cases faults c h
  · rw [run_bind_of_ok hbegin]
    obtain ⟨c₂, db, hok, hrun, hdb, hkept⟩ | ⟨e, c₂, herr, hkept⟩ :=
      @Computes.applyPlan d faults plan version now c₁ _ hopen
    · rw [run_bind_of_ok hok]
      obtain ⟨c₃, hcommit, rfl⟩ | ⟨e, c₃, herr, hkept'⟩ := @commit_cases faults c₂ db hdb
      · exact .inl ⟨c₃, hcommit, hrun⟩
      · exact .inr ⟨e, c₃, herr, hkept'.trans (hkept.trans hsame)⟩
    · exact .inr ⟨e, c₂, run_bind_of_error herr, hkept.trans hsame⟩
  · exact .inr ⟨e, c₁, run_bind_of_error herr, hsame⟩

/-- What follows `COMMIT` starts where the transaction ends; the rollback after an error leaves the database on
disk as it was then. -/
lemma transact_then (last : Exec Unit) : match transact d faults plan version now c with
    | .ok _ c' => (do
        beginTransaction faults
        onError
          (do
            applyPlan d faults plan version now
            commit faults) (rollback faults)
        last : Exec Unit) c = last c'
    | .error e c' => ∃ c'', (do
        beginTransaction faults
        onError
          (do
            applyPlan d faults plan version now
            commit faults) (rollback faults)
        last : Exec Unit) c = .error e c'' ∧ c''.committed = c'.committed := by
  unfold transact
  cases hbegin : beginTransaction faults c with
  | error e c₁ =>
    rw [run_bind_of_error hbegin, run_bind_of_error hbegin]
    exact ⟨c₁, rfl, rfl⟩
  | ok _ c₁ =>
    rw [run_bind_of_ok hbegin, run_bind_of_ok hbegin]
    cases hrest : (do
      applyPlan d faults plan version now
      commit faults : Exec Unit) c₁ with
    | error e c₂ => exact ⟨_, run_bind_of_error (onError_of_error hrest), committed_rollback c₂⟩
    | ok _ c₂ => exact run_bind_of_ok (onError_of_ok hrest)

/-- Where a step up to `COMMIT` fails, so does the execution, and the database is as it was. Otherwise it is
migrated, also if the enforcement of foreign keys fails to come back behind `COMMIT`. -/
lemma execute_cases (h : c.transaction = none) : match throughCommit d faults config plan version now c with
    | .error e _ => ∃ c', execute d config faults plan version now c = .error e c' ∧ c'.committed = c.committed
    | .ok _ _ => migrated d plan version now c.committed =
        some (final (execute d config faults plan version now c)).committed := by
  unfold throughCommit execute
  cases hcheck : checkPlan config faults plan version c with
  | error e c₁ =>
    rw [run_bind_of_error hcheck, run_bind_of_error hcheck]
    exact ⟨c₁, rfl, ((Outside.checkPlan config plan version).error hcheck h).1⟩
  | ok _ c₁ =>
    rw [run_bind_of_ok hcheck, run_bind_of_ok hcheck]
    have h₁ := (Outside.checkPlan config plan version).ok hcheck h
    cases hread : (if plan.changes = [] then pure false else foreignKeysEnabled faults : Exec Bool) c₁ with
    | error e c₂ =>
      rw [run_bind_of_error hread, run_bind_of_error hread]
      exact ⟨c₂, rfl, ((Outside.enabled plan).error hread h₁.2).1.trans h₁.1⟩
    | ok enabled c₂ =>
      rw [run_bind_of_ok hread, run_bind_of_ok hread]
      have h₂ := (Outside.enabled plan).ok hread h₁.2
      cases hoff : (if enabled then setForeignKeys faults false else pure () : Exec Unit) c₂ with
      | error e c₃ =>
        rw [run_bind_of_error hoff, run_bind_of_error hoff]
        exact ⟨c₃, rfl, ((Outside.setForeignKeys enabled false).error hoff h₂.2).1.trans (h₂.1.trans h₁.1)⟩
      | ok _ c₃ =>
        rw [run_bind_of_ok hoff, run_bind_of_ok hoff]
        have h₃ := (Outside.setForeignKeys enabled false).ok hoff h₂.2
        have hsame := h₃.1.trans (h₂.1.trans h₁.1)
        have hthen := @transact_then d faults c₃ plan version now
          (if enabled then setForeignKeys faults true else pure ())
        obtain ⟨c₄, hok, hmigrated⟩ | ⟨e, c₄, herr, hkept⟩ :=
          @transact_cases d faults c₃ plan version now h₃.2
        · rw [hok] at hthen ⊢
          rw [hsame] at hmigrated
          rw [hmigrated, committed_onError (committed_setForeignKeys enabled true), hthen,
            committed_setForeignKeys]
        · rw [herr] at hthen ⊢
          obtain ⟨c₅, hrun, hsame'⟩ := hthen
          exact ⟨_, onError_of_error hrun,
            (committed_setForeignKeys enabled true c₅).trans (hsame'.trans (hkept.trans hsame))⟩

end Execute
end ZyncBase
