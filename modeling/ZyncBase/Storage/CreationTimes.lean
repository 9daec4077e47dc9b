import ZyncBase.Lib.LogicalClock
import ZyncBase.Lib.Machine
import ZyncBase.Storage.Entries
import ZyncBase.Storage.SessionResolution
import ZyncBase.Sql.FilterAgreement

/-! The creation times of the rows that are inserted: in the order of their commits, over any writes
and restarts. -/
namespace ZyncBase

open AssocMap List LogicalClock Outcome Database WriteWorker

/-- The rows that the second database has and the first has not, with their creation times. -/
def Database.insertions (db db' : Database) : List (RowKey × ℤ) :=
  (db'.rows.filter fun e => (db.row e.1).isNone).map fun e => (e.1, e.2.createdAt)

/-- The creation times as stamps of the clocks of the tables. -/
def stamps (ins : List (RowKey × ℤ)) : List (ℕ × ℤ) := ins.map fun e => (e.1.tableIndex, e.2)

def timesOf (tableIndex : ℕ) (ins : List (RowKey × ℤ)) : List ℤ :=
  (ins.filter fun e => e.1.tableIndex = tableIndex).map Prod.snd

def Database.DistinctTimes (db : Database) : Prop :=
  ∀ key r key' r', db.row key = some r → db.row key' = some r' →
    key.tableIndex = key'.tableIndex → r.createdAt = r'.createdAt → key = key'

def Database.Before (db : Database) (clock : ℕ → ℤ) : Prop :=
  ∀ key r, db.row key = some r → r.createdAt ≤ clock key.tableIndex

/-- The rows are inserted in this order while the clocks give their creation times, and all others
keep theirs. -/
structure Timed (clock : ℕ → ℤ) (db : Database) (ins : List (RowKey × ℤ)) (clock' : ℕ → ℤ)
    (db' : Database) : Prop where
  gives : Gives clock (stamps ins) clock'
  range : ∀ e ∈ ins, 0 < e.2 ∧ e.2 ≤ maxSafeTimestampUs
  rows : ∀ key r', db'.row key = some r' →
    (∃ r, db.row key = some r ∧ r.createdAt = r'.createdAt) ∨ (key, r'.createdAt) ∈ ins

lemma map_timesOf (tableIndex : ℕ) (ins : List (RowKey × ℤ)) :
    ((stamps ins).filter fun e => e.1 = tableIndex).map Prod.snd = timesOf tableIndex ins := by
  rw [stamps, timesOf, filter_map, map_map]
  rfl

section Clock

variable {clock clock' : ℕ → ℤ} {tableIndex : ℕ} {candidateUs createdAt : ℤ}

lemma ClaimedAt.gives (h : ClaimedAt clock tableIndex candidateUs createdAt clock') :
    Gives clock [(tableIndex, createdAt)] clock' := by
  rw [h.updated]
  exact .one (lt_of_claimNextCreatedAt h.granted)

lemma ClaimedAt.range (h : ClaimedAt clock tableIndex candidateUs createdAt clock') :
    0 < createdAt ∧ createdAt ≤ maxSafeTimestampUs := by
  have hgranted := h.granted
  unfold claimNextCreatedAt at hgranted
  split_ifs at hgranted with hrefused
  cases hgranted
  simp only [not_or, not_lt, not_le, ge_iff_le, gt_iff_lt] at hrefused
  obtain ⟨hlast, hbound, -, hcandidate⟩ := hrefused
  exact ⟨(Int.lt_add_one_of_le hlast).trans_le (le_max_right _ _), max_le hcandidate hbound⟩

end Clock

variable {e : RowKey × ℤ}

section Timed

variable {clock clock' clock'' : ℕ → ℤ} {db db' db'' : Database} {ins ins' : List (RowKey × ℤ)} {key : RowKey}

lemma mem_insertions : e ∈ db.insertions db' ↔
    db.row e.1 = none ∧ ∃ r, db'.row e.1 = some r ∧ r.createdAt = e.2 := by
  obtain ⟨key, t⟩ := e
  simp only [Database.insertions, mem_map, mem_filter, Option.isNone_iff_eq_none, Prod.mk.injEq]
  constructor
  · rintro ⟨⟨k, r⟩, ⟨hr, hnone⟩, rfl, rfl⟩
    exact ⟨hnone, r, mem_rows.mp hr, rfl⟩
  · rintro ⟨hnone, r, hr, rfl⟩
    exact ⟨(key, r), ⟨mem_rows.mpr hr, hnone⟩, rfl, rfl⟩

lemma insertions_put {r : Row} (hnew : db.row key = none) :
    db.insertions (db.put key r) = [(key, r.createdAt)] := by
  have hrest : (remove eqKey key db.rows).filter (fun e => (db.row e.1).isNone) = [] := by
    refine filter_eq_nil_iff.mpr fun e he => ?_
    have hrow : db.row e.1 = some e.2 := mem_rows.mp (mem_of_mem_filter he)
    rw [hrow]
    exact Bool.false_ne_true
  have hperm := ((perm_put (k := key) (v := r) db.distinct).filter fun e =>
    (db.row e.1).isNone).map fun e => (e.1, e.2.createdAt)
  rw [filter_cons_of_pos (by rw [hnew]; rfl), hrest] at hperm
  exact perm_singleton.mp hperm

namespace Timed

lemma of_kept (hclock : ∀ i, clock i ≤ clock' i)
    (h : ∀ key r', db'.row key = some r' → ∃ r, db.row key = some r ∧ r.createdAt = r'.createdAt) :
    Timed clock db (db.insertions db') clock' db' := by
  have hnone : db.insertions db' = [] := by
    refine eq_nil_iff_forall_not_mem.mpr fun e he => ?_
    obtain ⟨hnew, r', hr', _⟩ := mem_insertions.mp he
    obtain ⟨r, hr, _⟩ := h e.1 r' hr'
    rw [hnew] at hr
    cases hr
  rw [hnone]
  exact ⟨.of_le hclock, fun _ h => absurd h not_mem_nil, fun key r' hr' => .inl (h key r' hr')⟩

lemma refl (clock : ℕ → ℤ) (db : Database) : Timed clock db [] clock db :=
  ⟨.of_le fun _ => le_rfl, fun _ h => absurd h not_mem_nil, fun _ r' hr' => .inl ⟨r', hr', rfl⟩⟩

lemma append (h : Timed clock db ins clock' db') (h' : Timed clock' db' ins' clock'' db'') :
    Timed clock db (ins ++ ins') clock'' db'' := by
  refine ⟨?_, forall_mem_append.mpr ⟨h.range, h'.range⟩, fun key r'' hr'' => ?_⟩
  · rw [stamps, map_append]
    exact h.gives.append h'.gives
  · obtain ⟨r', hr', ht⟩ | hmem := h'.rows key r'' hr''
    · rw [← ht]
      exact (h.rows key r' hr').imp_right (mem_append_left _)
    · exact .inr (mem_append_right _ hmem)

lemma put {r : Row} {candidateUs : ℤ} (hnew : db.row key = none)
    (hclaim : ClaimedAt clock key.tableIndex candidateUs r.createdAt clock') :
    Timed clock db (db.insertions (db.put key r)) clock' (db.put key r) := by
  rw [insertions_put hnew]
  refine ⟨hclaim.gives, forall_mem_singleton.mpr hclaim.range, fun key' r' hr' => ?_⟩
  rw [row_put] at hr'
  split_ifs at hr' with hk
  · cases hr'
    exact .inr (hk ▸ mem_singleton_self _)
  · exact .inl ⟨r', hr', rfl⟩

lemma before (h : Timed clock db ins clock' db') (hdb : db.Before clock) : db'.Before clock' := by
  intro key r' hr'
  obtain ⟨r, hr, ht⟩ | hmem := h.rows key r' hr'
  · rw [← ht]
    exact (hdb key r hr).trans (h.gives.le _)
  · exact h.gives.below _ (mem_map_of_mem (f := fun e : RowKey × ℤ => (e.1.tableIndex, e.2)) hmem)

lemma lt_of_mem (h : Timed clock db ins clock' db') (hdb : db.Before clock)
    (he : e ∈ ins) {r : Row} (hr : db.row key = some r) (htable : key.tableIndex = e.1.tableIndex) :
    r.createdAt < e.2 := by
  have habove := h.gives.above _ (mem_map_of_mem (f := fun e : RowKey × ℤ => (e.1.tableIndex, e.2)) he)
  exact (htable ▸ hdb key r hr).trans_lt habove

lemma eq_of_times (h : Timed clock db ins clock' db') {e' : RowKey × ℤ} (he : e ∈ ins)
    (he' : e' ∈ ins) (htable : e.1.tableIndex = e'.1.tableIndex) (htime : e.2 = e'.2) : e = e' := by
  have hnodup : (stamps ins).Nodup := h.gives.increasing.imp fun hlt heq => by
    rw [heq] at hlt
    exact lt_irrefl _ (hlt rfl)
  exact inj_on_of_nodup_map hnodup he he' (Prod.ext htable htime)

lemma distinctTimes (h : Timed clock db ins clock' db') (hdb : db.Before clock)
    (hdistinct : db.DistinctTimes) : db'.DistinctTimes := by
  intro key r key' r' hr hr' htable htime
  obtain ⟨r₀, hr₀, ht⟩ | hmem := h.rows key r hr <;> obtain ⟨r₁, hr₁, ht'⟩ | hmem' := h.rows key' r' hr'
  · exact hdistinct key r₀ key' r₁ hr₀ hr₁ htable (ht.trans (htime.trans ht'.symm))
  · have hlt := h.lt_of_mem hdb hmem' hr₀ htable
    exact absurd (ht.trans htime) hlt.ne
  · have hlt := h.lt_of_mem hdb hmem hr₁ htable.symm
    exact absurd (ht'.trans htime.symm) hlt.ne
  · exact congrArg Prod.fst (h.eq_of_times hmem hmem' htable htime)

end Timed
end Timed

section Statements

variable {s : Schema} {clock clock' : ℕ → ℤ} {db : Database} {key : RowKey} {candidate : Row}

/-- An upsert inserts its row at the claimed time, or leaves the creation time of the row there. -/
lemma Database.upsert_timed (selects : Record → Bool) (columns : List ColumnValue) {candidateUs : ℤ}
    (hclaim : ClaimedAt clock key.tableIndex candidateUs candidate.createdAt clock') :
    Timed clock db (db.insertions (db.upsert selects key candidate columns).1) clock'
      (db.upsert selects key candidate columns).1 := by
  unfold upsert
  cases hrow : db.row key with
  | none => exact .put hrow hclaim
  | some r =>
    dsimp only
    split_ifs
    · refine .of_kept hclaim.gives.le fun key' r' hr' => ?_
      rw [row_put] at hr'
      split_ifs at hr' with hk
      · cases hr'
        exact ⟨r, hk ▸ hrow, rfl⟩
      · exact ⟨r', hr', rfl⟩
    · exact .of_kept hclaim.gives.le fun key' r' hr' => ⟨r', hr', rfl⟩

lemma Database.update_keeps (selects : Record → Bool) (namespaceId : ℤ)
    (columns : List ColumnValue) (updatedAt : ℤ) {key' : RowKey} {r' : Row}
    (hr' : (db.update selects key namespaceId columns updatedAt).1.row key' = some r') :
    ∃ r, db.row key' = some r ∧ r.createdAt = r'.createdAt := by
  unfold update at hr'
  cases hrow : db.row key with
  | none =>
    rw [hrow] at hr'
    exact ⟨r', hr', rfl⟩
  | some r =>
    simp only [hrow] at hr'
    split_ifs at hr'
    · rw [row_put] at hr'
      split_ifs at hr' with hk
      · cases hr'
        exact ⟨r, hk ▸ hrow, rfl⟩
      · exact ⟨r', hr', rfl⟩
    · exact ⟨r', hr', rfl⟩

lemma Database.delete_keeps (selects : Record → Bool) (namespaceId : ℤ) {key' : RowKey} {r' : Row}
    (hr' : (db.delete selects s key namespaceId).1.row key' = some r') :
    ∃ r, db.row key' = some r ∧ r.createdAt = r'.createdAt := by
  unfold delete at hr'
  cases hrow : db.row key with
  | none =>
    rw [hrow] at hr'
    exact ⟨r', hr', rfl⟩
  | some r =>
    simp only [hrow] at hr'
    split_ifs at hr'
    · rw [row_deleteCascading] at hr'
      split_ifs at hr'
      obtain ⟨r₀, hr₀, rfl⟩ := Option.map_eq_some_iff.mp hr'
      exact ⟨r₀, hr₀, rfl⟩
    · exact ⟨r', hr', rfl⟩

end Statements

section Operations

variable {s : Schema} {sqlite : Sqlite} {ctx ctx' : BatchCtx} {failFast : Bool} {opIdx : ℕ}

lemma executeEntry_timed {op : RowOp} {b : Bool} (h : executeEntry s sqlite op ctx = .ok b ctx') :
    Timed ctx.lastCreatedAt ctx.db (ctx.db.insertions ctx'.db) ctx'.lastCreatedAt ctx'.db := by
  have hclock : ∀ i, ctx.lastCreatedAt i ≤ ctx'.lastCreatedAt i := (follows_clock.executeEntry op).ok h
  cases op with
  | upsert op =>
    obtain ⟨target, ctx₁, htarget, hentry⟩ := run_bind_eq_ok.mp h
    obtain ⟨rfl, ht, _⟩ := resolveEntryTarget_eq_ok htarget
    obtain ⟨old, guard, createdAt, last, p, _, _, hclaim, hp, hcase⟩ :=
      executeUpsertEntry_eq_ok ht hentry
    have hres : WriteResult ctx₁.db ⟨op.tableIndex, op.id⟩ _ p :=
      hp ▸ upsert_result _ _ rfl
    have hctx : ctx'.db = p.1 ∧ ctx'.lastCreatedAt = last := by
      obtain ⟨hnone, _, rfl⟩ | ⟨_, _, rfl⟩ := hcase
      · exact ⟨(hres.unchanged hnone).symm, rfl⟩
      · exact ⟨track_db _ _, track_lastCreatedAt _ _⟩
    rw [hctx.1, hctx.2, hp]
    exact upsert_timed _ _ hclaim
  | update op =>
    obtain ⟨t, guard, p, _, _, hp, hdb, _⟩ := executeEntry_performs h
    rw [hdb]
    cases hp with
    | update => exact .of_kept hclock fun _ _ => update_keeps _ _ _ _
  | delete op =>
    obtain ⟨t, guard, p, _, _, hp, hdb, _⟩ := executeEntry_performs h
    rw [hdb]
    cases hp with
    | delete => exact .of_kept hclock fun _ _ => delete_keeps _ _

lemma runOps_one_timed {op : RowOp} {u : Unit} (h : runOps s sqlite failFast opIdx [op] ctx = .ok u ctx') :
    Timed ctx.lastCreatedAt ctx.db (ctx.db.insertions ctx'.db) ctx'.lastCreatedAt ctx'.db := by
  obtain ⟨b, c, hexec, hguard⟩ := runOps_one h
  have htimed := executeEntry_timed hexec
  obtain rfl | rfl := guardOutcome_eq_ok hguard
  · exact htimed
  · exact htimed

/-- The rows that the operations insert, in their order, as far as they succeed. -/
def runInsertions (s : Schema) (sqlite : Sqlite) (failFast : Bool) :
    ℕ → List RowOp → BatchCtx → List (RowKey × ℤ)
  | _, [], _ => []
  | opIdx, op :: ops, ctx =>
    match runOps s sqlite failFast opIdx [op] ctx with
    | .error _ _ => []
    | .ok _ c => ctx.db.insertions c.db ++ runInsertions s sqlite failFast (opIdx + 1) ops c

lemma runOps_timed {ops : List RowOp} {u : Unit} (h : runOps s sqlite failFast opIdx ops ctx = .ok u ctx') :
    Timed ctx.lastCreatedAt ctx.db (runInsertions s sqlite failFast opIdx ops ctx)
      ctx'.lastCreatedAt ctx'.db := by
  induction ops generalizing opIdx ctx with
  | nil =>
    obtain ⟨_, rfl⟩ := run_pure_eq_ok.mp h
    exact .refl _ _
  | cons op ops ih =>
    obtain ⟨c, hop, hrest⟩ := runOps_cons.mp h
    rw [runInsertions, hop]
    exact (runOps_one_timed hop).append (ih hrest)

lemma runOps_clock (ops : List RowOp) : Leads (fun c c' => ∀ i, c.lastCreatedAt i ≤ c'.lastCreatedAt i)
    (runOps s sqlite failFast opIdx ops) := by
  induction ops generalizing opIdx with
  | nil => exact .pure follows_clock.refl _
  | cons op ops ih =>
    rw [runOps]
    refine follows_clock.bind (fun ctx => ?_) fun succeeded => follows_clock.bind (fun ctx => ?_) fun _ => ih
    · have hentry : Leads _ (executeEntry s sqlite op) := follows_clock.executeEntry op
      have hop := hentry ctx
      unfold executeOp
      cases he : executeEntry s sqlite op ctx with
      | ok b c =>
        rw [he] at hop
        exact hop
      | error e c =>
        rw [he] at hop
        dsimp only [final]
        split_ifs
        · exact hop
        · exact hop
    · unfold guardOutcome
      split_ifs <;> exact fun _ => le_rfl

end Operations

namespace WriteWorker

variable (s : Schema)

/-- The rows inserted by a transaction, none when it is rolled back. -/
def transactionInsertions (sqlite : Sqlite) (failFast : Bool) (ops : List RowOp) (w : WriteWorker) :
    List (RowKey × ℤ) :=
  match w.tryTransaction s sqlite failFast ops with
  | .error _ _ => []
  | .ok _ _ => runInsertions s sqlite failFast 0 ops w.begin

def insertions (w : WriteWorker) : WorkerStep → List (RowKey × ℤ)
  | .flush sqlite ops => w.transactionInsertions s sqlite false ops
  | .batch sqlite entries => w.transactionInsertions s sqlite true entries
  | .resolveSession sqlite newUserId sop =>
    w.db.insertions (w.executeResolveSessionOp s sqlite sop newUserId).db

variable {s} {sqlite : Sqlite} {w : WriteWorker}

lemma runTransaction_timed (failFast : Bool) (ops : List RowOp) :
    Timed w.lastCreatedAt w.db (w.transactionInsertions s sqlite failFast ops)
      (w.runTransaction s sqlite failFast ops).lastCreatedAt (w.runTransaction s sqlite failFast ops).db := by
  have hclock : ∀ i, w.lastCreatedAt i ≤ (final (w.tryTransaction s sqlite failFast ops)).lastCreatedAt i := by
    have hleads : Leads _ (runOps s sqlite failFast 0 ops) := runOps_clock ops
    have hrun := hleads w.begin
    unfold tryTransaction
    cases h : runOps s sqlite failFast 0 ops w.begin with
    | error e c =>
      rw [h] at hrun
      exact hrun
    | ok u c =>
      rw [h] at hrun
      dsimp only
      split <;> exact hrun
  unfold runTransaction transactionInsertions
  cases h : w.tryTransaction s sqlite failFast ops with
  | error e c =>
    rw [h] at hclock
    exact ⟨.of_le hclock, fun _ h => absurd h not_mem_nil, fun _ r' hr' => .inl ⟨r', hr', rfl⟩⟩
  | ok u c => exact runOps_timed (tryTransaction_eq_ok h)

lemma resolveIdentity_timed (sop : ResolveSessionOp) (newUserId : DocId) (t : Table)
    (namespaceId : ℤ) : Timed w.lastCreatedAt w.db
      (w.db.insertions (w.resolveIdentity sqlite sop newUserId t namespaceId).db)
      (w.resolveIdentity sqlite sop newUserId t namespaceId).lastCreatedAt
      (w.resolveIdentity sqlite sop newUserId t namespaceId).db := by
  unfold resolveIdentity claimCreatedAt
  cases hgranted : claimNextCreatedAt (w.lastCreatedAt t.index) sop.timestamp with
  | error e => exact .of_kept (fun _ => le_rfl) fun _ r' hr' => ⟨r', hr', rfl⟩
  | ok createdAt =>
    have hclaim : ClaimedAt w.lastCreatedAt t.index sop.timestamp createdAt
      (Function.update w.lastCreatedAt t.index createdAt) := ⟨hgranted, rfl⟩
    have hkept : Timed w.lastCreatedAt w.db (w.db.insertions w.db)
      (Function.update w.lastCreatedAt t.index createdAt) w.db :=
        .of_kept hclaim.gives.le fun _ r' hr' => ⟨r', hr', rfl⟩
    dsimp only
    unfold resolveUserId
    dsimp only
    cases sqlite.error w.db (.resolveUser ⟨t.index, newUserId⟩
        (newRow t (identityNamespaceId t namespaceId) newUserId (some sop.externalUserId) []
          createdAt)) with
    | some e => exact hkept
    | none =>
      dsimp only
      cases w.db.userRow t.index (identityNamespaceId t namespaceId) sop.externalUserId with
      | some key => exact hkept
      | none =>
        dsimp only
        cases hfresh : w.db.row ⟨t.index, newUserId⟩ with
        | some r => exact hkept
        | none => exact .put hfresh hclaim

lemma resolveSession_timed (sop : ResolveSessionOp) (newUserId : DocId) : Timed w.lastCreatedAt w.db
    (w.db.insertions (w.executeResolveSessionOp s sqlite sop newUserId).db)
    (w.executeResolveSessionOp s sqlite sop newUserId).lastCreatedAt
    (w.executeResolveSessionOp s sqlite sop newUserId).db := by
  have hkept : Timed w.lastCreatedAt w.db (w.db.insertions w.db) w.lastCreatedAt w.db :=
    .of_kept (fun _ => le_rfl) fun _ r' hr' => ⟨r', hr', rfl⟩
  unfold executeResolveSessionOp
  cases hns : w.resolveNamespaceId sqlite sop.nspace with
  | error e => exact hkept
  | ok p =>
    obtain ⟨w₁, namespaceId⟩ := p
    obtain ⟨nss, rfl, _⟩ := resolveNamespaceId_eq_ok hns
    dsimp only
    cases s.table "users" with
    | none => exact hkept
    | some t =>
      have htimed : Timed w.lastCreatedAt w.db _ _ _ := @resolveIdentity_timed sqlite
        { w with namespaces := nss, namespaceCache := put eqKey sop.nspace namespaceId w.namespaceCache }
        sop newUserId t namespaceId
      exact htimed

lemma step_timed (st : WorkerStep) : Timed w.lastCreatedAt w.db (w.insertions s st)
    (w.step s st).lastCreatedAt (w.step s st).db := by
  cases st with
  | flush sqlite ops => exact runTransaction_timed false ops
  | batch sqlite entries => exact runTransaction_timed true entries
  | resolveSession sqlite newUserId sop => exact resolveSession_timed sop newUserId

lemma before_bootstrap {changeQueue : Option (List OwnedRecordChange)} {db : Database}
    {namespaces : List (Bytes × ℤ)}
    (h : bootstrapRuntimeTableState s changeQueue db namespaces = .ok w) :
    w.db = db ∧ w.db.Before w.lastCreatedAt := by
  unfold bootstrapRuntimeTableState at h
  split_ifs at h
  cases h
  refine ⟨rfl, fun key r hr => ?_⟩
  have hmem : r.createdAt ∈ (db.rows.filter fun e => e.1.tableIndex = key.tableIndex).map
      fun e => e.2.createdAt := by
    refine mem_map.mpr ⟨(key, r), mem_filter.mpr ⟨mem_rows.mpr hr, ?_⟩, rfl⟩
    simp
  cases hmax : db.maxCreatedAt key.tableIndex with
  | none =>
    rw [List.max?_eq_none_iff.mp hmax] at hmem
    cases hmem
  | some last =>
    dsimp only
    rw [hmax]
    exact (List.max?_eq_some_iff.mp hmax).2 _ hmem

end WriteWorker

/-- The storage over any number of lives of the server. The rows found at the last start, those
inserted before it that were still stored then, those inserted since and all that were ever inserted
are kept for reference. -/
structure StorageRun where
  worker : WriteWorker
  running : Bool := true
  startRows : Database
  earlier : List (RowKey × ℤ) := []
  since : List (RowKey × ℤ) := []
  inserted : List (RowKey × ℤ) := []

/-- The worker takes a step, or the server starts again, after a shutdown or a crash between two
steps. -/
inductive StorageEvent where
  | work (st : WorkerStep)
  | restart (changeQueue : Option (List OwnedRecordChange))

variable {run : StorageRun}

namespace StorageRun

variable (s : Schema)

def start (w : WriteWorker) : StorageRun where
  worker := w
  startRows := w.db

def isStored (db : Database) (e : RowKey × ℤ) : Bool := (db.row e.1).any fun r => r.createdAt = e.2

/-- A server whose storage fails to start does nothing more until it starts. -/
def step (run : StorageRun) : StorageEvent → StorageRun
  | .work st =>
    if run.running then
      { run with
        worker := run.worker.step s st
        since := run.since ++ run.worker.insertions s st
        inserted := run.inserted ++ run.worker.insertions s st }
    else run
  | .restart changeQueue =>
    match bootstrapRuntimeTableState s changeQueue run.worker.db run.worker.namespaces with
    | .error _ => { run with running := false }
    | .ok w =>
      { worker := w
        startRows := w.db
        earlier := (run.earlier ++ run.since).filter (isStored w.db)
        inserted := run.inserted }

def after (w : WriteWorker) (events : List StorageEvent) : StorageRun :=
  events.foldl (step s) (start w)

variable {s}

lemma isStored_iff {db : Database} : isStored db e = true ↔ ∃ r, db.row e.1 = some r ∧ r.createdAt = e.2 := by
  simp only [isStored, Option.any_eq_true, decide_eq_true_eq]

/-- The clocks are ahead of what is stored, and the insertions that a start could still see, with
those since, are in their order. -/
structure InOrder (run : StorageRun) : Prop where
  stored : run.worker.db.Before run.worker.lastCreatedAt
  upTo : UpTo run.worker.lastCreatedAt (stamps (run.earlier ++ run.since))
  since : ∃ clock, run.startRows.Before clock ∧ Gives clock (stamps run.since) run.worker.lastCreatedAt
  range : ∀ e ∈ run.inserted, 0 < e.2 ∧ e.2 ≤ maxSafeTimestampUs
  sublist : (run.earlier ++ run.since).Sublist run.inserted
  remembered : ∀ e ∈ run.inserted, isStored run.worker.db e → e ∈ run.earlier ++ run.since

lemma InOrder.work (h : run.InOrder) (st : WorkerStep) : (run.step s (.work st)).InOrder := by
  rw [step]
  split_ifs
  · have htimed : Timed _ _ (run.worker.insertions s st) _ _ := run.worker.step_timed st
    obtain ⟨clock, hstart, hsince⟩ := h.since
    refine ⟨htimed.before h.stored, ?_, ⟨clock, hstart, ?_⟩, ?_, ?_, fun e he hstored => ?_⟩
    · rw [← append_assoc, stamps, map_append]
      exact h.upTo.append htimed.gives
    · rw [stamps, map_append]
      exact hsince.append htimed.gives
    · exact forall_mem_append.mpr ⟨h.range, htimed.range⟩
    · rw [← append_assoc]
      exact h.sublist.append (List.Sublist.refl _)
    · rw [← append_assoc]
      obtain he | he := mem_append.mp he
      · obtain ⟨r', hr', ht'⟩ := isStored_iff.mp hstored
        obtain ⟨r, hr, ht⟩ | hmem := htimed.rows e.1 r' hr'
        · exact mem_append_left _ (h.remembered e he (isStored_iff.mpr ⟨r, hr, ht.trans ht'⟩))
        · rw [ht'] at hmem
          exact mem_append_right _ hmem
      · exact mem_append_right _ he
  · exact h

lemma InOrder.restart (h : run.InOrder) (changeQueue : Option (List OwnedRecordChange)) :
    (run.step s (.restart changeQueue)).InOrder := by
  rw [step]
  split
  · exact ⟨h.stored, h.upTo, h.since, h.range, h.sublist, h.remembered⟩
  · rename_i w hboot
    obtain ⟨hdb, hbefore⟩ := before_bootstrap hboot
    refine ⟨hbefore, ?_, ⟨_, hbefore, .of_le fun _ => le_rfl⟩, h.range, ?_, fun e he hstored => ?_⟩
    · rw [append_nil]
      refine h.upTo.reset (List.Sublist.map _ filter_sublist) fun e he => ?_
      obtain ⟨⟨key, t⟩, hmem, rfl⟩ := mem_map.mp he
      obtain ⟨r, hr, ht⟩ := isStored_iff.mp (mem_filter.mp hmem).2
      exact ht ▸ hbefore key r hr
    · rw [append_nil]
      exact filter_sublist.trans h.sublist
    · rw [append_nil, mem_filter]
      exact ⟨h.remembered e he (hdb ▸ hstored), hstored⟩

lemma InOrder.step (h : run.InOrder) (event : StorageEvent) : (run.step s event).InOrder := by
  cases event with
  | work st => exact h.work st
  | restart changeQueue => exact h.restart changeQueue

lemma distinctTimes_step (h : run.InOrder) (hdistinct : run.worker.db.DistinctTimes) (event : StorageEvent) :
    (run.step s event).worker.db.DistinctTimes := by
  cases event with
  | work st =>
    rw [StorageRun.step]
    split_ifs
    · exact (run.worker.step_timed st).distinctTimes h.stored hdistinct
    · exact hdistinct
  | restart changeQueue =>
    rw [StorageRun.step]
    split
    · exact hdistinct
    · rename_i w hboot
      exact (before_bootstrap hboot).1 ▸ hdistinct

lemma inOrder_start {w : WriteWorker} (h : w.db.Before w.lastCreatedAt) : (start w).InOrder where
  stored := h
  upTo := .nil
  since := ⟨_, h, .of_le fun _ => le_rfl⟩
  range _ h := absurd h not_mem_nil
  sublist := List.Sublist.slnil
  remembered _ h := absurd h not_mem_nil

/-- Whatever is written, however often the server restarts and whatever its clock reads: the
creation times of a table increase in the order of the commits, except that a restart forgets those
whose rows it does not find; they are later than what is stored at the last start, and integers that
a JavaScript number represents; and stored rows have different ones. -/
theorem creation_times_in_order {changeQueue : Option (List OwnedRecordChange)} {db : Database}
    {namespaces : List (Bytes × ℤ)} {w : WriteWorker}
    (hboot : bootstrapRuntimeTableState s changeQueue db namespaces = .ok w)
    (events : List StorageEvent) :
    (∀ tableIndex, (timesOf tableIndex ((after s w events).earlier ++
      (after s w events).since)).Pairwise (· < ·)) ∧
    ((after s w events).earlier ++ (after s w events).since).Sublist (after s w events).inserted ∧
    (∀ e ∈ (after s w events).inserted, isStored (after s w events).worker.db e →
      e ∈ (after s w events).earlier ++ (after s w events).since) ∧
    (∀ key r, (after s w events).startRows.row key = some r → ∀ e ∈ (after s w events).since,
      key.tableIndex = e.1.tableIndex → r.createdAt < e.2) ∧
    (∀ e ∈ (after s w events).inserted, 0 < e.2 ∧ e.2 < 2 ^ 53) ∧
    (db.DistinctTimes → (after s w events).worker.db.DistinctTimes) := by
  obtain ⟨hdb, hbefore⟩ := before_bootstrap hboot
  have horder : (after s w events).InOrder :=
    Machine.invariant (fun _ event h => h.step event) (inOrder_start hbefore) events
  refine ⟨fun tableIndex => ?_, horder.sublist, horder.remembered, fun key r hr e he htable => ?_,
    fun e he => ?_, fun hdistinct => ?_⟩
  · rw [← map_timesOf]
    exact horder.upTo.pairwise_lt tableIndex
  · obtain ⟨clock, hstart, hgives⟩ := horder.since
    have habove := hgives.above _ (List.mem_map_of_mem (f := fun e : RowKey × ℤ => (e.1.tableIndex, e.2)) he)
    exact (htable ▸ hstart key r hr).trans_lt habove
  · obtain ⟨hpos, hbound⟩ := horder.range e he
    exact ⟨hpos, hbound.trans_lt (by decide)⟩
  · have hboth : (after s w events).InOrder ∧ (after s w events).worker.db.DistinctTimes :=
      Machine.invariant (I := fun run : StorageRun => run.InOrder ∧ run.worker.db.DistinctTimes)
        (fun _ event h => ⟨h.1.step event, distinctTimes_step h.1 h.2 event⟩)
        ⟨inOrder_start hbefore, hdb ▸ hdistinct⟩ events
    exact hboth.2

end StorageRun

namespace CreationTimesExample

open AgreementExample StorageRun

/-- An SQLite that accepts every statement. -/
def lenient : Sqlite := ⟨⟨fun _ => [], fun _ => [], id⟩, fun _ _ => none⟩

def flushed (op : RowOp) : StorageEvent := .work (.flush lenient [op])

/-- A note is inserted and deleted again, and another one is inserted after a restart, while the
clock of the machine stands still. -/
def forgetful : List StorageEvent :=
  [flushed (.upsert ⟨0, 5, 1, 8, [], none, 100, none⟩), flushed (.delete ⟨0, 5, 1, none, none⟩),
    .restart none, flushed (.upsert ⟨0, 6, 1, 8, [], none, 100, none⟩)]

/-- Both notes get the same creation time. -/
theorem forgotten_time_repeats : bootstrapRuntimeTableState noteSchema none {} [] = .ok {} ∧
    timesOf 0 (after noteSchema {} forgetful).inserted = [100, 100] ∧
    ¬ (timesOf 0 (after noteSchema {} forgetful).inserted).Pairwise (· < ·) := by
  have htimes : timesOf 0 (after noteSchema {} forgetful).inserted = [100, 100] := by decide
  refine ⟨rfl, htimes, ?_⟩
  rw [htimes]
  decide

/-- The second note is later than the first one when that is still there. -/
theorem remembered_time_grows : bootstrapRuntimeTableState noteSchema none {} [] = .ok {} ∧
    (timesOf 0 ((after noteSchema {} (forgetful.eraseIdx 1)).earlier ++
      (after noteSchema {} (forgetful.eraseIdx 1)).since)).Pairwise (· < ·) :=
  have hboot : bootstrapRuntimeTableState noteSchema none {} [] = .ok {} := rfl
  ⟨hboot, (creation_times_in_order hboot (forgetful.eraseIdx 1)).1 0⟩

end CreationTimesExample
end ZyncBase
