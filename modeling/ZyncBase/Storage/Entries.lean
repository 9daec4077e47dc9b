import ZyncBase.Storage.Transaction

/-! Row operations read back from their outcome: an operation that succeeds executed one statement
and, when it returned a row, tracked what it affected. -/
namespace ZyncBase

open AssocMap Outcome Database BatchCtx

section Statements

variable {selects : Record → Bool} {s : Schema} {db : Database} {key : RowKey} {namespaceId : ℤ}

namespace Database

lemma upsert_spec (db : Database) (selects : Record → Bool) (key : RowKey) (candidate : Row)
    (columns : List ColumnValue) :
    (∃ r, db.upsert selects key candidate columns = (db.put key r, some (r.record key.id)) ∧
        r.namespaceId = candidate.namespaceId ∧ (r = candidate ∨
          ∃ r₀, r = { Row.insertColumns r₀ columns with updatedAt := candidate.updatedAt })) ∨
      db.upsert selects key candidate columns = (db, none) ∧ ∃ r, db.row key = some r ∧
        (decide (r.namespaceId = candidate.namespaceId) && selects (r.record key.id)) = false := by
  unfold upsert
  cases hr : db.row key with
  | none => exact .inl ⟨candidate, rfl, rfl, .inl rfl⟩
  | some r =>
    dsimp only
    split_ifs with h
    · rw [Bool.and_eq_true, decide_eq_true_eq] at h
      exact .inl ⟨_, rfl, h.1, .inr ⟨r, rfl⟩⟩
    · rw [Bool.not_eq_true] at h
      exact .inr ⟨rfl, r, rfl, h⟩

/-- A statement on the row that it selects, if there is one. -/
lemma selected_spec (db : Database) (selects : Record → Bool) (key : RowKey) (namespaceId : ℤ)
    (f : Row → Database × Option Record) {p : Database × Option Record} (hp : p = match db.row key with
      | none => (db, none)
      | some r => if r.namespaceId = namespaceId && selects (r.record key.id) then f r else (db, none)) :
    (∃ r, db.row key = some r ∧ r.namespaceId = namespaceId ∧ p = f r) ∨
      p = (db, none) ∧ ∀ r, db.row key = some r →
        (decide (r.namespaceId = namespaceId) && selects (r.record key.id)) = false := by
  cases hr : db.row key with
  | none => exact .inr ⟨by rw [hp, hr], by simp⟩
  | some r =>
    rw [hr] at hp
    dsimp only at hp
    split_ifs at hp with h
    · rw [Bool.and_eq_true, decide_eq_true_eq] at h
      exact .inl ⟨r, rfl, h.1, hp⟩
    · rw [Bool.not_eq_true] at h
      refine .inr ⟨hp, fun r' hr' => ?_⟩
      rw [Option.some.injEq] at hr'
      exact hr' ▸ h

lemma update_spec (db : Database) (selects : Record → Bool) (key : RowKey) (namespaceId : ℤ)
    (columns : List ColumnValue) (updatedAt : ℤ) :
    (∃ r, db.row key = some r ∧ r.namespaceId = namespaceId ∧
        db.update selects key namespaceId columns updatedAt =
          (db.put key { r.setColumns columns with updatedAt },
            some (Row.record key.id { r.setColumns columns with updatedAt }))) ∨
      db.update selects key namespaceId columns updatedAt = (db, none) ∧ ∀ r, db.row key = some r →
        (decide (r.namespaceId = namespaceId) && selects (r.record key.id)) = false :=
  selected_spec db selects key namespaceId _ rfl

lemma delete_spec (db : Database) (selects : Record → Bool) (s : Schema) (key : RowKey) (namespaceId : ℤ) :
    (∃ r, db.row key = some r ∧ r.namespaceId = namespaceId ∧ db.delete selects s key namespaceId =
          (db.deleteCascading s key, some (r.record key.id))) ∨
      db.delete selects s key namespaceId = (db, none) ∧ ∀ r, db.row key = some r →
        (decide (r.namespaceId = namespaceId) && selects (r.record key.id)) = false :=
  selected_spec db selects key namespaceId (fun r => (db.deleteCascading s key, some (r.record key.id))) rfl

end Database

/-- A row written by an upsert or an update: the row it replaces, if any, had the same namespace and
external id. -/
structure Wrote (db : Database) (key : RowKey) (namespaceId : ℤ) (r : Row) : Prop where
  namespaceId : r.namespaceId = namespaceId
  same : ∀ r₀, db.row key = some r₀ → r₀.namespaceId = r.namespaceId ∧ r₀.externalId = r.externalId

/-- The outcomes of an upsert or an update: no row is affected, or one is written. -/
inductive WriteResult (db : Database) (key : RowKey) (namespaceId : ℤ) :
    Database × Option Record → Prop where
  | unaffected : WriteResult db key namespaceId (db, none)
  | wrote (r : Row) (h : Wrote db key namespaceId r) :
    WriteResult db key namespaceId (db.put key r, some (r.record key.id))

/-- The outcomes of a delete. -/
inductive DeleteResult (s : Schema) (db : Database) (key : RowKey) (namespaceId : ℤ) :
    Database × Option Record → Prop where
  | unaffected : DeleteResult s db key namespaceId (db, none)
  | deleted (r : Row) (hr : db.row key = some r) (hn : r.namespaceId = namespaceId) :
    DeleteResult s db key namespaceId (db.deleteCascading s key, some (r.record key.id))

lemma Database.upsert_result (candidate : Row) (columns : List ColumnValue)
    (hn : candidate.namespaceId = namespaceId) :
    WriteResult db key namespaceId (db.upsert selects key candidate columns) := by
  subst hn
  unfold upsert
  cases hr : db.row key with
  | none => exact .wrote candidate ⟨rfl, by simp [hr]⟩
  | some r =>
    dsimp only
    split_ifs with h
    · rw [Bool.and_eq_true, decide_eq_true_eq] at h
      exact .wrote _ ⟨h.1, by simp [hr]⟩
    · exact .unaffected

lemma Database.update_result (columns : List ColumnValue) (updatedAt : ℤ) :
    WriteResult db key namespaceId (db.update selects key namespaceId columns updatedAt) := by
  obtain ⟨r, hr, hn, heq⟩ | ⟨heq, -⟩ :=
    update_spec db selects key namespaceId columns updatedAt
  · rw [heq]
    exact .wrote _ ⟨hn, by simp [hr, hn]⟩
  · rw [heq]
    exact .unaffected

lemma Database.isSome_of_update {columns : List ColumnValue} {updatedAt : ℤ}
    (h : (db.update selects key namespaceId columns updatedAt).2.isSome) : (db.row key).isSome := by
  unfold update at h
  cases hr : db.row key with
  | none => simp [hr] at h
  | some r => rfl

lemma Database.delete_result : DeleteResult s db key namespaceId (db.delete selects s key namespaceId) := by
  obtain ⟨r, hr, hn, heq⟩ | ⟨heq, -⟩ := delete_spec db selects s key namespaceId
  · rw [heq]
    exact .deleted r hr hn
  · rw [heq]
    exact .unaffected

end Statements

variable {tableIndex : ℕ} {t : Table} {r : Option Record} {namespaceId : ℤ} {key : RowKey} {b : Bool} {u : Unit}

section Inversion

variable {s : Schema} {sqlite : Sqlite} {ctx ctx' : BatchCtx}

lemma liftExcept_eq_ok {α : Type} {x : Except StorageError α} {a : α} :
    liftExcept x ctx = .ok a ctx' ↔ x = .ok a ∧ ctx = ctx' := by
  cases x <;> simp [liftExcept]

lemma requireTable_eq_ok :
    requireTable s tableIndex ctx = .ok t ctx' ↔ s.tableByIndex tableIndex = some t ∧ ctx = ctx' := by
  unfold requireTable
  cases s.tableByIndex tableIndex <;> simp

lemma performStatement_eq_ok {st : Statement} {effect : Database → Database × Option Record}
    (h : performStatement sqlite st effect ctx = .ok r ctx') :
    ctx' = { ctx with db := (effect ctx.db).1 } ∧ r = (effect ctx.db).2 := by
  unfold performStatement at h
  split at h
  · cases h
  · cases h
    exact ⟨rfl, rfl⟩

lemma getDocumentHelper_eq_ok (h : getDocumentHelper s sqlite namespaceId key ctx = .ok r ctx') :
    ctx' = ctx ∧ ∀ t, s.tableByIndex key.tableIndex = some t → r = ctx.db.select key namespaceId := by
  unfold getDocumentHelper at h
  cases ht : s.tableByIndex key.tableIndex with
  | none =>
    rw [ht] at h
    cases h
    exact ⟨rfl, fun _ h => by cases h⟩
  | some t =>
    simp only [ht] at h
    split at h
    · cases h
    · cases h
      exact ⟨rfl, fun _ _ => rfl⟩

lemma prefetchOldRecord_eq_ok
    (h : prefetchOldRecord s sqlite namespaceId key ctx = .ok r ctx') : ctx' = ctx := by
  unfold prefetchOldRecord at h
  split_ifs at h with hq
  · cases hg : getDocumentHelper s sqlite namespaceId key ctx with
    | ok r' ctx₁ =>
      rw [hg] at h
      cases h
      exact (getDocumentHelper_eq_ok hg).1
    | error e ctx₁ =>
      rw [hg] at h
      cases h
      unfold getDocumentHelper at hg
      split at hg
      · cases hg
      · split at hg <;> cases hg
        rfl
  · cases h
    rfl

lemma prefetchOldRecord_isSome {r : Record} (ht : s.tableByIndex key.tableIndex = some t)
    (h : prefetchOldRecord s sqlite namespaceId key ctx = .ok (some r) ctx') :
    ctx.db.select key namespaceId = some r := by
  unfold prefetchOldRecord at h
  split_ifs at h with hq
  · cases hg : getDocumentHelper s sqlite namespaceId key ctx with
    | ok r' ctx₁ =>
      rw [hg] at h
      cases h
      exact ((getDocumentHelper_eq_ok hg).2 t ht).symm
    | error e ctx₁ =>
      rw [hg] at h
      cases h
  · cases h

lemma unlessGuardConflict_eq_ok
    (h : unlessGuardConflict s sqlite namespaceId key ctx = .ok b ctx') : ctx' = ctx ∧
      ∀ t, s.tableByIndex key.tableIndex = some t → b = (ctx.db.select key namespaceId).isNone := by
  unfold unlessGuardConflict checkGuardConflict at h
  obtain ⟨c, ctx₁, hc, h⟩ := run_bind_eq_ok.mp h
  obtain ⟨r, ctx₂, hr, hc⟩ := run_bind_eq_ok.mp hc
  obtain ⟨rfl, rfl⟩ := run_pure_eq_ok.mp h
  obtain ⟨rfl, rfl⟩ := run_pure_eq_ok.mp hc
  obtain ⟨rfl, hread⟩ := getDocumentHelper_eq_ok hr
  refine ⟨rfl, fun t ht => ?_⟩
  rw [hread t ht, Option.not_isSome]

lemma unlessGuardConflict_of_guard {guard : Option FilterPredicate} (ht : s.tableByIndex key.tableIndex = some t)
    (hguard : guard.isSome) (h : unlessGuardConflict s sqlite namespaceId key ctx = .ok b ctx') :
    b = (guard.isNone || (ctx.db.select key namespaceId).isNone) ∧ ctx' = ctx := by
  obtain ⟨hctx, hb⟩ := unlessGuardConflict_eq_ok h
  obtain ⟨p, rfl⟩ := Option.isSome_iff_exists.mp hguard
  exact ⟨hb t ht, hctx⟩

/-- A table's clock gives a creation time. -/
structure ClaimedAt (clock : ℕ → ℤ) (tableIndex : ℕ) (candidateUs createdAt : ℤ) (clock' : ℕ → ℤ) :
    Prop where
  granted : claimNextCreatedAt (clock tableIndex) candidateUs = .ok createdAt
  updated : clock' = Function.update clock tableIndex createdAt

lemma claimCreatedAt_eq_ok {candidateUs createdAt : ℤ}
    (h : claimCreatedAt s tableIndex candidateUs ctx = .ok createdAt ctx') :
    ctx' = { ctx with lastCreatedAt := ctx'.lastCreatedAt } ∧
      ClaimedAt ctx.lastCreatedAt tableIndex candidateUs createdAt ctx'.lastCreatedAt := by
  unfold claimCreatedAt at h
  split_ifs at h
  split at h
  · cases h
  · rename_i hgranted
    cases h
    exact ⟨rfl, hgranted, rfl⟩

lemma executeUpsert_eq_ok {op : UpsertOp} {ownerId : DocId}
    (h : executeUpsert s sqlite op namespaceId ownerId t ctx = .ok r ctx') :
    ∃ guard createdAt last p, renderAndClause t op.guardPredicate = .ok guard ∧
      ClaimedAt ctx.lastCreatedAt op.tableIndex op.timestamp createdAt last ∧
      p = ctx.db.upsert (guardSelects sqlite.enc t guard) ⟨op.tableIndex, op.id⟩
        (newRow t namespaceId ownerId (if t.isUsersTable then some (hexSlice op.id) else none)
          op.columns createdAt) op.columns ∧
      ctx' = { ctx with db := p.1, lastCreatedAt := last } ∧ r = p.2 := by
  unfold executeUpsert at h
  obtain ⟨guard, _, hg, h⟩ := run_bind_eq_ok.mp h
  obtain ⟨hguard, rfl⟩ := liftExcept_eq_ok.mp hg
  obtain ⟨_, _, hc, h⟩ := run_bind_eq_ok.mp h
  obtain ⟨_, rfl⟩ := liftExcept_eq_ok.mp hc
  obtain ⟨createdAt, ctx₁, hclaim, h⟩ := run_bind_eq_ok.mp h
  obtain ⟨hctx, hclaims⟩ := claimCreatedAt_eq_ok hclaim
  obtain ⟨rfl, rfl⟩ := performStatement_eq_ok h
  rw [hctx]
  exact ⟨guard, createdAt, _, _, hguard, hclaims, rfl, rfl, rfl⟩

lemma executeUpdate_eq_ok {op : UpdateOp} (h : executeUpdate sqlite op namespaceId t ctx = .ok r ctx') :
    ∃ guard p, renderAndClause t op.guardPredicate = .ok guard ∧
      p = ctx.db.update (guardSelects sqlite.enc t guard) ⟨op.tableIndex, op.id⟩ namespaceId
        op.columns op.timestamp ∧ ctx' = { ctx with db := p.1 } ∧ r = p.2 := by
  unfold executeUpdate at h
  obtain ⟨guard, _, hg, h⟩ := run_bind_eq_ok.mp h
  obtain ⟨hguard, rfl⟩ := liftExcept_eq_ok.mp hg
  obtain ⟨_, _, hc, h⟩ := run_bind_eq_ok.mp h
  obtain ⟨_, rfl⟩ := liftExcept_eq_ok.mp hc
  split_ifs at h with ht
  · exact absurd h run_throw_ne_ok
  · obtain ⟨rfl, rfl⟩ := performStatement_eq_ok h
    exact ⟨guard, _, hguard, rfl, rfl, rfl⟩

lemma executeDelete_eq_ok {op : DeleteOp} (h : executeDelete s sqlite op namespaceId t ctx = .ok r ctx') :
    ∃ guard p, renderAndClause t op.guardPredicate = .ok guard ∧
      p = ctx.db.delete (guardSelects sqlite.enc t guard) s ⟨op.tableIndex, op.id⟩ namespaceId ∧
      ctx' = { ctx with db := p.1 } ∧ r = p.2 := by
  unfold executeDelete at h
  obtain ⟨guard, _, hg, h⟩ := run_bind_eq_ok.mp h
  obtain ⟨hguard, rfl⟩ := liftExcept_eq_ok.mp hg
  obtain ⟨rfl, rfl⟩ := performStatement_eq_ok h
  exact ⟨guard, _, hguard, rfl, rfl, rfl⟩

@[simp] lemma track_db (t : Table) (e : RowEffect) : (ctx.track t e).db = ctx.db := by
  unfold track pushRowChange
  split_ifs <;> rfl

@[simp] lemma track_lastCreatedAt (t : Table) (e : RowEffect) :
    (ctx.track t e).lastCreatedAt = ctx.lastCreatedAt := by
  unfold track pushRowChange
  split_ifs <;> rfl

lemma applyWriteResult_eq_ok {hasGuard : Bool} {e : RowEffect}
    (h : applyWriteResult t hasGuard e ctx = .ok b ctx') :
    (b = true ∧ ctx' = ctx.track t e ∧ (e.newRecord.isSome ∨ e.pkDelete ∧ e.oldRecord.isSome)) ∨
      (b = !(e.oldRecord.isSome && hasGuard) ∧ ctx' = ctx ∧ e.newRecord = none ∧
        (e.pkDelete → e.oldRecord = none)) := by
  unfold applyWriteResult at h
  split_ifs at h with hw
  · cases h
    exact .inl ⟨rfl, rfl, by simpa using hw⟩
  · cases h
    simp only [Bool.or_eq_true, Bool.and_eq_true, not_or, not_and, Option.not_isSome_iff_eq_none]
      at hw
    exact .inr ⟨rfl, rfl, hw⟩

lemma applyWriteResult_unaffected {hasGuard : Bool} {e : RowEffect}
    (h : applyWriteResult t hasGuard e ctx = .ok b ctx') (hnew : e.newRecord = none)
    (hdelete : e.pkDelete → e.oldRecord = none) : b = !(e.oldRecord.isSome && hasGuard) ∧ ctx' = ctx := by
  obtain ⟨-, -, hs⟩ | ⟨hb, hctx, -⟩ := applyWriteResult_eq_ok h
  · rw [hnew] at hs
    obtain hs | ⟨hdel, hs⟩ := hs
    · cases hs
    · rw [hdelete hdel] at hs
      cases hs
  · exact ⟨hb, hctx⟩

lemma applyWriteResult_affected {hasGuard : Bool} {e : RowEffect}
    (h : applyWriteResult t hasGuard e ctx = .ok b ctx')
    (haffects : e.newRecord.isSome ∨ e.pkDelete ∧ e.oldRecord.isSome) : b = true ∧ ctx' = ctx.track t e := by
  obtain ⟨hb, hctx, -⟩ | ⟨-, -, hnew, hdelete⟩ := applyWriteResult_eq_ok h
  · exact ⟨hb, hctx⟩
  · rw [hnew] at haffects
    obtain hs | ⟨hdel, hs⟩ := haffects
    · cases hs
    · rw [hdelete hdel] at hs
      cases hs

lemma applyWriteResult_db {hasGuard : Bool} {e : RowEffect}
    (h : applyWriteResult t hasGuard e ctx = .ok b ctx') : ctx'.db = ctx.db := by
  obtain ⟨_, rfl, _⟩ | ⟨_, rfl, _⟩ := applyWriteResult_eq_ok h
  · exact track_db t e
  · rfl

lemma index_of_tableByIndex {i : ℕ} (h : s.tableByIndex i = some t) : t.index = i :=
  s.indexed i t h

lemma resolveEntryTarget_eq_ok {target : Table × ℤ}
    (h : resolveEntryTarget s tableIndex namespaceId ctx = .ok target ctx') :
    ctx' = ctx ∧ s.tableByIndex tableIndex = some target.1 ∧
      target.2 = if target.1.namespaced then namespaceId else globalNamespaceId := by
  obtain ⟨t, ctx₁, htable, h₁⟩ := run_bind_eq_ok.mp h
  obtain ⟨ht, rfl⟩ := requireTable_eq_ok.mp htable
  obtain ⟨rfl, rfl⟩ := run_pure_eq_ok.mp h₁
  exact ⟨rfl, ht, rfl⟩

lemma applyReferentialChanges_db {changes : List ReferentialChange}
    (h : applyReferentialChanges s sqlite changes ctx = .ok u ctx') : ctx'.db = ctx.db := by
  induction changes generalizing ctx with
  | nil => rw [(run_pure_eq_ok.mp h).2]
  | cons c cs ih =>
    unfold applyReferentialChanges applyReferentialChange at h
    obtain ⟨_, ctx₁, hc, hcs⟩ := run_bind_eq_ok.mp h
    obtain ⟨t, ctx₂, htable, h₁⟩ := run_bind_eq_ok.mp hc
    obtain ⟨_, rfl⟩ := requireTable_eq_ok.mp htable
    obtain ⟨r, ctx₃, hread, h₂⟩ := run_bind_eq_ok.mp h₁
    obtain ⟨rfl, _⟩ := getDocumentHelper_eq_ok hread
    split_ifs at h₂
    · exact absurd h₂ run_throw_ne_ok
    · obtain ⟨b, ctx₄, hw, h₃⟩ := run_bind_eq_ok.mp h₂
      obtain ⟨_, rfl⟩ := run_pure_eq_ok.mp h₃
      rw [ih hcs, applyWriteResult_db hw]

end Inversion

section Entries

variable {s : Schema} {sqlite : Sqlite} {db db' : Database} {ctx ctx' : BatchCtx}

lemma WriteResult.unchanged {p : Database × Option Record}
    (h : WriteResult db key namespaceId p) (hp : p.2 = none) : p.1 = db := by
  cases h with
  | unaffected => rfl
  | wrote r hw => simp at hp

lemma DeleteResult.unchanged {p : Database × Option Record}
    (h : DeleteResult s db key namespaceId p) (hp : p.2 = none) : p.1 = db := by
  cases h with
  | unaffected => rfl
  | deleted r hr hn => simp at hp

/-- The row before the write as the transaction reads it; without a change queue, or when the read
fails, it is left unknown. -/
structure Prefetched (s : Schema) (sqlite : Sqlite) (ctx : BatchCtx) (key : RowKey)
    (namespaceId : ℤ) (old : Option Record) : Prop where
  known : ∀ r, old = some r → ctx.db.select key namespaceId = some r
  exact : ctx.self.changeQueue.isSome → sqlite.error ctx.db (.select key) = none →
    old = ctx.db.select key namespaceId

lemma prefetched {old : Option Record} (ht : s.tableByIndex key.tableIndex = some t)
    (h : prefetchOldRecord s sqlite namespaceId key ctx = .ok old ctx') :
    Prefetched s sqlite ctx key namespaceId old where
  known r hr := by
    subst hr
    exact prefetchOldRecord_isSome ht h
  exact hq hread := by
    unfold prefetchOldRecord getDocumentHelper at h
    simp only [hq, if_true, ht, hread] at h
    cases h
    rfl

/-- What an upsert that succeeds did: it returned no row and only claimed a creation time, or it
wrote a row and tracked it. -/
lemma executeUpsertEntry_eq_ok {op : UpsertOp} (ht : s.tableByIndex op.tableIndex = some t)
    (h : executeUpsertEntry s sqlite op namespaceId t ctx = .ok b ctx') :
    ∃ old guard createdAt last p, Prefetched s sqlite ctx ⟨op.tableIndex, op.id⟩ namespaceId old ∧
      renderAndClause t op.guardPredicate = .ok guard ∧
      ClaimedAt ctx.lastCreatedAt op.tableIndex op.timestamp createdAt last ∧
      p = ctx.db.upsert (guardSelects sqlite.enc t guard) ⟨op.tableIndex, op.id⟩
        (newRow t namespaceId (if t.isUsersTable then op.id else op.ownerDocId)
          (if t.isUsersTable then some (hexSlice op.id) else none) op.columns createdAt)
        op.columns ∧ (p.2 = none ∧ b = op.guardPredicate.isNone ∧ ctx' = { ctx with lastCreatedAt := last } ∨
        p.2.isSome ∧ b = true ∧ ctx' = track t
          ⟨⟨op.tableIndex, op.id⟩, namespaceId, true, false, old, p.2⟩
          { ctx with db := p.1, lastCreatedAt := last }) := by
  unfold executeUpsertEntry at h
  obtain ⟨old, ctx₁, hold, h₁⟩ := run_bind_eq_ok.mp h
  obtain rfl := prefetchOldRecord_eq_ok hold
  obtain ⟨new, ctx₂, hnew, h₂⟩ := run_bind_eq_ok.mp h₁
  obtain ⟨guard, createdAt, last, p, hguard, hclaims, hp, rfl, rfl⟩ := executeUpsert_eq_ok hnew
  refine ⟨old, guard, createdAt, last, p, prefetched ht hold, hguard, hclaims, hp, ?_⟩
  have hres : WriteResult ctx₁.db ⟨op.tableIndex, op.id⟩ namespaceId p :=
    hp ▸ upsert_result _ _ rfl
  rw [index_of_tableByIndex ht] at h₂
  cases hres with
  | unaffected =>
    refine .inl ⟨rfl, ?_⟩
    split_ifs at h₂ with hnone
    · obtain ⟨rfl, rfl⟩ := run_pure_eq_ok.mp h₂
      simp only [Bool.and_eq_true] at hnone
      exact ⟨by rw [← Option.not_isSome, hnone.2]; rfl, rfl⟩
    · obtain ⟨rfl, rfl⟩ := applyWriteResult_unaffected h₂ rfl nofun
      cases ho : old <;> cases hg : op.guardPredicate <;> simp_all
  | wrote r hw =>
    rw [if_neg (by simp)] at h₂
    exact .inr ⟨rfl, applyWriteResult_affected h₂ (.inl rfl)⟩

lemma executeUpdateEntry_eq_ok {op : UpdateOp} (ht : s.tableByIndex op.tableIndex = some t)
    (h : executeUpdateEntry s sqlite op namespaceId t ctx = .ok b ctx') :
    ∃ old guard p, Prefetched s sqlite ctx ⟨op.tableIndex, op.id⟩ namespaceId old ∧
      renderAndClause t op.guardPredicate = .ok guard ∧
      p = ctx.db.update (guardSelects sqlite.enc t guard) ⟨op.tableIndex, op.id⟩ namespaceId
        op.columns op.timestamp ∧
      (p.2 = none ∧ b = (op.guardPredicate.isNone ||
          (ctx.db.select ⟨op.tableIndex, op.id⟩ namespaceId).isNone) ∧ ctx' = ctx ∨
        p.2.isSome ∧ b = true ∧ ctx' = track t
          ⟨⟨op.tableIndex, op.id⟩, namespaceId, false, false, old, p.2⟩ { ctx with db := p.1 }) := by
  unfold executeUpdateEntry at h
  obtain ⟨old, ctx₁, hold, h₁⟩ := run_bind_eq_ok.mp h
  obtain rfl := prefetchOldRecord_eq_ok hold
  obtain ⟨new, ctx₂, hnew, h₂⟩ := run_bind_eq_ok.mp h₁
  obtain ⟨guard, p, hguard, hp, rfl, rfl⟩ := executeUpdate_eq_ok hnew
  have hpre := prefetched (t := t) ht hold
  refine ⟨old, guard, p, hpre, hguard, hp, ?_⟩
  have hres : WriteResult ctx₁.db ⟨op.tableIndex, op.id⟩ namespaceId p :=
    hp ▸ update_result _ _
  rw [index_of_tableByIndex ht] at h₂
  cases hres with
  | unaffected =>
    refine .inl ⟨rfl, ?_⟩
    split_ifs at h₂ with hnone
    · exact unlessGuardConflict_of_guard ht (Bool.and_eq_true_iff.mp hnone).2 h₂
    · obtain ⟨rfl, rfl⟩ := applyWriteResult_unaffected h₂ rfl nofun
      cases ho : old with
      | none => cases hg : op.guardPredicate <;> simp_all
      | some o => cases hg : op.guardPredicate <;> simp [hpre.known o ho]
  | wrote r hw =>
    rw [if_neg (by simp)] at h₂
    exact .inr ⟨rfl, applyWriteResult_affected h₂ (.inl rfl)⟩

lemma tracedReferences_eq_ok {changes : List ReferentialChange}
    (h : tracedReferences s t key ctx = .ok changes ctx') : ctx' = ctx ∧
      (changes = captureReferentialChanges s ctx.db ⟨t.index, key.id⟩ ∧ ctx.containsEffectivePk key ∨
        changes = [] ∧ ¬ (s.hasIncomingCascadeOrSetNull t.index ∧ ctx.containsEffectivePk key)) := by
  unfold tracedReferences at h
  split_ifs at h with hf
  · cases h
    rw [Bool.and_eq_true] at hf
    exact ⟨rfl, .inl ⟨rfl, hf.2⟩⟩
  · cases h
    exact ⟨rfl, .inr ⟨rfl, by simpa using hf⟩⟩

lemma executeDeleteEntry_eq_ok {op : DeleteOp} (ht : s.tableByIndex op.tableIndex = some t)
    (h : executeDeleteEntry s sqlite op namespaceId t ctx = .ok b ctx') :
    ∃ changes guard p, tracedReferences s t ⟨op.tableIndex, op.id⟩ ctx = .ok changes ctx ∧
      renderAndClause t op.guardPredicate = .ok guard ∧
      p = ctx.db.delete (guardSelects sqlite.enc t guard) s ⟨op.tableIndex, op.id⟩ namespaceId ∧
      (p.2 = none ∧ b = (op.guardPredicate.isNone ||
          (ctx.db.select ⟨op.tableIndex, op.id⟩ namespaceId).isNone) ∧ ctx' = ctx ∨
        p.2.isSome ∧ b = true ∧ applyReferentialChanges s sqlite changes (track t
          ⟨⟨op.tableIndex, op.id⟩, namespaceId, false, true, p.2, none⟩
          { ctx with db := p.1 }) = .ok () ctx') := by
  unfold executeDeleteEntry at h
  rw [index_of_tableByIndex ht] at h
  obtain ⟨changes, ctx₁, htrace, h₁⟩ := run_bind_eq_ok.mp h
  obtain ⟨rfl, _⟩ := tracedReferences_eq_ok htrace
  obtain ⟨old, ctx₂, hdelete, h₂⟩ := run_bind_eq_ok.mp h₁
  obtain ⟨guard, p, hguard, hp, rfl, rfl⟩ := executeDelete_eq_ok hdelete
  refine ⟨changes, guard, p, htrace, hguard, hp, ?_⟩
  have hres : DeleteResult s ctx₁.db ⟨op.tableIndex, op.id⟩ namespaceId p :=
    hp ▸ delete_result
  cases hres with
  | unaffected =>
    refine .inl ⟨rfl, ?_⟩
    split_ifs at h₂ with hnone
    · exact unlessGuardConflict_of_guard ht (Bool.and_eq_true_iff.mp hnone).2 h₂
    · obtain ⟨applied, ctx₃, hw, h₃⟩ := run_bind_eq_ok.mp h₂
      obtain ⟨_, ctx₄, hn, h₄⟩ := run_bind_eq_ok.mp h₃
      obtain ⟨rfl, rfl⟩ := run_pure_eq_ok.mp h₄
      obtain ⟨_, rfl⟩ := run_pure_eq_ok.mp hn
      obtain ⟨rfl, rfl⟩ := applyWriteResult_unaffected hw rfl fun _ => rfl
      cases hg : op.guardPredicate <;> simp_all
  | deleted r hr hn =>
    refine .inr ⟨rfl, ?_⟩
    rw [if_neg (by simp)] at h₂
    obtain ⟨applied, ctx₃, hw, h₃⟩ := run_bind_eq_ok.mp h₂
    obtain ⟨_, ctx₄, hcs, h₄⟩ := run_bind_eq_ok.mp h₃
    obtain ⟨rfl, rfl⟩ := run_pure_eq_ok.mp h₄
    obtain ⟨rfl, rfl⟩ := applyWriteResult_affected hw (.inr ⟨rfl, rfl⟩)
    exact ⟨rfl, hcs⟩

end Entries

section Performed

variable {s : Schema} {sqlite : Sqlite} {db : Database} {ctx ctx' : BatchCtx} {t : Table}
  {guard : Option SqlWhere} {op : RowOp} {p : Database × Option Record}

def RowOp.guardPredicate : RowOp → Option FilterPredicate
  | .upsert op => op.guardPredicate
  | .update op => op.guardPredicate
  | .delete op => op.guardPredicate

/-- The namespace whose rows the operation works on. -/
def RowOp.storedNamespace (t : Table) : RowOp → ℤ
  | .upsert op => if t.namespaced then op.namespaceId else globalNamespaceId
  | .update op => if t.namespaced then op.namespaceId else globalNamespaceId
  | .delete op => if t.namespaced then op.namespaceId else globalNamespaceId

/-- The statement of an operation: the rows it leaves and the record it returns. -/
inductive RowOp.Performs (s : Schema) (enc : Encodings) (t : Table) (guard : Option SqlWhere)
    (db : Database) : RowOp → Database × Option Record → Prop where
  | upsert (op : UpsertOp) (createdAt : ℤ) : Performs s enc t guard db (.upsert op)
    (db.upsert (guardSelects enc t guard) ⟨op.tableIndex, op.id⟩
      (newRow t ((RowOp.upsert op).storedNamespace t) (if t.isUsersTable then op.id else op.ownerDocId)
        (if t.isUsersTable then some (hexSlice op.id) else none) op.columns createdAt) op.columns)
  | update (op : UpdateOp) : Performs s enc t guard db (.update op)
    (db.update (guardSelects enc t guard) ⟨op.tableIndex, op.id⟩
      ((RowOp.update op).storedNamespace t) op.columns op.timestamp)
  | delete (op : DeleteOp) : Performs s enc t guard db (.delete op)
    (db.delete (guardSelects enc t guard) s ⟨op.tableIndex, op.id⟩
      ((RowOp.delete op).storedNamespace t))

/-- An operation whose statement returned no row still succeeds without a guard to reject it, and
an update or a delete also when its row is not there. -/
def RowOp.passesWithoutRow (db : Database) (t : Table) (op : RowOp) : Bool :=
  op.guardPredicate.isNone || match op with
    | .upsert _ => false
    | _ => (db.select op.target (op.storedNamespace t)).isNone

lemma executeEntry_performs (h : executeEntry s sqlite op ctx = .ok b ctx') :
    ∃ t guard p, s.tableByIndex op.target.tableIndex = some t ∧
      renderAndClause t op.guardPredicate = .ok guard ∧
      op.Performs s sqlite.enc t guard ctx.db p ∧ ctx'.db = p.1 ∧
      b = (p.2.isSome || op.passesWithoutRow ctx.db t) := by
  cases op with
  | upsert op =>
    obtain ⟨target, ctx₁, htarget, hentry⟩ := run_bind_eq_ok.mp h
    obtain ⟨rfl, ht, hns⟩ := resolveEntryTarget_eq_ok htarget
    obtain ⟨old, guard, createdAt, last, p, _, hguard, _, hp, hcase⟩ :=
      executeUpsertEntry_eq_ok ht hentry
    rw [hns] at hp
    refine ⟨target.1, guard, p, ht, hguard, hp ▸ .upsert op createdAt, ?_⟩
    cases hcase with
    | inl hnone =>
      obtain ⟨hn, rfl, rfl⟩ := hnone
      have hres : WriteResult ctx₁.db ⟨op.tableIndex, op.id⟩ _ p :=
        hp ▸ upsert_result _ _ rfl
      simp [hres.unchanged hn, hn, RowOp.passesWithoutRow, RowOp.guardPredicate]
    | inr hsome =>
      obtain ⟨hs, rfl, rfl⟩ := hsome
      simp [hs]
  | update op =>
    obtain ⟨target, ctx₁, htarget, hentry⟩ := run_bind_eq_ok.mp h
    obtain ⟨rfl, ht, hns⟩ := resolveEntryTarget_eq_ok htarget
    obtain ⟨old, guard, p, _, hguard, hp, hcase⟩ := executeUpdateEntry_eq_ok ht hentry
    rw [hns] at hp hcase
    refine ⟨target.1, guard, p, ht, hguard, hp ▸ .update op, ?_⟩
    cases hcase with
    | inl hnone =>
      obtain ⟨hn, rfl, rfl⟩ := hnone
      have hres : WriteResult ctx'.db ⟨op.tableIndex, op.id⟩ _ p :=
        hp ▸ update_result _ _
      exact ⟨(hres.unchanged hn).symm, by rw [hn]; rfl⟩
    | inr hsome =>
      obtain ⟨hs, rfl, rfl⟩ := hsome
      simp [hs]
  | delete op =>
    obtain ⟨target, ctx₁, htarget, hentry⟩ := run_bind_eq_ok.mp h
    obtain ⟨rfl, ht, hns⟩ := resolveEntryTarget_eq_ok htarget
    obtain ⟨changes, guard, p, _, hguard, hp, hcase⟩ := executeDeleteEntry_eq_ok ht hentry
    rw [hns] at hp hcase
    refine ⟨target.1, guard, p, ht, hguard, hp ▸ .delete op, ?_⟩
    cases hcase with
    | inl hnone =>
      obtain ⟨hn, rfl, rfl⟩ := hnone
      have hres : DeleteResult s ctx'.db ⟨op.tableIndex, op.id⟩ _ p := hp ▸ delete_result
      exact ⟨(hres.unchanged hn).symm, by rw [hn]; rfl⟩
    | inr hsome =>
      obtain ⟨hs, rfl, happly⟩ := hsome
      rw [applyReferentialChanges_db happly]
      simp [hs]

/-- The operation deletes the row of this key: it is a delete whose guard selects the row that it
addresses, and the delete of that row cascades to this one. -/
def RowOp.Deletes (s : Schema) (enc : Encodings) (t : Table) (guard : Option SqlWhere)
    (db : Database) : RowOp → RowKey → Prop
  | .delete op, key => ∃ r, db.row ⟨op.tableIndex, op.id⟩ = some r ∧
      r.namespaceId = (RowOp.delete op).storedNamespace t ∧
      guardSelects enc t guard (r.record op.id) ∧ db.CascadesTo s ⟨op.tableIndex, op.id⟩ key
  | _, _ => False

lemma WriteResult.kept {key' : RowKey} {r : Row}
    (h : WriteResult db key namespaceId p) (hr : db.row key' = some r) :
    ∃ r', p.1.row key' = some r' ∧ r'.namespaceId = r.namespaceId ∧ r'.externalId = r.externalId := by
  cases h with
  | unaffected => exact ⟨r, hr, rfl, rfl⟩
  | wrote r' hw =>
    rw [row_put]
    split_ifs with hk
    · subst hk
      exact ⟨r', rfl, ((hw.same r hr).1).symm, ((hw.same r hr).2).symm⟩
    · exact ⟨r, hr, rfl, rfl⟩

lemma RowOp.Performs.kept {enc : Encodings} {r : Row}
    (h : op.Performs s enc t guard db p) (hr : db.row key = some r)
    (hkept : ¬ op.Deletes s enc t guard db key) :
    ∃ r', p.1.row key = some r' ∧ r'.namespaceId = r.namespaceId ∧ r'.externalId = r.externalId := by
  cases h with
  | upsert op createdAt => exact (upsert_result _ _ rfl).kept hr
  | update op => exact (update_result _ _).kept hr
  | delete op =>
    unfold Database.delete
    cases hrow : db.row ⟨op.tableIndex, op.id⟩ with
    | none => exact ⟨r, hr, rfl, rfl⟩
    | some r₀ =>
      dsimp only
      split_ifs with hsel
      · rw [Bool.and_eq_true, decide_eq_true_eq] at hsel
        rw [row_deleteCascading, if_neg fun hc => hkept ⟨r₀, hrow, hsel.1, hsel.2, hc⟩, hr]
        exact ⟨_, rfl, rfl, rfl⟩
      · exact ⟨r, hr, rfl, rfl⟩

end Performed

section Run

variable {s : Schema} {sqlite : Sqlite} {ctx ctx' : BatchCtx} {failFast : Bool} {opIdx : ℕ} {b : Bool}

variable {op : RowOp}

lemma executeOp_eq_ok (h : executeOp s sqlite failFast opIdx op ctx = .ok b ctx') :
    executeEntry s sqlite op ctx = .ok b ctx' := by
  unfold executeOp at h
  cases he : executeEntry s sqlite op ctx with
  | error e c =>
    rw [he] at h
    cases h
  | ok b' c =>
    rw [he] at h
    cases h
    rfl

lemma guardOutcome_eq_ok (h : guardOutcome failFast opIdx b ctx = .ok u ctx') :
    ctx' = ctx ∨ ctx' = reject opIdx ctx := by
  unfold guardOutcome at h
  split_ifs at h
  · cases h
    exact .inl rfl
  · cases h
    exact .inr rfl

lemma guardOutcome_false (h : guardOutcome failFast opIdx false ctx = .ok u ctx') :
    ctx' = reject opIdx ctx := by
  unfold guardOutcome at h
  cases failFast with
  | true => cases h
  | false =>
    cases h
    rfl

lemma guardOutcome_db (h : guardOutcome failFast opIdx b ctx = .ok u ctx') : ctx'.db = ctx.db := by
  obtain rfl | rfl := guardOutcome_eq_ok h <;> rfl

lemma runOps_concat {pre : List RowOp} : runOps s sqlite failFast opIdx (pre ++ [op]) ctx = .ok u ctx' ↔
    ∃ c c₁ b, runOps s sqlite failFast opIdx pre ctx = .ok () c ∧
      executeOp s sqlite failFast (opIdx + pre.length) op c = .ok b c₁ ∧
        guardOutcome failFast (opIdx + pre.length) b c₁ = .ok () ctx' := by
  induction pre generalizing opIdx ctx with
  | nil =>
    rw [List.nil_append, runOps, runOps]
    simp only [run_bind_eq_ok, List.length_nil, Nat.add_zero]
    constructor
    · rintro ⟨b, c₁, hop, _, c₂, hguard, hdone⟩
      obtain ⟨_, rfl⟩ := run_pure_eq_ok.mp hdone
      exact ⟨ctx, c₁, b, rfl, hop, hguard⟩
    · rintro ⟨c, c₁, b, hstart, hop, hguard⟩
      obtain ⟨_, rfl⟩ := run_pure_eq_ok.mp hstart
      exact ⟨b, c₁, hop, (), ctx', hguard, run_pure_eq_ok.mpr ⟨rfl, rfl⟩⟩
  | cons first rest ih =>
    rw [List.cons_append, runOps, runOps, List.length_cons, ← Nat.add_assoc, Nat.add_right_comm]
    simp only [run_bind_eq_ok, ih]
    constructor
    · rintro ⟨b, c₁, hop, v, c₂, hguard, c, c₃, b', hrest, hlast⟩
      exact ⟨c, c₃, b', ⟨b, c₁, hop, v, c₂, hguard, hrest⟩, hlast⟩
    · rintro ⟨c, c₃, b', ⟨b, c₁, hop, v, c₂, hguard, hrest⟩, hlast⟩
      exact ⟨b, c₁, hop, v, c₂, hguard, c, c₃, b', hrest, hlast⟩

lemma runOps_one (h : runOps s sqlite failFast opIdx [op] ctx = .ok u ctx') :
    ∃ b c, executeEntry s sqlite op ctx = .ok b c ∧ guardOutcome failFast opIdx b c = .ok () ctx' := by
  unfold runOps at h
  obtain ⟨b, c, hop, hrest⟩ := run_bind_eq_ok.mp h
  obtain ⟨_, c', hguard, hdone⟩ := run_bind_eq_ok.mp hrest
  obtain ⟨_, rfl⟩ := run_pure_eq_ok.mp hdone
  exact ⟨b, c, executeOp_eq_ok hop, hguard⟩

lemma runOps_cons {ops : List RowOp} : runOps s sqlite failFast opIdx (op :: ops) ctx = .ok u ctx' ↔
    ∃ c, runOps s sqlite failFast opIdx [op] ctx = .ok () c ∧
      runOps s sqlite failFast (opIdx + 1) ops c = .ok u ctx' := by
  rw [runOps, runOps]
  simp only [run_bind_eq_ok]
  constructor
  · rintro ⟨b, c, hop, _, c', hguard, hrest⟩
    exact ⟨c', ⟨b, c, hop, (), c', hguard, rfl⟩, hrest⟩
  · rintro ⟨c', ⟨b, c, hop, _, _, hguard, hdone⟩, hrest⟩
    obtain ⟨_, rfl⟩ := run_pure_eq_ok.mp hdone
    exact ⟨b, c, hop, (), _, hguard, hrest⟩

lemma runOps_append {pre post : List RowOp} : runOps s sqlite failFast opIdx (pre ++ post) ctx = .ok u ctx' ↔
    ∃ c, runOps s sqlite failFast opIdx pre ctx = .ok () c ∧
      runOps s sqlite failFast (opIdx + pre.length) post c = .ok u ctx' := by
  induction pre generalizing opIdx ctx with
  | nil =>
    constructor
    · exact fun h => ⟨ctx, rfl, h⟩
    · rintro ⟨c, hstart, hpost⟩
      obtain ⟨_, rfl⟩ := run_pure_eq_ok.mp hstart
      exact hpost
  | cons op pre ih =>
    rw [List.cons_append, runOps_cons, List.length_cons, ← Nat.add_assoc, Nat.add_right_comm]
    constructor
    · rintro ⟨c, hop, hrest⟩
      obtain ⟨c', hpre, hpost⟩ := ih.mp hrest
      exact ⟨c', runOps_cons.mpr ⟨c, hop, hpre⟩, hpost⟩
    · rintro ⟨c', hpre, hpost⟩
      obtain ⟨c, hop, hrest⟩ := runOps_cons.mp hpre
      exact ⟨c, hop, ih.mpr ⟨c', hrest, hpost⟩⟩

lemma runOps_induct {I : BatchCtx → Prop} {ops : List RowOp}
    (hop : ∀ op ∈ ops, ∀ c b c', I c → executeEntry s sqlite op c = .ok b c' → I c')
    (hreject : ∀ i c, I c → I (reject i c)) (h : runOps s sqlite failFast opIdx ops ctx = .ok u ctx')
    (hctx : I ctx) : I ctx' := by
  induction ops generalizing opIdx ctx with
  | nil =>
    obtain ⟨_, rfl⟩ := run_pure_eq_ok.mp h
    exact hctx
  | cons op ops ih =>
    unfold runOps at h
    obtain ⟨succeeded, ctx₁, hexec, h₁⟩ := run_bind_eq_ok.mp h
    obtain ⟨_, ctx₂, hguard, h₂⟩ := run_bind_eq_ok.mp h₁
    rw [List.forall_mem_cons] at hop
    have h₁ : I ctx₁ := hop.1 ctx _ _ hctx (executeOp_eq_ok hexec)
    refine ih hop.2 h₂ ?_
    obtain rfl | rfl := guardOutcome_eq_ok hguard
    · exact h₁
    · exact hreject opIdx ctx₁ h₁

lemma WriteWorker.tryTransaction_eq_ok {w : WriteWorker} {ops : List RowOp}
    (h : w.tryTransaction s sqlite failFast ops = .ok u ctx) :
    runOps s sqlite failFast 0 ops w.begin = .ok () ctx := by
  unfold WriteWorker.tryTransaction at h
  cases hr : runOps s sqlite failFast 0 ops w.begin with
  | error e c =>
    rw [hr] at h
    cases h
  | ok v c =>
    simp only [hr] at h
    split at h
    · cases h
    · cases h
      rfl

end Run

section Context

/-- A relation that holds whenever a part of the context is written: the rows, the clocks, which only
go forward, or what is to be applied on commit. -/
structure BatchCtx.Follows (R : BatchCtx → BatchCtx → Prop) : Prop where
  refl : ∀ c, R c c
  trans : ∀ {a b c}, R a b → R b c → R a c
  db : ∀ c db, R c { c with db }
  claim : ∀ c i next, c.lastCreatedAt i < next →
    R c { c with lastCreatedAt := Function.update c.lastCreatedAt i next }
  track : ∀ c t e, R c (track t e c)

lemma lt_of_claimNextCreatedAt {last candidateUs next : ℤ}
    (h : claimNextCreatedAt last candidateUs = .ok next) : last < next := by
  unfold claimNextCreatedAt at h
  split_ifs at h
  cases h
  exact (Int.lt_succ last).trans_le (le_max_right _ _)

variable {s : Schema} {sqlite : Sqlite} {namespaceId : ℤ} {key : RowKey} {t : Table}
  {R : BatchCtx → BatchCtx → Prop} (hR : BatchCtx.Follows R)
include hR

namespace BatchCtx.Follows

lemma bind {α β : Type} {x : Tx α} {f : α → Tx β} (hx : Leads R x) (hf : ∀ a, Leads R (f a)) :
    Leads R (x >>= f) :=
  Leads.bind (R := R) hR.trans hx hf

lemma liftExcept {α : Type} (x : Except StorageError α) : Leads R (liftExcept x) := by
  intro ctx
  cases x with
  | ok a => exact hR.refl ctx
  | error e => exact hR.refl ctx

lemma requireTable (i : ℕ) : Leads R (requireTable s i) := by
  intro ctx
  unfold ZyncBase.requireTable
  cases s.tableByIndex i with
  | none => exact hR.refl ctx
  | some t => exact hR.refl ctx

lemma performStatement (st : Statement) (effect : Database → Database × Option Record) :
    Leads R (performStatement sqlite st effect) := by
  intro ctx
  unfold ZyncBase.performStatement
  cases sqlite.error ctx.db st with
  | none => exact hR.db ctx _
  | some e => exact hR.refl ctx

lemma getDocumentHelper : Leads R (getDocumentHelper s sqlite namespaceId key) := by
  intro ctx
  unfold ZyncBase.getDocumentHelper
  cases s.tableByIndex key.tableIndex with
  | none => exact hR.refl ctx
  | some t =>
    cases sqlite.error ctx.db (.select key) with
    | none => exact hR.refl ctx
    | some e => exact hR.refl ctx

lemma prefetchOldRecord : Leads R (prefetchOldRecord s sqlite namespaceId key) := by
  intro ctx
  unfold ZyncBase.prefetchOldRecord
  split_ifs
  · have hread : Leads R (ZyncBase.getDocumentHelper s sqlite namespaceId key) :=
      hR.getDocumentHelper
    cases h : ZyncBase.getDocumentHelper s sqlite namespaceId key ctx with
    | ok r c => exact hread.ok h
    | error e c => exact hread.error h
  · exact hR.refl ctx

lemma claimCreatedAt (i : ℕ) (us : ℤ) : Leads R (claimCreatedAt s i us) := by
  intro ctx
  unfold ZyncBase.claimCreatedAt
  split_ifs
  · exact hR.refl ctx
  · cases h : claimNextCreatedAt (ctx.lastCreatedAt i) us with
    | error e => exact hR.refl ctx
    | ok next => exact hR.claim ctx i next (lt_of_claimNextCreatedAt h)

lemma unlessGuardConflict : Leads R (unlessGuardConflict s sqlite namespaceId key) := by
  unfold ZyncBase.unlessGuardConflict checkGuardConflict
  exact hR.bind (hR.bind hR.getDocumentHelper fun r => .pure hR.refl _) fun c => .pure hR.refl _

lemma applyWriteResult (hasGuard : Bool) (e : RowEffect) : Leads R (applyWriteResult t hasGuard e) := by
  intro ctx
  unfold ZyncBase.applyWriteResult
  split_ifs
  · exact hR.track ctx t e
  · exact hR.refl ctx

lemma tracedReferences : Leads R (tracedReferences s t key) := by
  intro ctx
  unfold ZyncBase.tracedReferences
  split_ifs
  · exact hR.refl ctx
  · exact hR.refl ctx

lemma applyReferentialChanges (changes : List ReferentialChange) :
    Leads R (applyReferentialChanges s sqlite changes) := by
  induction changes with
  | nil => exact .pure hR.refl _
  | cons c cs ih =>
    unfold ZyncBase.applyReferentialChanges applyReferentialChange
    refine hR.bind (hR.bind (hR.requireTable _) fun t => ?_) fun _ => ih
    refine hR.bind hR.getDocumentHelper fun r => ?_
    split_ifs
    · exact .throw hR.refl _
    · exact hR.bind (hR.applyWriteResult _ _) fun _ => .pure hR.refl _

lemma executeEntry (op : RowOp) : Leads R (executeEntry s sqlite op) := by
  have htarget : ∀ i n, Leads R (resolveEntryTarget s i n) :=
    fun i n => hR.bind (hR.requireTable i) fun t => .pure hR.refl _
  cases op with
  | upsert op =>
    rw [ZyncBase.executeEntry]
    refine hR.bind (htarget _ _) fun target => ?_
    refine hR.bind hR.prefetchOldRecord fun old => hR.bind ?_ fun new => ?_
    · refine hR.bind (hR.liftExcept _) fun guard => ?_
      refine hR.bind (hR.liftExcept _) fun _ => ?_
      exact hR.bind (hR.claimCreatedAt _ _) fun createdAt => hR.performStatement _ _
    · split_ifs
      · exact .pure hR.refl _
      · exact hR.applyWriteResult _ _
  | update op =>
    rw [ZyncBase.executeEntry]
    refine hR.bind (htarget _ _) fun target => ?_
    refine hR.bind hR.prefetchOldRecord fun old => hR.bind ?_ fun new => ?_
    · refine hR.bind (hR.liftExcept _) fun guard => ?_
      refine hR.bind (hR.liftExcept _) fun _ => ?_
      split_ifs
      · exact .throw hR.refl _
      · exact hR.performStatement _ _
    · split_ifs
      · exact hR.unlessGuardConflict
      · exact hR.applyWriteResult _ _
  | delete op =>
    rw [ZyncBase.executeEntry]
    refine hR.bind (htarget _ _) fun target => ?_
    refine hR.bind hR.tracedReferences fun changes => hR.bind ?_ fun old => ?_
    · exact hR.bind (hR.liftExcept _) fun guard => hR.performStatement _ _
    · split_ifs
      · exact hR.unlessGuardConflict
      · refine hR.bind (hR.applyWriteResult _ _) fun applied => ?_
        refine hR.bind ?_ fun _ => .pure hR.refl _
        unfold applyReferentialChangesIf
        split_ifs
        · exact hR.applyReferentialChanges _
        · exact .pure hR.refl _

end BatchCtx.Follows
end Context

lemma kept_executeEntry {s : Schema} {sqlite : Sqlite} (op : RowOp) :
    Kept guardRejected (executeEntry s sqlite op) := by
  have hfollows : BatchCtx.Follows fun c c' => c'.guardRejected = c.guardRejected :=
    { refl := fun _ => rfl
      trans := fun h h' => h'.trans h
      db := fun _ _ => rfl
      claim := fun _ _ _ _ => rfl
      track := fun c t e => by
        unfold track pushRowChange
        split_ifs <;> rfl }
  exact hfollows.executeEntry op

lemma follows_clock : BatchCtx.Follows fun c c' => ∀ i, c.lastCreatedAt i ≤ c'.lastCreatedAt i where
  refl _ _ := le_rfl
  trans h h' i := (h i).trans (h' i)
  db _ _ _ := le_rfl
  claim c i next h j := by
    dsimp only
    by_cases hj : j = i
    · rw [hj, Function.update_self]
      exact h.le
    · rw [Function.update_of_ne hj]
  track c t e i := by rw [track_lastCreatedAt]

end ZyncBase
