import ZyncBase.Storage.Entries

/-! What a successful row operation does: it changes the rows that it affects and tracks each of them,
except the followers of a row that the transaction does not know. Everything kept beside the database
follows from these effects. -/
namespace ZyncBase

open List Database RowEffect RowOp

/-- A document as readers address it, by its namespace and its key. -/
abbrev Slot := ℤ × RowKey

namespace Database

variable {s : Schema} {db : Database} {root : RowKey} {k : Slot}

/-- What is stored, document by document. -/
def contents (db : Database) (k : Slot) : Option Record := db.select k.2 k.1

/-- A delete of the root deletes or nullifies another row, the document of this slot. -/
def Follows (s : Schema) (db : Database) (root : RowKey) (k : Slot) : Prop :=
  k.2 ≠ root ∧ ∃ r, db.row k.2 = some r ∧ r.namespaceId = k.1 ∧
    (db.CascadesTo s root k.2 ∨ db.NullifiedBy s root k.2 r)

lemma select_eq_some {key : RowKey} {namespaceId : ℤ} {o : Record} : db.select key namespaceId = some o ↔
    ∃ r, db.row key = some r ∧ r.namespaceId = namespaceId ∧ o = r.record key.id := by
  unfold select
  cases hr : db.row key with
  | none => simp
  | some r =>
    dsimp only
    split_ifs with hn
    · simp [hn, eq_comm]
    · simp [hn]

lemma contents_congr {db' : Database} (h : db'.row k.2 = db.row k.2) : db'.contents k = db.contents k := by
  rw [contents, contents, select, select, h]

lemma contents_eq_none (h : ∀ r, db.row k.2 = some r → r.namespaceId ≠ k.1) : db.contents k = none := by
  unfold contents select
  cases hr : db.row k.2 with
  | none => rfl
  | some r =>
    dsimp only
    rw [if_neg (h r hr)]

lemma contents_eq_record {r : Row} (hr : db.row k.2 = some r) (hn : r.namespaceId = k.1) :
    db.contents k = some (r.record k.2.id) := by
  rw [contents, select_eq_some]
  exact ⟨r, hr, hn, rfl⟩

lemma captured_iff_follows : k ∈ (captureReferentialChanges s db root).map (fun c => (c.namespaceId, c.key)) ↔
    db.Follows s root k := by
  obtain ⟨ns, key⟩ := k
  rw [mem_map]
  constructor
  · rintro ⟨c, hc, he⟩
    cases he
    obtain ⟨hne, r, hr, hn, _⟩ := capture_met hc
    refine ⟨hne, r, hr, hn.symm, ?_⟩
    by_cases hd : c.action = .delete
    · exact .inl ((capture_delete_iff hc).mp hd)
    · exact .inr (nullifiedBy_of_captured hc hd hr)
  · rintro ⟨hne, r, hr, hn, hfollows⟩
    have hcaptured : key ∈ (captureReferentialChanges s db root).map ReferentialChange.key := by
      cases hfollows with
      | inl hcascade => exact captured_of_cascadesTo hcascade hne
      | inr hnull => exact captured_of_nullified hr hnull hne
    obtain ⟨c, hc, rfl⟩ := mem_map.mp hcaptured
    obtain ⟨_, r', hr', hn', _⟩ := capture_met hc
    rw [hr, Option.some.injEq] at hr'
    subst hr'
    exact ⟨c, hc, by rw [hn', hn]⟩

lemma not_follows_of_no_incoming (h : s.hasIncomingCascadeOrSetNull root.tableIndex = false) :
    ¬ db.Follows s root k := by
  rw [← captured_iff_follows, capture_eq_nil_of_no_incoming h]
  exact not_mem_nil

end Database

namespace RowOp

variable {s : Schema} {sqlite : Sqlite} {ctx : BatchCtx} {op : RowOp} {k : Slot}

def isDelete : RowOp → Bool
  | delete _ => true
  | _ => false

/-- The statement of the operation returns a row, and this slot is its row's or, for a delete, one
that follows it. -/
def Affects (s : Schema) (sqlite : Sqlite) (db : Database) (op : RowOp) (k : Slot) : Prop :=
  ∃ t guard p, s.tableByIndex op.target.tableIndex = some t ∧
    renderAndClause t op.guardPredicate = .ok guard ∧ op.Performs s sqlite.enc t guard db p ∧
      p.2.isSome ∧ (k = (op.storedNamespace t, op.target) ∨ op.isDelete ∧ db.Follows s op.target k)

/-- The transaction does not know the row that is deleted, and so misses what follows it. -/
def Overlooks (s : Schema) (sqlite : Sqlite) (ctx : BatchCtx) (op : RowOp) (k : Slot) : Prop :=
  op.Affects s sqlite ctx.db k ∧ k.2 ≠ op.target ∧ ¬ ctx.containsEffectivePk op.target

/-- The operation affects the slot and says so. -/
def Announces (s : Schema) (sqlite : Sqlite) (ctx : BatchCtx) (op : RowOp) (k : Slot) : Prop :=
  op.Affects s sqlite ctx.db k ∧ (k.2 = op.target ∨ ctx.containsEffectivePk op.target)

lemma not_overlooks_iff (h : op.Affects s sqlite ctx.db k) :
    op.Announces s sqlite ctx k ↔ ¬ op.Overlooks s sqlite ctx k := by
  unfold Announces Overlooks
  tauto

variable {t : Table} {guard : Option SqlWhere} {db : Database} {p p' : Database × Option Record}
  {enc : Encodings}

lemma upsert_isSome (selects : Record → Bool) (key : RowKey) (candidate : Row)
    (columns : List ColumnValue) : (db.upsert selects key candidate columns).2.isSome =
      (db.row key).all fun r => r.namespaceId = candidate.namespaceId && selects (r.record key.id) := by
  unfold Database.upsert
  cases db.row key with
  | none => rfl
  | some r =>
    rw [Option.all_some]
    dsimp only
    split_ifs with h
    · rw [h]
      rfl
    · rw [Bool.not_eq_true] at h
      rw [h]
      rfl

lemma Performs.isSome_eq (h : op.Performs s enc t guard db p)
    (h' : op.Performs s enc t guard db p') : p.2.isSome = p'.2.isSome := by
  cases h with
  | upsert op createdAt =>
    cases h' with
    | upsert _ createdAt' =>
      rw [upsert_isSome, upsert_isSome]
      rfl
  | update op =>
    cases h' with
    | update _ => rfl
  | delete op =>
    cases h' with
    | delete _ => rfl

lemma affects_iff (ht : s.tableByIndex op.target.tableIndex = some t)
    (hg : renderAndClause t op.guardPredicate = .ok guard)
    (hp : op.Performs s sqlite.enc t guard db p) :
    op.Affects s sqlite db k ↔ p.2.isSome ∧
      (k = (op.storedNamespace t, op.target) ∨ op.isDelete ∧ db.Follows s op.target k) := by
  constructor
  · rintro ⟨t', guard', p', ht', hg', hp', hsome, hk⟩
    rw [ht, Option.some.injEq] at ht'
    subst ht'
    rw [hg, Except.ok.injEq] at hg'
    subst hg'
    exact ⟨hp.isSome_eq hp' ▸ hsome, hk⟩
  · exact fun h => ⟨t, guard, p, ht, hg, hp, h⟩

end RowOp

open AssocMap Outcome
variable {s : Schema} {sqlite : Sqlite} {db db' : Database} {ctx ctx' : BatchCtx}
/-- The record stored under a key, whatever its namespace. -/
def Database.recordAt (db : Database) (key : RowKey) : Option Record :=
  (db.row key).map (Row.record key.id)

/-- An effect tells what became of its row: it is gone, or it is there as the new record says. -/
inductive EffectOf (db db' : Database) : RowEffect → Prop where
  | deleted (key : RowKey) (r : Row) (before : db.row key = some r) (after : db'.row key = none) :
    EffectOf db db' ⟨key, r.namespaceId, false, true, some (r.record key.id), none⟩
  | written (key : RowKey) (r : Row) (pkInsert : Bool) (old : Option Record)
    (after : db'.row key = some r) (known : ∀ o, old = some o → db.recordAt key = some o)
    (stored : pkInsert = false → (db.row key).isSome)
    (same : ∀ r₀, db.row key = some r₀ → r₀.namespaceId = r.namespaceId) :
    EffectOf db db' ⟨key, r.namespaceId, pkInsert, false, old, some (r.record key.id)⟩

/-- The document that an effect is about. -/
def RowEffect.slot (e : RowEffect) : Slot := (e.namespaceId, e.key)

/-- Effects on different rows of known tables, each as it happened. -/
structure Happened (s : Schema) (db db' : Database) (effects : List RowEffect) : Prop where
  nodup : (effects.map key).Nodup
  happened : ∀ e ∈ effects, EffectOf db db' e ∧ ∃ t, s.tableByIndex e.key.tableIndex = some t

/-- The effects account for every difference between the two states. -/
structure Explains (s : Schema) (db db' : Database) (effects : List RowEffect) : Prop
    extends Happened s db db' effects where
  untouched : ∀ key, key ∉ effects.map RowEffect.key → db'.row key = db.row key

/-- The cache operations of an effect, under the table that its key names. -/
def RowEffect.cacheOps (s : Schema) (e : RowEffect) : List CacheOp :=
  match s.tableByIndex e.key.tableIndex with
  | none => []
  | some t => (e.cacheOp t).toList

def RowEffect.accumulate (changes : List OwnedRecordChange) (e : RowEffect) : List OwnedRecordChange :=
  accumulateOwnedChange e.namespaceId e.key e.oldRecord e.newRecord changes

/-- A transaction went from one context to another by tracking these effects. -/
structure Tracked (s : Schema) (ctx ctx' : BatchCtx) (effects : List RowEffect) : Prop where
  self : ctx'.self = ctx.self
  pk : ctx'.pkMutations = ctx.pkMutations ++ effects.flatMap pkMutations
  cache : ctx'.pendingCacheOps = ctx.pendingCacheOps ++ effects.flatMap (cacheOps s)
  changes : ctx'.pendingChanges =
    if ctx.self.changeQueue.isSome then effects.foldl accumulate ctx.pendingChanges
    else ctx.pendingChanges
  rejected : ctx'.guardRejected = ctx.guardRejected

namespace Tracked

lemma refl (h : ctx'.self = ctx.self) (hp : ctx'.pkMutations = ctx.pkMutations)
    (hc : ctx'.pendingCacheOps = ctx.pendingCacheOps) (hq : ctx'.pendingChanges = ctx.pendingChanges)
    (hr : ctx'.guardRejected = ctx.guardRejected) : Tracked s ctx ctx' [] :=
  ⟨h, by simp [hp], by simp [hc], by simp [hq], hr⟩

lemma trans {ctx'' : BatchCtx} {es es' : List RowEffect} (h : Tracked s ctx ctx' es)
    (h' : Tracked s ctx' ctx'' es') : Tracked s ctx ctx'' (es ++ es') where
  self := h'.self.trans h.self
  pk := by rw [h'.pk, h.pk, flatMap_append, append_assoc]
  cache := by rw [h'.cache, h.cache, flatMap_append, append_assoc]
  changes := by
    rw [h'.changes, h.changes, h.self, foldl_append]
    split_ifs <;> rfl
  rejected := h'.rejected.trans h.rejected

lemma track (t : Table) (e : RowEffect) (ht : s.tableByIndex e.key.tableIndex = some t) :
    Tracked s ctx (ctx.track t e) [e] := by
  unfold BatchCtx.track BatchCtx.pushRowChange
  split_ifs with hq
  all_goals
    refine ⟨rfl, ?_, ?_, ?_, rfl⟩
    · simp [BatchCtx.trackPkMutations, BatchCtx.trackCacheOp]
    · simp [BatchCtx.trackPkMutations, BatchCtx.trackCacheOp, cacheOps, ht]
    · simp only [BatchCtx.trackPkMutations, BatchCtx.trackCacheOp] at hq ⊢
      simp [hq, accumulate]

lemma after (t : Table) (e : RowEffect) (ht : s.tableByIndex e.key.tableIndex = some t) (last : ℕ → ℤ) :
    Tracked s ctx (BatchCtx.track t e { ctx with db := db', lastCreatedAt := last }) [e] := by
  have hbefore : Tracked s ctx { ctx with db := db', lastCreatedAt := last } [] :=
    .refl rfl rfl rfl rfl rfl
  exact hbefore.trans (track t e ht)

end Tracked

/-- What is known about the old record of each effect when it was read for the change queue. -/
def OldRecordsRead (sqlite : Sqlite) (ctx : BatchCtx) (effects : List RowEffect) : Prop :=
  ctx.self.changeQueue.isSome → (∀ key, sqlite.error ctx.db (.select key) = none) →
    ∀ e ∈ effects, e.oldRecord = ctx.db.recordAt e.key

variable {changes : List ReferentialChange}

section Referential

/-- Reading back the captured changes tracks one effect for each. -/
def ReferentialChange.effect (db : Database) (c : ReferentialChange) : RowEffect :=
  ⟨c.key, c.namespaceId, false, c.action = .delete, some c.oldRecord, db.select c.key c.namespaceId⟩

lemma applyReferentialChange_eq_ok {c : ReferentialChange} {u : Unit}
    (h : applyReferentialChange s sqlite c ctx = .ok u ctx') :
    ctx'.db = ctx.db ∧ Tracked s ctx ctx' [c.effect ctx.db] ∧
      ∃ t, s.tableByIndex c.key.tableIndex = some t := by
  unfold applyReferentialChange at h
  obtain ⟨t, _, htable, h₁⟩ := run_bind_eq_ok.mp h
  obtain ⟨ht, rfl⟩ := requireTable_eq_ok.mp htable
  obtain ⟨r, ctx₁, hread, h₂⟩ := run_bind_eq_ok.mp h₁
  obtain ⟨hctx, hr⟩ := getDocumentHelper_eq_ok hread
  rw [hctx, hr t ht] at h₂
  split_ifs at h₂ with ha
  · exact absurd h₂ run_throw_ne_ok
  · obtain ⟨b, ctx₂, hw, h₃⟩ := run_bind_eq_ok.mp h₂
    obtain ⟨_, rfl⟩ := run_pure_eq_ok.mp h₃
    rw [index_of_tableByIndex ht] at hw
    obtain ⟨_, rfl, _⟩ | ⟨_, _, hnone, hdel⟩ := applyWriteResult_eq_ok hw
    · exact ⟨track_db _ _, Tracked.track t (c.effect ctx.db) ht, t, ht⟩
    · -- a row read back as absent was to be deleted, so the change is tracked
      exfalso
      dsimp only at hnone hdel
      rw [hnone] at ha
      by_cases hd : c.action = .delete
      · simp [hd] at hdel
      · simp [hd] at ha

lemma applyReferentialChanges_eq_ok {u : Unit} (h : applyReferentialChanges s sqlite changes ctx = .ok u ctx') :
    ctx'.db = ctx.db ∧ Tracked s ctx ctx' (changes.map (ReferentialChange.effect ctx.db)) ∧
      ∀ c ∈ changes, ∃ t, s.tableByIndex c.key.tableIndex = some t := by
  induction changes generalizing ctx with
  | nil =>
    obtain ⟨_, rfl⟩ := run_pure_eq_ok.mp h
    exact ⟨rfl, Tracked.refl rfl rfl rfl rfl rfl, by simp⟩
  | cons c cs ih =>
    unfold applyReferentialChanges at h
    obtain ⟨_, ctx₁, hc, hcs⟩ := run_bind_eq_ok.mp h
    obtain ⟨hdb, htrack, ht⟩ := applyReferentialChange_eq_ok hc
    obtain ⟨hdb', htrack', ht'⟩ := ih hcs
    rw [hdb] at hdb' htrack'
    exact ⟨hdb', htrack.trans htrack', forall_mem_cons.mpr ⟨ht, ht'⟩⟩

lemma effectOf_captured {root : RowKey} {c : ReferentialChange} (hc : c ∈ captureReferentialChanges s db root) :
    EffectOf db (db.deleteCascading s root) (c.effect (db.deleteCascading s root)) := by
  obtain ⟨_, r, hr, hn, ho⟩ := capture_met hc
  have hrow := row_deleteCascading s db root c.key
  unfold ReferentialChange.effect select
  rw [hrow, hr, hn, ho]
  by_cases hd : c.action = .delete
  · have hcascade := (capture_delete_iff hc).mp hd
    rw [if_pos hcascade] at hrow ⊢
    simp only [hd, decide_true]
    exact .deleted c.key r hr hrow
  · have hcascade := mt (capture_delete_iff hc).mpr hd
    rw [if_neg hcascade] at hrow ⊢
    rw [hr, Option.map_some] at hrow
    simp only [hd, decide_false, Option.map_some, nullify_namespaceId, if_true]
    refine .written c.key _ false _ hrow ?_ (fun _ => by rw [hr]; rfl) ?_
    · intro o ho
      rw [← ho, recordAt, hr]
      rfl
    · intro r₀ hr₀
      rw [hr] at hr₀
      cases hr₀
      rfl

lemma oldRecord_captured {root : RowKey} {c : ReferentialChange}
    (hc : c ∈ captureReferentialChanges s db root) : some c.oldRecord = db.recordAt c.key := by
  obtain ⟨_, r, hr, _, ho⟩ := capture_met hc
  rw [recordAt, hr, ho]
  rfl

end Referential

/-- The delete of an existing row whose table has references to follow is traced: the transaction
knows the row. -/
def RowOp.Traced (s : Schema) (ctx : BatchCtx) : RowOp → Prop
  | .delete op => s.hasIncomingCascadeOrSetNull op.tableIndex →
      (ctx.db.row ⟨op.tableIndex, op.id⟩).isSome → ctx.containsEffectivePk ⟨op.tableIndex, op.id⟩
  | _ => True

/-- The effects of an operation: all that a transaction tracked of it and, when it is traced, all
that it did to the rows. -/
structure Accounts (s : Schema) (sqlite : Sqlite) (op : RowOp) (ctx ctx' : BatchCtx)
    (effects : List RowEffect) : Prop extends Happened s ctx.db ctx'.db effects where
  tracked : Tracked s ctx ctx' effects
  oldRecords : OldRecordsRead sqlite ctx effects
  untouched : op.Traced s ctx → ∀ key, key ∉ effects.map RowEffect.key → ctx'.db.row key = ctx.db.row key
  announced : ∀ k, k ∈ effects.map RowEffect.slot ↔ op.Announces s sqlite ctx k

variable {op : RowOp}

lemma Accounts.explains {es : List RowEffect} (h : Accounts s sqlite op ctx ctx' es)
    (htraced : op.Traced s ctx) : Explains s ctx.db ctx'.db es :=
  ⟨h.toHappened, h.untouched htraced⟩

lemma accounts_nil (last : ℕ → ℤ) (hnone : ∀ k, ¬ op.Affects s sqlite ctx.db k) :
    Accounts s sqlite op ctx { ctx with lastCreatedAt := last } [] where
  nodup := nodup_nil
  happened e he := by cases he
  tracked := .refl rfl rfl rfl rfl rfl
  oldRecords _ _ e he := by cases he
  untouched _ _ _ := rfl
  announced k := iff_of_false not_mem_nil fun h => hnone k h.1

variable {p : Database × Option Record} {t : Table}

lemma accounts_write (key : RowKey) {namespaceId : ℤ} {old : Option Record} {pkInsert : Bool} (last : ℕ → ℤ)
    (ht : s.tableByIndex key.tableIndex = some t) (hp : WriteResult ctx.db key namespaceId p)
    (hold : Prefetched s sqlite ctx key namespaceId old) (hsome : p.2.isSome)
    (hinsert : pkInsert = false → (ctx.db.row key).isSome)
    (haffects : ∀ k, op.Announces s sqlite ctx k ↔ k = (namespaceId, key)) :
    Accounts s sqlite op ctx (BatchCtx.track t ⟨key, namespaceId, pkInsert, false, old, p.2⟩
        { ctx with db := p.1, lastCreatedAt := last })
      [⟨key, namespaceId, pkInsert, false, old, p.2⟩] := by
  cases hp with
  | unaffected => simp at hsome
  | wrote r hw =>
    obtain ⟨rfl, hsame⟩ := hw
    have hknown : ∀ o, old = some o → ctx.db.recordAt key = some o := by
      intro o ho
      obtain ⟨r₀, hr₀, _, rfl⟩ := select_eq_some.mp (hold.known o ho)
      rw [recordAt, hr₀]
      rfl
    refine ⟨⟨nodup_singleton _, ?_⟩, Tracked.after t _ ht last, ?_, ?_, ?_⟩
    · rw [forall_mem_singleton, track_db]
      exact ⟨.written key r pkInsert old (by simp) hknown hinsert fun r₀ hr => (hsame r₀ hr).1, t, ht⟩
    · intro hq hread
      rw [forall_mem_singleton]
      dsimp only
      rw [hold.exact hq (hread key), recordAt]
      cases hr : ctx.db.row key with
      | none => simp [select, hr]
      | some r₀ => simp [select, hr, (hsame r₀ hr).1]
    · intro _ k hk
      rw [track_db, row_put, if_neg]
      simpa [eq_comm] using hk
    · intro k
      rw [map_singleton, mem_singleton, haffects]
      rfl

lemma announces_write_iff {guard : Option SqlWhere} (ht : s.tableByIndex op.target.tableIndex = some t)
    (hguard : renderAndClause t op.guardPredicate = .ok guard)
    (hp : op.Performs s sqlite.enc t guard ctx.db p) (hdelete : op.isDelete = false) (k : Slot) :
    op.Announces s sqlite ctx k ↔ p.2.isSome ∧ k = (op.storedNamespace t, op.target) := by
  rw [Announces, affects_iff ht hguard hp, hdelete]
  constructor
  · rintro ⟨⟨hsome, hk | ⟨hd, _⟩⟩, _⟩
    · exact ⟨hsome, hk⟩
    · cases hd
  · rintro ⟨hsome, rfl⟩
    exact ⟨⟨hsome, .inl rfl⟩, .inl rfl⟩

lemma not_affects_of_none {guard : Option SqlWhere} (ht : s.tableByIndex op.target.tableIndex = some t)
    (hguard : renderAndClause t op.guardPredicate = .ok guard)
    (hp : op.Performs s sqlite.enc t guard ctx.db p) (hnone : p.2 = none) (k : Slot) :
    ¬ op.Affects s sqlite ctx.db k := by
  rw [affects_iff ht hguard hp, hnone]
  rintro ⟨h, _⟩
  cases h

lemma executeUpsertEntry_accounts {op : UpsertOp} {b : Bool} (ht : s.tableByIndex op.tableIndex = some t)
    (h : executeUpsertEntry s sqlite op ((RowOp.upsert op).storedNamespace t) t ctx = .ok b ctx') :
    ∃ es, Accounts s sqlite (.upsert op) ctx ctx' es := by
  obtain ⟨old, guard, createdAt, last, p, hold, hguard, _, hp, hcase⟩ := executeUpsertEntry_eq_ok ht h
  have hperforms : (RowOp.upsert op).Performs s sqlite.enc t guard ctx.db p :=
    hp ▸ .upsert op createdAt
  cases hcase with
  | inl hnone =>
    obtain ⟨hn, _, rfl⟩ := hnone
    exact ⟨[], accounts_nil last (not_affects_of_none ht hguard hperforms hn)⟩
  | inr hsome =>
    obtain ⟨hs, _, rfl⟩ := hsome
    have hres : WriteResult ctx.db ⟨op.tableIndex, op.id⟩ ((RowOp.upsert op).storedNamespace t) p :=
      hp ▸ upsert_result _ _ rfl
    refine ⟨_, accounts_write ⟨op.tableIndex, op.id⟩ last ht hres hold hs (by simp) fun k => ?_⟩
    rw [announces_write_iff ht hguard hperforms rfl, and_iff_right hs]
    rfl

lemma executeUpdateEntry_accounts {op : UpdateOp} {b : Bool} (ht : s.tableByIndex op.tableIndex = some t)
    (h : executeUpdateEntry s sqlite op ((RowOp.update op).storedNamespace t) t ctx = .ok b ctx') :
    ∃ es, Accounts s sqlite (.update op) ctx ctx' es := by
  obtain ⟨old, guard, p, hold, hguard, hp, hcase⟩ := executeUpdateEntry_eq_ok ht h
  have hperforms : (RowOp.update op).Performs s sqlite.enc t guard ctx.db p := hp ▸ .update op
  cases hcase with
  | inl hnone =>
    obtain ⟨hn, _, rfl⟩ := hnone
    exact ⟨[], accounts_nil ctx'.lastCreatedAt (not_affects_of_none ht hguard hperforms hn)⟩
  | inr hsome =>
    obtain ⟨hs, _, rfl⟩ := hsome
    have hres : WriteResult ctx.db ⟨op.tableIndex, op.id⟩ ((RowOp.update op).storedNamespace t) p :=
      hp ▸ update_result _ _
    have hstored : (ctx.db.row ⟨op.tableIndex, op.id⟩).isSome :=
      isSome_of_update (hp ▸ hs)
    refine ⟨_, accounts_write ⟨op.tableIndex, op.id⟩ ctx.lastCreatedAt ht hres hold hs
      (fun _ => hstored) fun k => ?_⟩
    rw [announces_write_iff ht hguard hperforms rfl, and_iff_right hs]
    rfl

/-- The deleted row and the captured changes are what happened in a delete; they are all that
happened when the capture was made or had nothing to follow. -/
lemma happened_delete {key : RowKey} {r : Row}
    (hr : db.row key = some r) (ht : s.tableByIndex key.tableIndex = some t)
    (hchanges : changes = captureReferentialChanges s db key ∨ changes = [])
    (htables : ∀ c ∈ changes, ∃ t, s.tableByIndex c.key.tableIndex = some t) :
    Happened s db (db.deleteCascading s key)
      (⟨key, r.namespaceId, false, true, some (r.record key.id), none⟩ ::
        changes.map (ReferentialChange.effect (db.deleteCascading s key))) := by
  constructor
  · rw [map_cons, map_map, nodup_cons]
    change key ∉ changes.map ReferentialChange.key ∧ (changes.map ReferentialChange.key).Nodup
    rcases hchanges with rfl | rfl
    · refine ⟨fun hm => ?_, capture_nodup s db key⟩
      obtain ⟨c, hc, hk⟩ := mem_map.mp hm
      exact (capture_met hc).1 hk
    · simp
  · rw [forall_mem_cons]
    refine ⟨⟨.deleted key r hr (row_deleteCascading_self s db key), t, ht⟩, ?_⟩
    intro e he
    obtain ⟨c, hc, rfl⟩ := mem_map.mp he
    refine ⟨?_, htables c hc⟩
    rcases hchanges with rfl | rfl
    · exact effectOf_captured hc
    · cases hc

lemma untouched_delete {key : RowKey}
    (hchanges : changes = captureReferentialChanges s db key ∨
      s.hasIncomingCascadeOrSetNull key.tableIndex = false) {k : RowKey} (hne : k ≠ key)
    (hk : k ∉ changes.map ReferentialChange.key) : (db.deleteCascading s key).row k = db.row k := by
  rcases hchanges with rfl | hno
  · exact row_deleteCascading_of_not_captured hne hk
  · exact row_deleteCascading_of_no_incoming hno hne

lemma announces_delete_iff {op : DeleteOp} {guard : Option SqlWhere}
        (ht : s.tableByIndex op.tableIndex = some t)
    (hguard : renderAndClause t op.guardPredicate = .ok guard)
    (hp : (RowOp.delete op).Performs s sqlite.enc t guard ctx.db p) (hsome : p.2.isSome)
    (hchanges : changes = captureReferentialChanges s ctx.db ⟨op.tableIndex, op.id⟩ ∧
        ctx.containsEffectivePk ⟨op.tableIndex, op.id⟩ ∨
      changes = [] ∧ ¬ (s.hasIncomingCascadeOrSetNull op.tableIndex ∧
        ctx.containsEffectivePk ⟨op.tableIndex, op.id⟩)) (k : Slot) :
    (RowOp.delete op).Announces s sqlite ctx k ↔
      k = ((RowOp.delete op).storedNamespace t, ⟨op.tableIndex, op.id⟩) ∨
        k ∈ changes.map fun c => (c.namespaceId, c.key) := by
  have htarget : (RowOp.delete op).target = ⟨op.tableIndex, op.id⟩ := rfl
  rw [Announces, affects_iff ht hguard hp, and_iff_right hsome, htarget]
  rcases hchanges with ⟨rfl, hknown⟩ | ⟨rfl, hno⟩
  · rw [captured_iff_follows]
    simp [hknown, isDelete]
  · constructor
    · rintro ⟨hk | ⟨_, hfollows⟩, hroot⟩
      · exact .inl hk
      · exfalso
        refine hno ⟨?_, hroot.resolve_left hfollows.1⟩
        by_contra hincoming
        rw [Bool.not_eq_true] at hincoming
        exact not_follows_of_no_incoming hincoming hfollows
    · rintro (rfl | hk)
      · exact ⟨.inl rfl, .inl rfl⟩
      · cases hk

lemma executeDeleteEntry_accounts {op : DeleteOp} {b : Bool} (ht : s.tableByIndex op.tableIndex = some t)
    (h : executeDeleteEntry s sqlite op ((RowOp.delete op).storedNamespace t) t ctx = .ok b ctx') :
    ∃ es, Accounts s sqlite (.delete op) ctx ctx' es := by
  obtain ⟨changes, guard, p, htrace, hguard, hp, hcase⟩ := executeDeleteEntry_eq_ok ht h
  obtain ⟨_, hchanges⟩ := tracedReferences_eq_ok htrace
  rw [index_of_tableByIndex ht] at hchanges
  have hperforms : (RowOp.delete op).Performs s sqlite.enc t guard ctx.db p := hp ▸ .delete op
  have hres : DeleteResult s ctx.db ⟨op.tableIndex, op.id⟩
      ((RowOp.delete op).storedNamespace t) p := hp ▸ delete_result
  cases hcase with
  | inl hnone =>
    obtain ⟨hn, _, rfl⟩ := hnone
    exact ⟨[], accounts_nil ctx'.lastCreatedAt (not_affects_of_none ht hguard hperforms hn)⟩
  | inr hsome =>
    obtain ⟨hs, _, happly⟩ := hsome
    have hannounces := announces_delete_iff ht hguard hperforms hs hchanges
    cases hres with
    | unaffected => simp at hs
    | deleted r hr hn =>
      obtain ⟨hdb, htrack, htables⟩ := applyReferentialChanges_eq_ok happly
      simp only [track_db] at hdb htrack
      rw [← hn] at htrack hannounces
      refine ⟨_, ⟨?_, (Tracked.after t _ ht ctx.lastCreatedAt).trans htrack, ?_, ?_, ?_⟩⟩
      · rw [hdb]
        exact happened_delete hr ht (hchanges.imp And.left And.left) htables
      · intro _ _ e he
        cases mem_cons.mp he with
        | inl he =>
          rw [he, recordAt, hr]
          rfl
        | inr he =>
          obtain ⟨c, hc, rfl⟩ := mem_map.mp he
          rcases hchanges with ⟨rfl, _⟩ | ⟨rfl, _⟩
          · exact oldRecord_captured hc
          · cases hc
      · intro htraced k hk
        rw [singleton_append, map_cons, map_map, mem_cons, not_or] at hk
        rw [hdb]
        refine untouched_delete (hchanges.imp And.left fun hno => ?_) hk.1 hk.2
        rw [← Bool.not_eq_true]
        intro hincoming
        exact hno.2 ⟨hincoming, htraced hincoming (by rw [hr]; rfl)⟩
      · intro k
        rw [hannounces, singleton_append, map_cons, map_map, mem_cons]
        rfl

lemma executeEntry_accounts {b : Bool}
    (h : executeEntry s sqlite op ctx = .ok b ctx') : ∃ es, Accounts s sqlite op ctx ctx' es := by
  cases op with
  | upsert op =>
    obtain ⟨⟨t, namespaceId⟩, ctx₁, htarget, hentry⟩ := run_bind_eq_ok.mp h
    obtain ⟨rfl, ht, hns⟩ := resolveEntryTarget_eq_ok htarget
    dsimp only at ht hns hentry
    rw [hns] at hentry
    exact executeUpsertEntry_accounts ht hentry
  | update op =>
    obtain ⟨⟨t, namespaceId⟩, ctx₁, htarget, hentry⟩ := run_bind_eq_ok.mp h
    obtain ⟨rfl, ht, hns⟩ := resolveEntryTarget_eq_ok htarget
    dsimp only at ht hns hentry
    rw [hns] at hentry
    exact executeUpdateEntry_accounts ht hentry
  | delete op =>
    obtain ⟨⟨t, namespaceId⟩, ctx₁, htarget, hentry⟩ := run_bind_eq_ok.mp h
    obtain ⟨rfl, ht, hns⟩ := resolveEntryTarget_eq_ok htarget
    dsimp only at ht hns hentry
    rw [hns] at hentry
    exact executeDeleteEntry_accounts ht hentry

end ZyncBase
