import ZyncBase.Storage.PkSets
import ZyncBase.Storage.WriteLoop

/-! Batching: what the thread of the write worker does to the rows and answers, however it cuts the
queue into flushes, compared with a transaction for every operation. -/
namespace ZyncBase

open AssocMap Machine Outcome WriteWorker Lockstep BatchCtx

/-- A transaction that has already tracked some mutations, and one that begins when those have been
applied. -/
structure Ahead (pk : List PkMutation) (cache : List CacheOp) (ctx ctx' : BatchCtx) : Prop where
  db : ctx.db = ctx'.db
  lastCreatedAt : ctx.lastCreatedAt = ctx'.lastCreatedAt
  pkMutations : ctx.pkMutations = pk ++ ctx'.pkMutations
  cacheOps : ctx.pendingCacheOps = cache ++ ctx'.pendingCacheOps
  pkSets : ctx'.self.pkSets = pk.foldl applyPkMutation ctx.self.pkSets
  watched : ctx.self.changeQueue.isSome = ctx'.self.changeQueue.isSome

namespace Ahead

variable {s : Schema} {sqlite : Sqlite} {pk : List PkMutation} {cache : List CacheOp}
  {ctx ctx' : BatchCtx} {namespaceId : ℤ} {key : RowKey} {t : Table}

lemma containsEffectivePk (h : Ahead pk cache ctx ctx') (key : RowKey) :
    ctx.containsEffectivePk key = ctx'.containsEffectivePk key := by
  rw [containsEffectivePk_eq, containsEffectivePk_eq, h.pkMutations,
    List.foldl_append, h.pkSets, PkMutation.mem_foldl_applyPkMutation]

lemma liftExcept {α : Type} (x : Except StorageError α) : Lockstep (Ahead pk cache) (liftExcept x) := by
  intro c c' h
  cases x with
  | ok a => exact .inl ⟨a, c, c', rfl, rfl, h⟩
  | error e => exact .inr ⟨e, c, c', rfl, rfl, h⟩

lemma requireTable (i : ℕ) : Lockstep (Ahead pk cache) (requireTable s i) := by
  intro c c' h
  unfold ZyncBase.requireTable
  cases s.tableByIndex i with
  | none => exact .inr ⟨_, c, c', rfl, rfl, h⟩
  | some t => exact .inl ⟨t, c, c', rfl, rfl, h⟩

lemma performStatement (st : Statement) (effect : Database → Database × Option Record) :
    Lockstep (Ahead pk cache) (performStatement sqlite st effect) := by
  intro c c' h
  unfold ZyncBase.performStatement
  rw [h.db]
  cases sqlite.error c'.db st with
  | some e => exact .inr ⟨e, c, c', rfl, rfl, h⟩
  | none =>
    exact .inl ⟨_, _, _, rfl, rfl, ⟨rfl, h.lastCreatedAt, h.pkMutations, h.cacheOps, h.pkSets, h.watched⟩⟩

lemma getDocumentHelper : Lockstep (Ahead pk cache) (getDocumentHelper s sqlite namespaceId key) := by
  intro c c' h
  unfold ZyncBase.getDocumentHelper
  rw [h.db]
  cases s.tableByIndex key.tableIndex with
  | none => exact .inl ⟨none, c, c', rfl, rfl, h⟩
  | some t =>
    dsimp only
    cases sqlite.error c'.db (.select key) with
    | some e => exact .inr ⟨e, c, c', rfl, rfl, h⟩
    | none => exact .inl ⟨_, c, c', rfl, rfl, h⟩

lemma prefetchOldRecord : Lockstep (Ahead pk cache) (prefetchOldRecord s sqlite namespaceId key) := by
  intro c c' h
  unfold ZyncBase.prefetchOldRecord
  rw [h.watched]
  split_ifs
  · obtain ⟨r, d, d', hc, hc', hd⟩ | ⟨e, d, d', hc, hc', hd⟩ :=
      @getDocumentHelper s sqlite pk cache namespaceId key c c' h
    · rw [hc, hc']
      exact .inl ⟨r, d, d', rfl, rfl, hd⟩
    · rw [hc, hc']
      exact .inl ⟨none, d, d', rfl, rfl, hd⟩
  · exact .inl ⟨none, c, c', rfl, rfl, h⟩

lemma claimCreatedAt (i : ℕ) (us : ℤ) : Lockstep (Ahead pk cache) (claimCreatedAt s i us) := by
  intro c c' h
  unfold ZyncBase.claimCreatedAt
  rw [h.lastCreatedAt]
  split_ifs
  · exact .inr ⟨_, c, c', rfl, rfl, h⟩
  · cases claimNextCreatedAt (c'.lastCreatedAt i) us with
    | error e => exact .inr ⟨e, c, c', rfl, rfl, h⟩
    | ok next =>
      exact .inl ⟨next, _, _, rfl, rfl, ⟨h.db, rfl, h.pkMutations, h.cacheOps, h.pkSets, h.watched⟩⟩

lemma unlessGuardConflict : Lockstep (Ahead pk cache) (unlessGuardConflict s sqlite namespaceId key) :=
  (getDocumentHelper.bind fun _ => pure _).bind fun _ => pure _

lemma track (h : Ahead pk cache ctx ctx') (t : Table) (e : RowEffect) :
    Ahead pk cache (ctx.track t e) (ctx'.track t e) := by
  unfold BatchCtx.track pushRowChange
  have hw : (trackPkMutations e (trackCacheOp t e ctx)).self.changeQueue.isSome =
      (trackPkMutations e (trackCacheOp t e ctx')).self.changeQueue.isSome :=
    h.watched
  rw [hw]
  split_ifs
  all_goals
    refine ⟨h.db, h.lastCreatedAt, ?_, ?_, h.pkSets, h.watched⟩
    · simp [trackPkMutations, trackCacheOp, h.pkMutations]
    · simp [trackPkMutations, trackCacheOp, h.cacheOps]

lemma applyWriteResult (hasGuard : Bool) (e : RowEffect) :
    Lockstep (Ahead pk cache) (applyWriteResult t hasGuard e) := by
  intro c c' h
  unfold ZyncBase.applyWriteResult
  split_ifs
  · exact .inl ⟨true, _, _, rfl, rfl, h.track t e⟩
  · exact .inl ⟨_, c, c', rfl, rfl, h⟩

lemma tracedReferences : Lockstep (Ahead pk cache) (tracedReferences s t key) := by
  intro c c' h
  unfold ZyncBase.tracedReferences
  rw [h.containsEffectivePk, h.db]
  split_ifs
  · exact .inl ⟨_, c, c', rfl, rfl, h⟩
  · exact .inl ⟨_, c, c', rfl, rfl, h⟩

lemma applyReferentialChanges (changes : List ReferentialChange) :
    Lockstep (Ahead pk cache) (applyReferentialChanges s sqlite changes) := by
  induction changes with
  | nil => exact pure _
  | cons c cs ih =>
    unfold ZyncBase.applyReferentialChanges ZyncBase.applyReferentialChange
    refine bind ((requireTable _).bind fun t => getDocumentHelper.bind fun r => ?_) fun _ => ih
    split_ifs
    · exact throw _
    · exact (applyWriteResult _ _).bind fun _ => pure _

lemma executeEntry (op : RowOp) : Lockstep (Ahead pk cache) (executeEntry s sqlite op) := by
  have htarget : ∀ i n, Lockstep (Ahead pk cache) (resolveEntryTarget s i n) :=
    fun i n => (requireTable i).bind fun t => pure _
  cases op with
  | upsert op =>
    rw [ZyncBase.executeEntry]
    refine (htarget _ _).bind fun target => prefetchOldRecord.bind fun old => ?_
    refine bind ?_ fun new => ?_
    · refine (liftExcept _).bind fun guard => (liftExcept _).bind fun _ => ?_
      exact (claimCreatedAt _ _).bind fun createdAt => performStatement _ _
    · split_ifs
      · exact pure _
      · exact applyWriteResult _ _
  | update op =>
    rw [ZyncBase.executeEntry]
    refine (htarget _ _).bind fun target => prefetchOldRecord.bind fun old => ?_
    refine bind ?_ fun new => ?_
    · refine (liftExcept _).bind fun guard => (liftExcept _).bind fun _ => ?_
      split_ifs
      · exact throw _
      · exact performStatement _ _
    · split_ifs
      · exact unlessGuardConflict
      · exact applyWriteResult _ _
  | delete op =>
    rw [ZyncBase.executeEntry]
    refine (htarget _ _).bind fun target => tracedReferences.bind fun changes => ?_
    refine bind ?_ fun old => ?_
    · exact (liftExcept _).bind fun guard => performStatement _ _
    · split_ifs
      · exact unlessGuardConflict
      · refine (applyWriteResult _ _).bind fun applied => bind ?_ fun _ => pure _
        unfold ZyncBase.applyReferentialChangesIf
        split_ifs
        · exact applyReferentialChanges _
        · exact pure _

end Ahead

/-- Two workers that differ at most in their version and in the changes queued for others. -/
structure Matches (w w' : WriteWorker) : Prop where
  db : w.db = w'.db
  namespaces : w.namespaces = w'.namespaces
  documentCache : w.documentCache = w'.documentCache
  namespaceCache : w.namespaceCache = w'.namespaceCache
  identityCache : w.identityCache = w'.identityCache
  pkSets : w.pkSets = w'.pkSets
  lastCreatedAt : w.lastCreatedAt = w'.lastCreatedAt
  watched : w.changeQueue.isSome = w'.changeQueue.isSome

namespace Matches

variable {s : Schema} {sqlite : Sqlite} {w w' w'' : WriteWorker} {failFast : Bool} {ops : List RowOp}

lemma refl (w : WriteWorker) : Matches w w := ⟨rfl, rfl, rfl, rfl, rfl, rfl, rfl, rfl⟩

/-- Transactions of two such workers run alike. -/
def Alike (ctx ctx' : BatchCtx) : Prop :=
  Ahead [] [] ctx ctx' ∧ ctx.guardRejected = ctx'.guardRejected

lemma begin (h : Matches w w') : Alike w.begin w'.begin :=
  ⟨⟨h.db, h.lastCreatedAt, rfl, rfl, h.pkSets.symm, h.watched⟩, rfl⟩

lemma Alike.reject {ctx ctx' : BatchCtx} (h : Alike ctx ctx') (opIdx : ℕ) :
    Alike (ZyncBase.reject opIdx ctx) (ZyncBase.reject opIdx ctx') :=
  ⟨⟨h.1.db, h.1.lastCreatedAt, h.1.pkMutations, h.1.cacheOps, h.1.pkSets, h.1.watched⟩, by
    simp [ZyncBase.reject, h.2]⟩

lemma executeOp (opIdx : ℕ) (op : RowOp) : Lockstep Alike (executeOp s sqlite failFast opIdx op) := by
  intro c c' h
  unfold ZyncBase.executeOp
  obtain ⟨b, d, d', hc, hc', hd⟩ | ⟨e, d, d', hc, hc', hd⟩ :=
    (Ahead.executeEntry op).withKept (kept_executeEntry op) c c' h
  · rw [hc, hc']
    exact .inl ⟨b, d, d', rfl, rfl, hd⟩
  · rw [hc, hc']
    cases failFast with
    | true => exact .inr ⟨e, _, _, rfl, rfl, Alike.reject hd opIdx⟩
    | false => exact .inr ⟨e, d, d', rfl, rfl, hd⟩

lemma guardOutcome (opIdx : ℕ) (b : Bool) : Lockstep Alike (guardOutcome failFast opIdx b) := by
  intro c c' h
  unfold ZyncBase.guardOutcome
  split_ifs
  · exact .inl ⟨(), c, c', rfl, rfl, h⟩
  · exact .inr ⟨_, _, _, rfl, rfl, Alike.reject h opIdx⟩
  · exact .inl ⟨(), _, _, rfl, rfl, Alike.reject h opIdx⟩

lemma runOps (opIdx : ℕ) (ops : List RowOp) : Lockstep Alike (runOps s sqlite failFast opIdx ops) := by
  induction ops generalizing opIdx with
  | nil => exact pure _
  | cons op ops ih =>
    rw [ZyncBase.runOps]
    exact (executeOp opIdx op).bind fun b => (guardOutcome opIdx b).bind fun _ => ih (opIdx + 1)

lemma tryTransaction (s : Schema) (sqlite : Sqlite) (failFast : Bool) (ops : List RowOp) (h : Matches w w') :
    (∃ ctx ctx', w.tryTransaction s sqlite failFast ops = .ok () ctx ∧
      w'.tryTransaction s sqlite failFast ops = .ok () ctx' ∧ Alike ctx ctx') ∨
    ∃ e ctx ctx', w.tryTransaction s sqlite failFast ops = .error e ctx ∧
      w'.tryTransaction s sqlite failFast ops = .error e ctx' ∧ Alike ctx ctx' := by
  have hrun : Lockstep Alike (ZyncBase.runOps s sqlite failFast 0 ops) := runOps 0 ops
  unfold WriteWorker.tryTransaction
  obtain ⟨_, c, c', hc, hc', hcc⟩ | ⟨e, c, c', hc, hc', hcc⟩ := hrun _ _ h.begin
  · rw [hc, hc']
    dsimp only
    rw [hcc.1.db]
    cases sqlite.error c'.db .commit with
    | some e => exact .inr ⟨e, c, c', rfl, rfl, hcc⟩
    | none => exact .inl ⟨c, c', rfl, rfl, hcc⟩
  · rw [hc, hc']
    exact .inr ⟨e, c, c', rfl, rfl, hcc⟩

lemma runTransaction (s : Schema) (sqlite : Sqlite) (failFast : Bool) (ops : List RowOp)
    (h : Matches w w') : Matches (w.runTransaction s sqlite failFast ops)
      (w'.runTransaction s sqlite failFast ops) := by
  unfold WriteWorker.runTransaction
  obtain ⟨c, c', hc, hc', hcc⟩ | ⟨e, c, c', hc, hc', hcc⟩ := h.tryTransaction s sqlite failFast ops
  · rw [hc, hc']
    refine ⟨hcc.1.db, h.namespaces, ?_, h.namespaceCache, h.identityCache, ?_, hcc.1.lastCreatedAt, ?_⟩
    · change c.pendingCacheOps.foldl applyMutation w.documentCache =
        c'.pendingCacheOps.foldl applyMutation w'.documentCache
      rw [h.documentCache, hcc.1.cacheOps, List.nil_append]
    · change c.pkMutations.foldl applyPkMutation w.pkSets = c'.pkMutations.foldl applyPkMutation w'.pkSets
      rw [h.pkSets, hcc.1.pkMutations, List.nil_append]
    · change (w.changeQueue.map _).isSome = (w'.changeQueue.map _).isSome
      rw [Option.isSome_map, Option.isSome_map, h.watched]
  · rw [hc, hc']
    exact ⟨h.db, h.namespaces, h.documentCache, h.namespaceCache, h.identityCache, h.pkSets,
      hcc.1.lastCreatedAt, h.watched⟩

lemma batchOutcome (s : Schema) (sqlite : Sqlite) (ops : List RowOp) (h : Matches w w') :
    w.batchOutcome s sqlite ops = w'.batchOutcome s sqlite ops := by
  unfold WriteWorker.batchOutcome
  obtain ⟨c, c', hc, hc', hcc⟩ | ⟨e, c, c', hc, hc', hcc⟩ := h.tryTransaction s sqlite true ops
  · rw [hc, hc']
  · rw [hc, hc']
    dsimp only
    rw [hcc.2]

lemma claimed (h : Matches w w') (lastCreatedAt : ℕ → ℤ) :
    Matches { w with lastCreatedAt } { w' with lastCreatedAt } :=
  ⟨h.db, h.namespaces, h.documentCache, h.namespaceCache, h.identityCache, h.pkSets, rfl, h.watched⟩

lemma resolveUserId (h : Matches w w') (sqlite : Sqlite) (t : Table) (namespaceId : ℤ)
    (externalId : Bytes) (newUserId : DocId) (createdAt : ℤ) :
    (∃ e, w.resolveUserId sqlite t namespaceId externalId newUserId createdAt = .error e ∧
      w'.resolveUserId sqlite t namespaceId externalId newUserId createdAt = .error e) ∨
    ∃ w₁ w₁' uid, w.resolveUserId sqlite t namespaceId externalId newUserId createdAt = .ok (w₁, uid) ∧
      w'.resolveUserId sqlite t namespaceId externalId newUserId createdAt = .ok (w₁', uid) ∧
      Matches w₁ w₁' := by
  unfold WriteWorker.resolveUserId
  dsimp only
  rw [h.db]
  cases sqlite.error w'.db (.resolveUser ⟨t.index, newUserId⟩
      (newRow t namespaceId newUserId (some externalId) [] createdAt)) with
  | some e => exact .inl ⟨e, rfl, rfl⟩
  | none =>
    cases w'.db.userRow t.index namespaceId externalId with
    | some key => exact .inr ⟨w, w', key.id, rfl, rfl, h⟩
    | none =>
      dsimp only
      split_ifs
      · exact .inl ⟨_, rfl, rfl⟩
      · exact .inr ⟨_, _, newUserId, rfl, rfl,
          ⟨rfl, h.namespaces, h.documentCache, h.namespaceCache, h.identityCache, h.pkSets,
            h.lastCreatedAt, h.watched⟩⟩

lemma resolveIdentity (h : Matches w w') (sqlite : Sqlite) (sop : ResolveSessionOp)
    (newUserId : DocId) (t : Table) (namespaceId : ℤ) :
    Matches (w.resolveIdentity sqlite sop newUserId t namespaceId)
      (w'.resolveIdentity sqlite sop newUserId t namespaceId) := by
  unfold WriteWorker.resolveIdentity WriteWorker.claimCreatedAt
  rw [h.lastCreatedAt]
  cases claimNextCreatedAt (w'.lastCreatedAt t.index) sop.timestamp with
  | error e => exact h
  | ok createdAt =>
    have hclaimed := h.claimed (Function.update w'.lastCreatedAt t.index createdAt)
    dsimp only
    obtain ⟨e, hw, hw'⟩ | ⟨w₁, w₁', uid, hw, hw', hr⟩ := hclaimed.resolveUserId sqlite t
      (identityNamespaceId t namespaceId) sop.externalUserId newUserId createdAt
    · rw [hw, hw']
      exact hclaimed
    · rw [hw, hw']
      refine ⟨hr.db, hr.namespaces, hr.documentCache, hr.namespaceCache, ?_, hr.pkSets,
        hr.lastCreatedAt, hr.watched⟩
      dsimp only
      rw [hr.identityCache]

lemma resolveNamespaceId (h : Matches w w') (sqlite : Sqlite) (name : Bytes) :
    (∃ e, w.resolveNamespaceId sqlite name = .error e ∧
      w'.resolveNamespaceId sqlite name = .error e) ∨
    ∃ w₁ w₁' namespaceId, w.resolveNamespaceId sqlite name = .ok (w₁, namespaceId) ∧
      w'.resolveNamespaceId sqlite name = .ok (w₁', namespaceId) ∧ Matches w₁ w₁' := by
  unfold WriteWorker.resolveNamespaceId
  rw [h.db, h.namespaces]
  cases sqlite.error w'.db (.resolveNamespace name) with
  | some e => exact .inl ⟨e, rfl, rfl⟩
  | none =>
    cases AssocMap.find eqKey name w'.namespaces with
    | some id => exact .inr ⟨w, w', id, rfl, rfl, h⟩
    | none =>
      exact .inr ⟨_, _, _, rfl, rfl, ⟨rfl, rfl, h.documentCache, h.namespaceCache,
        h.identityCache, h.pkSets, h.lastCreatedAt, h.watched⟩⟩

lemma resolveSession (h : Matches w w') (s : Schema) (sqlite : Sqlite) (sop : ResolveSessionOp)
    (newUserId : DocId) : Matches (w.executeResolveSessionOp s sqlite sop newUserId)
      (w'.executeResolveSessionOp s sqlite sop newUserId) := by
  unfold executeResolveSessionOp
  obtain ⟨e, hw, hw'⟩ | ⟨w₁, w₁', namespaceId, hw, hw', hn⟩ := h.resolveNamespaceId sqlite sop.nspace
  · rw [hw, hw']
    exact h
  · rw [hw, hw']
    have hcached : Matches { w₁ with namespaceCache := put eqKey sop.nspace namespaceId w₁.namespaceCache }
        { w₁' with namespaceCache := put eqKey sop.nspace namespaceId w₁'.namespaceCache } :=
      ⟨hn.db, hn.namespaces, hn.documentCache, by rw [hn.namespaceCache], hn.identityCache,
        hn.pkSets, hn.lastCreatedAt, hn.watched⟩
    cases s.table "users" with
    | none => exact hcached
    | some t => exact hcached.resolveIdentity sqlite sop newUserId t namespaceId

end Matches
end ZyncBase
