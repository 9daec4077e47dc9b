import ZyncBase.Lib.Machine
import ZyncBase.Storage.CacheMutations

/-! Point reads beside the write worker: readers look up, read and fill the document cache in steps
that interleave with the steps in which the worker commits a transaction and applies its mutations. -/
namespace ZyncBase

open AssocMap Database Function Machine WriteWorker List

/-- Where a read worker is in `executeSelectDocument`. -/
inductive Reader where
  | idle
  | missed (key : DocumentCacheKey)
  | sampled (key : DocumentCacheKey) (seqBefore : ℕ)
  | fetched (key : DocumentCacheKey) (seqBefore : ℕ) (record : Record)
  | checked (key : DocumentCacheKey) (record : Record)

/-- Where the write worker is in `commitBatchAndApply`. -/
inductive CommitPhase where
  | idle
  | committed (ctx : BatchCtx)
  | bumped (ctx : BatchCtx)

structure ReadSystem where
  worker : WriteWorker
  phase : CommitPhase := .idle
  readers : ℕ → Reader := fun _ => .idle

/-- The events of both sides. A reader looks up a key when it is idle, takes its next step, or gives
up where a read, a clone or the cache fails. -/
inductive ReadEvent where
  | lookup (reader : ℕ) (key : DocumentCacheKey)
  | advance (reader : ℕ)
  | abandon (reader : ℕ)
  | transaction (sqlite : Sqlite) (failFast : Bool) (ops : List RowOp)
  | bumpVersion
  | applyBatch
  | resolveSession (sqlite : Sqlite) (newUserId : DocId) (sop : ResolveSessionOp)

namespace ReadSystem

def setReader (st : ReadSystem) (i : ℕ) (r : Reader) : ReadSystem :=
  { st with readers := Function.update st.readers i r }

/-- Load the version, read the row, compare the version again, fill the cache. A missing row and a
changed version end the read. -/
def advance (st : ReadSystem) (i : ℕ) : ReadSystem :=
  match st.readers i with
  | .idle => st
  | .missed key => st.setReader i (.sampled key st.worker.version)
  | .sampled key seqBefore =>
    match st.worker.db.select ⟨key.tableIndex, key.id⟩ key.namespaceId with
    | none => st.setReader i .idle
    | some record => st.setReader i (.fetched key seqBefore record)
  | .fetched key seqBefore record =>
    st.setReader i (if st.worker.version = seqBefore then .checked key record else .idle)
  | .checked key record =>
    { st.setReader i .idle with
      worker := { st.worker with documentCache := put eqKey key record st.worker.documentCache } }

/-- A hit is answered from the cache and ends the read. -/
def lookup (st : ReadSystem) (i : ℕ) (key : DocumentCacheKey) : ReadSystem :=
  match st.readers i with
  | .idle =>
    if (find eqKey key st.worker.documentCache).isSome then st else st.setReader i (.missed key)
  | _ => st

def beginCommit (s : Schema) (st : ReadSystem) (sqlite : Sqlite) (failFast : Bool)
    (ops : List RowOp) : ReadSystem :=
  match st.worker.tryTransaction s sqlite failFast ops with
  | .error _ ctx => { st with worker := st.worker.rollback ctx }
  | .ok _ ctx => { st with worker := st.worker.commit ctx, phase := .committed ctx }

/-- The mutations of the transaction, with what follows them inside the worker. -/
def finishCommit (st : ReadSystem) (ctx : BatchCtx) : ReadSystem :=
  { st with
    worker := ((st.worker.applyDocumentCache ctx).applyPkMutations ctx).flushPendingChanges ctx
    phase := .idle }

/-- An event of the writer has no effect where the writer is elsewhere. -/
def step (s : Schema) (st : ReadSystem) : ReadEvent → ReadSystem
  | .lookup i key => st.lookup i key
  | .advance i => st.advance i
  | .abandon i => st.setReader i .idle
  | .transaction sqlite failFast ops =>
    match st.phase with
    | .idle => st.beginCommit s sqlite failFast ops
    | _ => st
  | .bumpVersion =>
    match st.phase with
    | .committed ctx => { st with worker := st.worker.bumpVersion, phase := .bumped ctx }
    | _ => st
  | .applyBatch =>
    match st.phase with
    | .bumped ctx => st.finishCommit ctx
    | _ => st
  | .resolveSession sqlite newUserId sop =>
    match st.phase with
    | .idle => { st with worker := st.worker.executeResolveSessionOp s sqlite sop newUserId }
    | _ => st

end ReadSystem

/-- The mutations still to be applied. -/
def CommitPhase.unapplied : CommitPhase → List CacheOp
  | .idle => []
  | .committed ctx => ctx.pendingCacheOps
  | .bumped ctx => ctx.pendingCacheOps

/-- Those that the version does not announce yet. -/
def CommitPhase.unannounced : CommitPhase → List CacheOp
  | .idle => []
  | .committed ctx => ctx.pendingCacheOps
  | .bumped _ => []

/-- What holds between any two steps. A cached record, or one about to be cached, that no mutation
still to be applied touches is the one stored; so is one fetched since the version last changed. -/
structure ReadSystem.Coherent (s : Schema) (st : ReadSystem) : Prop where
  placed : st.worker.db.Placed s
  settles : ∀ key ∈ st.phase.unapplied.map CacheOp.key, ∀ entries,
    find eqKey key (st.phase.unapplied.foldl applyMutation entries) = st.worker.db.contents key.slot
  cached : ∀ key r, key ∉ st.phase.unapplied.map CacheOp.key →
    find eqKey key st.worker.documentCache = some r → st.worker.db.contents key.slot = some r
  checked : ∀ i key r, st.readers i = .checked key r →
    key ∉ st.phase.unapplied.map CacheOp.key → st.worker.db.contents key.slot = some r
  fetched : ∀ i key seq r, st.readers i = .fetched key seq r → seq ≤ st.worker.version ∧
    (seq = st.worker.version → key ∉ st.phase.unannounced.map CacheOp.key →
      st.worker.db.contents key.slot = some r)
  sampled : ∀ i key seq, st.readers i = .sampled key seq → seq ≤ st.worker.version

/-- The step does not leave a stale record behind: no document is overlooked last by a transaction
that commits, and where mutations are applied no reader is about to cache an outdated record. -/
def ReadSystem.Safe (s : Schema) (st : ReadSystem) : ReadEvent → Prop
  | .transaction sqlite failFast ops =>
    ∀ ctx, st.worker.tryTransaction s sqlite failFast ops = .ok () ctx →
      ∀ k, ¬ OverlookedLast s sqlite k (executedOps s sqlite failFast 0 ops st.worker.begin)
  | .applyBatch => ∀ i key r, st.readers i = .checked key r → st.worker.db.contents key.slot = some r
  | _ => True

namespace ReadSystem.Coherent

variable {s : Schema} {st : ReadSystem}

lemma setReader (h : st.Coherent s) {i : ℕ} {r : Reader}
    (hchecked : ∀ key record, r = .checked key record →
      key ∉ st.phase.unapplied.map CacheOp.key → st.worker.db.contents key.slot = some record)
    (hfetched : ∀ key seq record, r = .fetched key seq record → seq ≤ st.worker.version ∧
      (seq = st.worker.version → key ∉ st.phase.unannounced.map CacheOp.key →
        st.worker.db.contents key.slot = some record))
    (hsampled : ∀ key seq, r = .sampled key seq → seq ≤ st.worker.version) :
    (st.setReader i r).Coherent s where
  placed := h.placed
  settles := h.settles
  cached := h.cached
  checked j key record hj := by
    simp only [ReadSystem.setReader, update_apply] at hj
    split_ifs at hj
    · exact hchecked key record hj
    · exact h.checked j key record hj
  fetched j key seq record hj := by
    simp only [ReadSystem.setReader, update_apply] at hj
    split_ifs at hj
    · exact hfetched key seq record hj
    · exact h.fetched j key seq record hj
  sampled j key seq hj := by
    simp only [ReadSystem.setReader, update_apply] at hj
    split_ifs at hj
    · exact hsampled key seq hj
    · exact h.sampled j key seq hj

lemma abandon (h : st.Coherent s) (i : ℕ) : (st.setReader i .idle).Coherent s :=
  h.setReader (fun _ _ he => by cases he) (fun _ _ _ he => by cases he) fun _ _ he => by cases he

lemma unannounced_subset {key : DocumentCacheKey} (h : key ∉ st.phase.unapplied.map CacheOp.key) :
    key ∉ st.phase.unannounced.map CacheOp.key := by
  cases hp : st.phase with
  | idle => exact not_mem_nil
  | committed ctx => rwa [hp] at h
  | bumped ctx => exact not_mem_nil

lemma lookup (h : st.Coherent s) (i : ℕ) (key : DocumentCacheKey) : (st.lookup i key).Coherent s := by
  unfold ReadSystem.lookup
  split
  · split_ifs
    · exact h
    · exact h.setReader (fun _ _ he => by cases he) (fun _ _ _ he => by cases he) fun _ _ he => by cases he
  · exact h

lemma advance (h : st.Coherent s) (i : ℕ) : (st.advance i).Coherent s := by
  unfold ReadSystem.advance
  cases hi : st.readers i with
  | idle => exact h
  | missed key =>
    refine h.setReader (fun _ _ he => by cases he) (fun _ _ _ he => by cases he) ?_
    rintro key' seq ⟨⟩
    exact le_rfl
  | sampled key seq =>
    dsimp only
    cases hr : st.worker.db.select ⟨key.tableIndex, key.id⟩ key.namespaceId with
    | none => exact h.abandon i
    | some r =>
      refine h.setReader (fun _ _ he => by cases he) ?_ fun _ _ he => by cases he
      rintro key' seq' r' ⟨⟩
      exact ⟨h.sampled i key seq hi, fun _ _ => hr⟩
  | fetched key seq r =>
    dsimp only
    obtain ⟨_, hcurrent⟩ := h.fetched i key seq r hi
    split_ifs with hv
    · refine h.setReader ?_ (fun _ _ _ he => by cases he) fun _ _ he => by cases he
      rintro key' r' ⟨⟩ hkey
      exact hcurrent hv.symm (unannounced_subset hkey)
    · exact h.abandon i
  | checked key r =>
    have hafter := h.abandon i
    refine ⟨hafter.placed, hafter.settles, fun key' r' hkey hfind => ?_, hafter.checked,
      hafter.fetched, hafter.sampled⟩
    change find eqKey key' (put eqKey key r st.worker.documentCache) = some r' at hfind
    rw [find_put] at hfind
    split_ifs at hfind with hk
    · cases hfind
      rw [eqKey_iff] at hk
      subst hk
      exact h.checked i key r hi hkey
    · exact h.cached key' r' hkey hfind

/-- A transaction that commits settles every document: what was cached or fetched and is touched by
none of its mutations has not changed. -/
lemma commit (h : st.Coherent s) {sqlite : Sqlite} {failFast : Bool} {ops : List RowOp}
    {ctx : BatchCtx} (hidle : st.phase = .idle)
    (htx : st.worker.tryTransaction s sqlite failFast ops = .ok () ctx)
    (hsafe : ∀ k, ¬ OverlookedLast s sqlite k (executedOps s sqlite failFast 0 ops
      st.worker.begin)) :
    ({ st with worker := st.worker.commit ctx, phase := .committed ctx } : ReadSystem).Coherent s := by
  have hops := tryTransaction_eq_ok htx
  obtain ⟨hplaced, cs, hcs, hsettled⟩ := runOps_settled h.placed hops
  have hcs : ctx.pendingCacheOps = cs := hcs
  have hsame : ∀ (key : DocumentCacheKey) r, key ∉ ctx.pendingCacheOps.map CacheOp.key →
      st.worker.db.contents key.slot = some r → ctx.db.contents key.slot = some r := by
    intro key r hkey hr
    rw [((hsettled key).2 (hsafe _)).untouched (hcs ▸ hkey)]
    exact hr
  have hnone : ∀ key : DocumentCacheKey, key ∉ st.phase.unapplied.map CacheOp.key := by
    rw [hidle]
    exact fun _ => not_mem_nil
  refine ⟨hplaced, fun key hkey entries => ?_, fun key r hkey hr => ?_, fun i key r hr hkey => ?_,
    fun i key seq r hr => ?_, h.sampled⟩
  · change key ∈ ctx.pendingCacheOps.map CacheOp.key at hkey
    change find eqKey key (ctx.pendingCacheOps.foldl applyMutation entries) = ctx.db.contents key.slot
    rw [hcs] at hkey ⊢
    exact ((hsettled key).2 (hsafe _)).touched hkey entries
  · exact hsame key r hkey (h.cached key r (hnone key) hr)
  · exact hsame key r hkey (h.checked i key r hr (hnone key))
  · obtain ⟨hseq, hcurrent⟩ := h.fetched i key seq r hr
    exact ⟨hseq, fun hv hkey => hsame key r hkey (hcurrent hv (unannounced_subset (hnone key)))⟩

lemma transaction (h : st.Coherent s) {sqlite : Sqlite} {failFast : Bool} {ops : List RowOp}
    (hsafe : st.Safe s (.transaction sqlite failFast ops)) :
    (st.step s (.transaction sqlite failFast ops)).Coherent s := by
  unfold ReadSystem.step
  cases hidle : st.phase with
  | committed ctx => exact h
  | bumped ctx => exact h
  | idle =>
    dsimp only
    unfold ReadSystem.beginCommit
    cases htx : st.worker.tryTransaction s sqlite failFast ops with
    | error e ctx => exact ⟨h.placed, h.settles, h.cached, h.checked, h.fetched, h.sampled⟩
    | ok u ctx => exact h.commit hidle htx (hsafe ctx htx)

lemma bumpVersion (h : st.Coherent s) : (st.step s .bumpVersion).Coherent s := by
  unfold ReadSystem.step
  cases hp : st.phase with
  | idle => exact h
  | bumped ctx => exact h
  | committed ctx =>
    obtain ⟨hplaced, hsettles, hcached, hchecked, hfetched, hsampled⟩ := h
    rw [hp] at hsettles hcached hchecked
    refine ⟨hplaced, hsettles, hcached, hchecked, fun i key seq r hr => ?_, fun i key seq hr => ?_⟩
    · have hle := (hfetched i key seq r hr).1
      change seq ≤ st.worker.version + 1 ∧ (seq = st.worker.version + 1 → _)
      exact ⟨by omega, fun he => by omega⟩
    · exact Nat.le_succ_of_le (hsampled i key seq hr)

lemma finishCommit (h : st.Coherent s) {ctx : BatchCtx} (hp : st.phase = .bumped ctx)
    (hsafe : st.Safe s .applyBatch) : (st.finishCommit ctx).Coherent s := by
  obtain ⟨hplaced, hsettles, hcached, hchecked, hfetched, hsampled⟩ := h
  rw [hp] at hsettles hcached hfetched
  refine ⟨hplaced, fun key hkey => absurd hkey not_mem_nil, fun key r _ hr => ?_,
    fun i key r hr _ => hsafe i key r hr, hfetched, hsampled⟩
  change find eqKey key (ctx.pendingCacheOps.foldl applyMutation st.worker.documentCache) = some r at hr
  by_cases hkey : key ∈ ctx.pendingCacheOps.map CacheOp.key
  · exact (hsettles key hkey _).symm.trans hr
  · rw [find_foldl_of_not_mem hkey] at hr
    exact hcached key r hkey hr

lemma applyBatch (h : st.Coherent s) (hsafe : st.Safe s .applyBatch) : (st.step s .applyBatch).Coherent s := by
  unfold ReadSystem.step
  cases hp : st.phase with
  | idle => exact h
  | committed ctx => exact h
  | bumped ctx => exact h.finishCommit hp hsafe

lemma tableByIndex_of_table {name : String} {t : Table} (h : s.table name = some t) :
    s.tableByIndex t.index = some t := by
  obtain ⟨j, hj⟩ := getElem?_of_mem (mem_of_find?_eq_some h)
  rw [Schema.tableByIndex, s.indexed j t hj, hj]

lemma resolved (h : st.Coherent s) {w : WriteWorker} (hidle : st.phase = .idle)
    (hstores : WriteWorker.SameStores st.worker w) (hplaced : w.db.Placed s)
    (hkept : ∀ (k : Slot) r, st.worker.db.contents k = some r → w.db.contents k = some r) :
    ({ st with worker := w, phase := .idle } : ReadSystem).Coherent s := by
  obtain ⟨_, _, hcached, hchecked, hfetched, hsampled⟩ := h
  rw [hidle] at hcached hchecked hfetched
  have hnone : ∀ key : DocumentCacheKey, key ∉ CommitPhase.idle.unapplied.map CacheOp.key :=
    fun _ => not_mem_nil
  refine ⟨hplaced, fun key hkey => absurd hkey (hnone key), fun key r _ hr => ?_,
    fun i key r hr _ => ?_, fun i key seq r hr => ?_, fun i key seq hr => ?_⟩
  · rw [hstores.documentCache] at hr
    exact hkept key.slot r (hcached key r (hnone key) hr)
  · exact hkept key.slot r (hchecked i key r hr (hnone key))
  · obtain ⟨hseq, hcurrent⟩ := hfetched i key seq r hr
    rw [hstores.version]
    exact ⟨hseq, fun hv _ => hkept key.slot r (hcurrent hv not_mem_nil)⟩
  · rw [hstores.version]
    exact hsampled i key seq hr

lemma resolveSession (h : st.Coherent s) (sqlite : Sqlite) (newUserId : DocId)
    (sop : ResolveSessionOp) : (st.step s (.resolveSession sqlite newUserId sop)).Coherent s := by
  unfold ReadSystem.step
  cases hidle : st.phase with
  | committed ctx => exact h
  | bumped ctx => exact h
  | idle =>
    dsimp only
    have hstores := (executeResolveSessionOp_cases s sqlite sop newUserId st.worker).1
    cases db_resolveSession_cases s sqlite sop newUserId st.worker with
    | inl hdb => exact h.resolved hidle hstores (hdb ▸ h.placed) fun k r hr => by rw [hdb, hr]
    | inr hnew =>
      obtain ⟨t, namespaceId, createdAt, ht, hfresh, hdb⟩ := hnew
      refine h.resolved hidle hstores ?_ fun k r hr => ?_
      · rw [hdb]
        refine h.placed.put (tableByIndex_of_table ht) fun hglobal => ?_
        change identityNamespaceId t namespaceId = globalNamespaceId
        rw [identityNamespaceId, hglobal]
        rfl
      · rw [hdb, contents_congr, hr]
        rw [row_put, if_neg]
        intro hk
        rw [contents_eq_none (by simp [← hk, hfresh])] at hr
        cases hr

lemma step (h : st.Coherent s) (ev : ReadEvent) (hsafe : st.Safe s ev) : (st.step s ev).Coherent s := by
  cases ev with
  | lookup i key => exact h.lookup i key
  | advance i => exact h.advance i
  | abandon i => exact h.abandon i
  | transaction sqlite failFast ops => exact h.transaction hsafe
  | bumpVersion => exact h.bumpVersion
  | applyBatch => exact h.applyBatch hsafe
  | resolveSession sqlite newUserId sop => exact h.resolveSession sqlite newUserId sop

lemma init {w : WriteWorker} (hplaced : w.db.Placed s) (hcache : w.documentCache = []) :
    ({ worker := w } : ReadSystem).Coherent s where
  placed := hplaced
  settles key hkey := absurd hkey not_mem_nil
  cached key r _ hr := by
    rw [hcache] at hr
    cases hr
  checked i key r hr := by cases hr
  fetched i key seq r hr := by cases hr
  sampled i key seq hr := by cases hr

end ReadSystem.Coherent

/-- In every run from startup whose steps are safe, whenever the writer is not between a `COMMIT` and
the end of its mutations, every cached record is the one committed for its key. -/
theorem documentCache_coherent (s : Schema) {changeQueue : Option (List OwnedRecordChange)}
    {db : Database} {namespaces : List (Bytes × ℤ)} {w : WriteWorker}
    (hboot : WriteWorker.bootstrapRuntimeTableState s changeQueue db namespaces = .ok w)
    (hplaced : db.Placed s) (events : List ReadEvent)
    (hsafe : Along (ReadSystem.step s) (ReadSystem.Safe s) ⟨w, .idle, fun _ => .idle⟩ events)
    {st : ReadSystem} (hst : st = events.foldl (ReadSystem.step s) ⟨w, .idle, fun _ => .idle⟩)
    (hidle : st.phase = .idle) {key : DocumentCacheKey} {r : Record}
    (hcached : find eqKey key st.worker.documentCache = some r) :
    st.worker.db.select ⟨key.tableIndex, key.id⟩ key.namespaceId = some r := by
  have hstart : w.db = db ∧ w.documentCache = [] := by
    unfold WriteWorker.bootstrapRuntimeTableState at hboot
    split_ifs at hboot
    cases hboot
    exact ⟨rfl, rfl⟩
  have hinit : (⟨w, .idle, fun _ => .idle⟩ : ReadSystem).Coherent s :=
    .init (hstart.1 ▸ hplaced) hstart.2
  have hcoherent : st.Coherent s := by
    rw [hst]
    exact hsafe.invariant (fun st ev h hsafe => h.step ev hsafe) hinit
  refine hcoherent.cached key r ?_ hcached
  rw [hidle]
  exact not_mem_nil

namespace CacheRaceExample

open PkSetsExample

/-- A restart after the users row 9 has been stored. -/
def restarted : WriteWorker :=
  { db := (fresh.step usersSchema createUser).db, namespaces := [([36], 0)], pkSets := [⟨0, 9⟩],
    lastCreatedAt := fun i => ((fresh.step usersSchema createUser).db.maxCreatedAt i).getD 0 }

lemma bootstrap_restarted :
    bootstrapRuntimeTableState usersSchema none (fresh.step usersSchema createUser).db
      [([36], 0)] = .ok restarted := rfl

def userKey : DocumentCacheKey := ⟨0, 0, 9⟩

/-- A reader compares the version before a transaction deletes the row, and fills the cache after. -/
def lateFill : List ReadEvent :=
  [.lookup 0 userKey, .advance 0, .advance 0, .advance 0,
    .transaction accepting false [.delete ⟨0, 9, 0, none, none⟩], .bumpVersion, .applyBatch,
    .advance 0]

/-- Both sides are at rest, the row is gone, and the cache has it. -/
theorem stale_record :
    WriteWorker.bootstrapRuntimeTableState usersSchema none (fresh.step usersSchema createUser).db
        [([36], 0)] = .ok restarted ∧
      (lateFill.foldl (ReadSystem.step usersSchema) ⟨restarted, .idle, fun _ => .idle⟩).phase = .idle ∧
      (∀ i, (lateFill.foldl (ReadSystem.step usersSchema)
        ⟨restarted, .idle, fun _ => .idle⟩).readers i = .idle) ∧
      (find eqKey userKey (lateFill.foldl (ReadSystem.step usersSchema)
        ⟨restarted, .idle, fun _ => .idle⟩).worker.documentCache).isSome ∧
      (lateFill.foldl (ReadSystem.step usersSchema)
        ⟨restarted, .idle, fun _ => .idle⟩).worker.db.select ⟨0, 9⟩ 0 = none := by
  refine ⟨rfl, rfl, fun i => ?_, by decide, by decide⟩
  cases i with
  | zero => rfl
  | succ i => rfl

/-- The reader fills the cache before the row is written again. -/
def earlyFill : List ReadEvent :=
  [.lookup 0 userKey, .advance 0, .advance 0, .advance 0, .advance 0,
    .transaction accepting false [.upsert ⟨0, 9, 0, 9, [], none, 6, none⟩], .bumpVersion, .applyBatch]

lemma placed_restarted : (fresh.step usersSchema createUser).db.Placed usersSchema := by
  intro key r t hr ht hn
  have hrow := mem_rows.mpr hr
  change (key, r) ∈ [((⟨0, 9⟩ : RowKey), (⟨0, 9, some (hexSlice 9), [], 5, 5⟩ : Row))] at hrow
  rw [mem_singleton, Prod.mk.injEq] at hrow
  rw [hrow.2]
  rfl

theorem documentCache_coherent_earlyFill :
    (earlyFill.foldl (ReadSystem.step usersSchema)
      ⟨restarted, .idle, fun _ => .idle⟩).worker.db.select ⟨0, 9⟩ 0 =
      some ⟨[.scalar (.docId 9), .scalar (.integer 0), .scalar (.docId 9), .scalar (.integer 5),
        .scalar (.integer 6)]⟩ := by
  have hsafe : Along (ReadSystem.step usersSchema) (ReadSystem.Safe usersSchema)
      ⟨restarted, .idle, fun _ => .idle⟩ earlyFill := by
    refine ⟨trivial, trivial, trivial, trivial, trivial, ?_, trivial, ?_, trivial⟩
    · -- an upsert overlooks nothing
      rintro ctx - k (hlate | ⟨⟨haffects, hne, _⟩, _⟩)
      · cases hlate
      · obtain ⟨t, guard, p, _, _, _, _, hk | ⟨hdelete, _⟩⟩ := haffects
        · exact hne (congrArg Prod.snd hk)
        · cases hdelete
    · intro i key r hr
      cases i with
      | zero => cases hr
      | succ i => cases hr
  have hcached : find eqKey userKey (earlyFill.foldl (ReadSystem.step usersSchema)
      ⟨restarted, .idle, fun _ => .idle⟩).worker.documentCache =
        some ⟨[.scalar (.docId 9), .scalar (.integer 0), .scalar (.docId 9), .scalar (.integer 5),
          .scalar (.integer 6)]⟩ := by decide
  exact documentCache_coherent usersSchema bootstrap_restarted placed_restarted earlyFill hsafe rfl
    rfl hcached

end CacheRaceExample
end ZyncBase
