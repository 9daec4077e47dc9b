import ZyncBase.Storage.PkSets

/-! The identity cache answers which users row belongs to an external id. It is filled when a
session is resolved and never evicted, so it is coherent as long as no cached users row is
deleted. -/
namespace ZyncBase

open AssocMap Database Outcome WriteWorker

inductive ScopeError where
  | invalidMessageFormat | unknownTable
  deriving DecidableEq, Repr

structure Scope where
  namespaceId : ℤ
  userDocId : DocId
  deriving DecidableEq, Repr

namespace WriteWorker

variable {s : Schema} {sqlite : Sqlite} {w : WriteWorker}

def cachedNamespaceId (w : WriteWorker) (nspace : Bytes) : Option ℤ :=
  find eqKey nspace w.namespaceCache

def cachedUserId (w : WriteWorker) (identityNs : ℤ) (externalUserId : Bytes) : Option DocId :=
  find eqKey (identityNs, externalUserId) w.identityCache

/-- The scope of a session from the caches alone; without it the session has to be resolved. -/
def tryResolveScopeCached (s : Schema) (w : WriteWorker) (nspace externalUserId : Bytes) :
    Except ScopeError (Option Scope) :=
  if nspace = [] then .error .invalidMessageFormat
  else if externalUserId = [] then .error .invalidMessageFormat
  else match w.cachedNamespaceId nspace with
    | none => .ok none
    | some namespaceId =>
      match s.table "users" with
      | none => .error .unknownTable
      | some t =>
        match w.cachedUserId (identityNamespaceId t namespaceId) externalUserId with
        | none => .ok none
        | some userDocId => .ok (some ⟨namespaceId, userDocId⟩)

def HasUser (db : Database) (t : Table) (identityNs : ℤ) (externalId : Bytes) (uid : DocId) :
    Prop :=
  ∃ r, db.row ⟨t.index, uid⟩ = some r ∧ r.namespaceId = identityNs ∧ r.externalId = some externalId

def IdentitiesStored (s : Schema) (identityCache : List ((ℤ × Bytes) × DocId)) (db : Database) :
    Prop :=
  ∀ t, s.table "users" = some t → ∀ identityNs externalId uid,
    find eqKey (identityNs, externalId) identityCache = some uid → HasUser db t identityNs externalId uid

/-- The caches agree with what is stored. -/
structure CachesCoherent (s : Schema) (w : WriteWorker) : Prop where
  identities : IdentitiesStored s w.identityCache w.db
  namespaces : ∀ n id, find eqKey n w.namespaceCache = some id → find eqKey n w.namespaces = some id

def CachedUser (s : Schema) (w : WriteWorker) (key : RowKey) : Prop :=
  ∃ t identityNs externalId uid, s.table "users" = some t ∧
    find eqKey (identityNs, externalId) w.identityCache = some uid ∧ key = ⟨t.index, uid⟩

end WriteWorker

/-- No operation, executed where the ones before it left the rows, deletes a row of these keys. -/
def KeepsRows (s : Schema) (sqlite : Sqlite) (keys : RowKey → Prop) (failFast : Bool)
    (ops : List RowOp) (ctx : BatchCtx) : Prop :=
  ∀ pre op post c t guard key, ops = pre ++ op :: post →
    runOps s sqlite failFast 0 pre ctx = .ok () c → s.tableByIndex op.target.tableIndex = some t →
      renderAndClause t op.guardPredicate = .ok guard → keys key → ¬ op.Deletes s sqlite.enc t guard c.db key

/-- The step commits a transaction in which an operation deletes a users row whose identity is
cached. -/
def WorkerStep.DeletesCachedUser (s : Schema) (w : WriteWorker) : WorkerStep → Prop
  | .flush sqlite ops => (∃ ctx, w.tryTransaction s sqlite false ops = .ok () ctx) ∧
      ¬ KeepsRows s sqlite (w.CachedUser s) false ops w.begin
  | .batch sqlite entries => (∃ ctx, w.tryTransaction s sqlite true entries = .ok () ctx) ∧
      ¬ KeepsRows s sqlite (w.CachedUser s) true entries w.begin
  | .resolveSession _ _ _ => False

section Run

variable {s : Schema} {sqlite : Sqlite} {w : WriteWorker} {ctx : BatchCtx} {failFast : Bool}

lemma IdentitiesStored.runOps {ops : List RowOp} {u : Unit}
    (h : IdentitiesStored s w.identityCache w.db)
    (hr : ZyncBase.runOps s sqlite failFast 0 ops w.begin = .ok u ctx)
    (hkept : KeepsRows s sqlite (w.CachedUser s) failFast ops w.begin) :
    IdentitiesStored s w.identityCache ctx.db := by
  induction ops using List.reverseRecOn generalizing ctx u with
  | nil =>
    obtain ⟨_, rfl⟩ := run_pure_eq_ok.mp hr
    exact h
  | append_singleton pre op ih =>
    obtain ⟨c, c₁, b, hpre, hop, hguard⟩ := runOps_concat.mp hr
    have hbefore : IdentitiesStored s w.identityCache c.db := by
      refine ih hpre fun pre' op' post c' t guard key he => ?_
      exact hkept pre' op' (post ++ [op]) c' t guard key (by rw [he]; simp)
    obtain ⟨t, guard, p, ht, hg, hperforms, hdb, _⟩ := executeEntry_performs (executeOp_eq_ok hop)
    intro users husers identityNs externalId uid hfind
    obtain ⟨r, hrow, hns, hext⟩ := hbefore users husers identityNs externalId uid hfind
    obtain ⟨r', hrow', hns', hext'⟩ := hperforms.kept hrow
      (hkept pre op [] c t guard _ rfl hpre ht hg ⟨users, identityNs, externalId, uid, husers, hfind, rfl⟩)
    rw [guardOutcome_db hguard, hdb]
    exact ⟨r', hrow', hns'.trans hns, hext'.trans hext⟩

end Run

namespace WriteWorker

variable {s : Schema} {sqlite : Sqlite} {w w' : WriteWorker}

lemma CachesCoherent.runTransaction {failFast : Bool} {ops : List RowOp} (h : w.CachesCoherent s)
    (hkept : ¬ ((∃ ctx, w.tryTransaction s sqlite failFast ops = .ok () ctx) ∧
      ¬ KeepsRows s sqlite (w.CachedUser s) failFast ops w.begin)) :
    (w.runTransaction s sqlite failFast ops).CachesCoherent s := by
  unfold WriteWorker.runTransaction
  cases ht : w.tryTransaction s sqlite failFast ops with
  | error e ctx => exact ⟨h.identities, h.namespaces⟩
  | ok u ctx =>
    have hkeeps := not_not.mp fun hn => hkept ⟨⟨ctx, ht⟩, hn⟩
    have hids := IdentitiesStored.runOps h.identities (tryTransaction_eq_ok ht) hkeeps
    exact ⟨hids, h.namespaces⟩

lemma hasUser_of_userRow {db : Database} {t : Table} {identityNs : ℤ} {externalId : Bytes}
    {key : RowKey} (h : db.userRow t.index identityNs externalId = some key) :
    HasUser db t identityNs externalId key.id := by
  unfold Database.userRow at h
  obtain ⟨⟨k, r⟩, hfind, rfl⟩ := Option.map_eq_some_iff.mp h
  have htest := List.find?_some hfind
  simp only [Bool.and_eq_true, decide_eq_true_eq] at htest
  obtain ⟨⟨hindex, hns⟩, hext⟩ := htest
  refine ⟨r, ?_, hns, hext⟩
  rw [← hindex]
  exact mem_rows.mp (List.mem_of_find?_eq_some hfind)

lemma IdentitiesStored.put {cache : List ((ℤ × Bytes) × DocId)} {db db' : Database} {t : Table}
    {identityNs : ℤ} {externalId : Bytes} {uid : DocId} (h : IdentitiesStored s cache db)
    (ht : s.table "users" = some t) (hnew : HasUser db' t identityNs externalId uid)
    (hold : ∀ key r, db.row key = some r → db'.row key = some r) :
    IdentitiesStored s (AssocMap.put eqKey (identityNs, externalId) uid cache) db' := by
  intro t' ht' ns' ext' uid' hfind
  rw [ht] at ht'
  cases ht'
  simp only [find_put, eqKey_iff] at hfind
  split_ifs at hfind with hk
  · cases hk
    cases hfind
    exact hnew
  · obtain ⟨r, hr, hrest⟩ := h t ht ns' ext' uid' hfind
    exact ⟨r, hold _ r hr, hrest⟩

lemma CachesCoherent.resolveSession {sop : ResolveSessionOp} {newUserId : DocId} (h : w.CachesCoherent s) :
    (w.executeResolveSessionOp s sqlite sop newUserId).CachesCoherent s := by
  obtain ⟨_, hres⟩ := executeResolveSessionOp_cases s sqlite sop newUserId w
  cases hres with
  | refused he =>
    rw [he]
    exact h
  | resolved namespaceId accepted entered cached identity =>
    refine ⟨?_, fun n id hn => ?_⟩
    · rcases identity with ⟨hdb, hcache⟩ | ⟨t, ht, hr⟩
      · rw [hdb, hcache]
        exact h.identities
      · cases hr with
        | failed hdb hcache =>
          rw [hdb, hcache]
          exact h.identities
        | known key hdb hrow hcache =>
          rw [hdb, hcache]
          exact h.identities.put ht (hasUser_of_userRow hrow) fun _ _ hr => hr
        | inserted createdAt hi hdb hcache =>
          rw [hdb, hcache]
          refine h.identities.put ht ⟨_, by rw [row_put, if_pos rfl], rfl, rfl⟩ ?_
          intro key r hr
          rw [row_put, if_neg]
          · exact hr
          · rintro rfl
            rw [hi.fresh] at hr
            cases hr
    · simp only [cached, find_put, eqKey_iff] at hn
      split_ifs at hn with hk
      · subst hk
        cases hn
        exact entered.find
      · exact entered.kept n id (h.namespaces n id hn)

lemma CachesCoherent.step {st : WorkerStep} (h : w.CachesCoherent s)
    (hn : ¬ st.DeletesCachedUser s w) : (w.step s st).CachesCoherent s := by
  cases st with
  | flush sqlite ops => exact h.runTransaction hn
  | batch sqlite entries => exact h.runTransaction hn
  | resolveSession sqlite newUserId sop => exact h.resolveSession

lemma cachesCoherent_of_bootstrap {changeQueue : Option (List OwnedRecordChange)} {db : Database}
    {namespaces : List (Bytes × ℤ)}
    (h : bootstrapRuntimeTableState s changeQueue db namespaces = .ok w) : w.CachesCoherent s := by
  unfold bootstrapRuntimeTableState at h
  split_ifs at h
  cases h
  exact ⟨fun _ _ _ _ _ h => by simp at h, fun _ _ h => by simp at h⟩

lemma CachesCoherent.scope {nspace externalUserId : Bytes} {scope : Scope} (h : w.CachesCoherent s)
    (hc : w.tryResolveScopeCached s nspace externalUserId = .ok (some scope)) :
    find eqKey nspace w.namespaces = some scope.namespaceId ∧ ∃ t, s.table "users" = some t ∧
      HasUser w.db t (identityNamespaceId t scope.namespaceId) externalUserId scope.userDocId := by
  unfold tryResolveScopeCached at hc
  split_ifs at hc
  cases hns : w.cachedNamespaceId nspace with
  | none => simp [hns] at hc
  | some namespaceId =>
    cases ht : s.table "users" with
    | none => simp [hns, ht] at hc
    | some t =>
      cases huid : w.cachedUserId (identityNamespaceId t namespaceId) externalUserId with
      | none => simp [hns, ht, huid] at hc
      | some uid =>
        simp only [hns, ht, huid, Except.ok.injEq, Option.some.injEq] at hc
        subst hc
        exact ⟨h.namespaces _ _ hns, t, rfl, h.identities t ht _ _ _ huid⟩

end WriteWorker

/-- In every run from startup in which no committed operation deletes a users row whose identity is
cached, every entry of the identity cache is a users row with that namespace and external id, and so
is every user that a session resolved from the caches gets. -/
theorem identityCache_coherent {s : Schema} {changeQueue : Option (List OwnedRecordChange)}
    {db : Database} {namespaces : List (Bytes × ℤ)} {w₀ w : WriteWorker}
    (hboot : bootstrapRuntimeTableState s changeQueue db namespaces = .ok w₀)
    (hrun : Reaches s (fun w st => ¬ st.DeletesCachedUser s w) w₀ w) :
    (∀ t, s.table "users" = some t → ∀ identityNs externalId uid,
      find eqKey (identityNs, externalId) w.identityCache = some uid →
        ∃ r, w.db.row ⟨t.index, uid⟩ = some r ∧ r.namespaceId = identityNs ∧
          r.externalId = some externalId) ∧
      ∀ nspace externalUserId scope, w.tryResolveScopeCached s nspace externalUserId = .ok (some scope) →
          find eqKey nspace w.namespaces = some scope.namespaceId ∧
            ∃ t r, s.table "users" = some t ∧ w.db.row ⟨t.index, scope.userDocId⟩ = some r ∧
              r.namespaceId = identityNamespaceId t scope.namespaceId ∧
              r.externalId = some externalUserId := by
  have hcoherent : w.CachesCoherent s := hrun.invariant
    (cachesCoherent_of_bootstrap hboot) fun w st hw hn => hw.step hn
  refine ⟨hcoherent.identities, fun nspace externalUserId scope hc => ?_⟩
  obtain ⟨hns, t, ht, r, hrow⟩ := hcoherent.scope hc
  exact ⟨hns, t, r, ht, hrow⟩

namespace IdentityCacheExample

open PkSetsExample

/-- The user signs in, and a client then deletes the users row. -/
def deleteUser : WorkerStep := .flush accepting [.delete ⟨0, 7, 0, none, none⟩]

/-- The deleted user is still found in the cache. -/
theorem deleted_user_cached :
    bootstrapRuntimeTableState usersSchema none {} [([36], 0)] = .ok fresh ∧
      ((fresh.step usersSchema signIn).step usersSchema deleteUser).tryResolveScopeCached
        usersSchema [112] [97] = .ok (some ⟨1, 7⟩) ∧
      ((fresh.step usersSchema signIn).step usersSchema deleteUser).db.row ⟨0, 7⟩ = none :=
  ⟨rfl, rfl, by decide⟩

def users : WriteWorker := [signIn, createUsers, removeUser].foldl (step usersSchema) fresh

lemma createUsers_keeps_cached (w : WriteWorker) : ¬ createUsers.DeletesCachedUser usersSchema w := by
  rintro ⟨-, hkeeps⟩
  refine hkeeps fun pre op post c t guard key hops _ _ _ _ hdeletes => ?_
  have hmem : op ∈ pre ++ op :: post := by simp
  rw [← hops] at hmem
  rcases List.mem_pair.mp hmem with rfl | rfl
  · exact hdeletes
  · exact hdeletes

/-- The user who is deleted has not signed in. -/
lemma removeUser_keeps_cached :
    ¬ removeUser.DeletesCachedUser usersSchema ((fresh.step usersSchema signIn).step usersSchema createUsers) := by
  rintro ⟨-, hkeeps⟩
  refine hkeeps fun pre op post c t guard key hops hrun _ _ hcached hdeletes => ?_
  obtain ⟨rfl, rfl, rfl⟩ : pre = [] ∧ op = .delete ⟨0, 11, 0, none, none⟩ ∧ post = [] := by
    simpa [List.append_eq_cons_iff, eq_comm] using hops
  cases hrun
  obtain ⟨t', identityNs, externalId, uid, ht, hfind, rfl⟩ := hcached
  cases ht
  change find eqKey (identityNs, externalId) [((0, [97]), 7)] = some uid at hfind
  rw [find] at hfind
  split_ifs at hfind
  · cases hfind
    obtain ⟨_, -, -, -, hcascades⟩ := hdeletes
    exact absurd hcascades (by decide)
  · cases hfind

theorem identityCache_coherent_users :
    (∀ t, usersSchema.table "users" = some t → ∀ identityNs externalId uid,
      find eqKey (identityNs, externalId) users.identityCache = some uid →
        ∃ r, users.db.row ⟨t.index, uid⟩ = some r ∧ r.namespaceId = identityNs ∧
          r.externalId = some externalId) ∧
      ∀ nspace externalUserId scope,
        users.tryResolveScopeCached usersSchema nspace externalUserId = .ok (some scope) →
          find eqKey nspace users.namespaces = some scope.namespaceId ∧
            ∃ t r, usersSchema.table "users" = some t ∧ users.db.row ⟨t.index, scope.userDocId⟩ = some r ∧
              r.namespaceId = identityNamespaceId t scope.namespaceId ∧
              r.externalId = some externalUserId :=
  identityCache_coherent bootstrap_fresh (((Relation.ReflTransGen.single ⟨signIn, nofun, rfl⟩).tail
    ⟨createUsers, createUsers_keeps_cached _, rfl⟩).tail ⟨removeUser, removeUser_keeps_cached, rfl⟩)

end IdentityCacheExample
end ZyncBase
