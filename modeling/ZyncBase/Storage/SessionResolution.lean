import ZyncBase.Storage.Transaction

/-! What the resolution of a session does to the worker, case by case. -/
namespace ZyncBase

open AssocMap

namespace WriteWorker

variable {s : Schema} {sqlite : Sqlite} {sop : ResolveSessionOp} {newUserId : DocId}
  {w w' : WriteWorker} {t : Table} {namespaceId : ℤ}

/-- The part of the worker that no session resolution touches. -/
structure SameStores (w w' : WriteWorker) : Prop where
  pkSets : w'.pkSets = w.pkSets
  documentCache : w'.documentCache = w.documentCache
  changeQueue : w'.changeQueue = w.changeQueue
  version : w'.version = w.version

def newUserRow (sop : ResolveSessionOp) (newUserId : DocId) (t : Table) (namespaceId createdAt : ℤ) :
    Row :=
  newRow t (identityNamespaceId t namespaceId) newUserId (some sop.externalUserId) [] createdAt

/-- The resolution inserts a users row: the identity has none, and SQLite accepts the row. -/
structure Inserts (w : WriteWorker) (sqlite : Sqlite) (sop : ResolveSessionOp) (newUserId : DocId)
    (t : Table) (namespaceId createdAt : ℤ) : Prop where
  claimed : claimNextCreatedAt (w.lastCreatedAt t.index) sop.timestamp = .ok createdAt
  accepted : sqlite.error w.db (.resolveUser ⟨t.index, newUserId⟩
    (newUserRow sop newUserId t namespaceId createdAt)) = none
  unknown : w.db.userRow t.index (identityNamespaceId t namespaceId) sop.externalUserId = none
  fresh : w.db.row ⟨t.index, newUserId⟩ = none

/-- The namespaces after entering a name that may be new. -/
structure Entered (name : Bytes) (namespaceId : ℤ) (before after : List (Bytes × ℤ)) : Prop where
  find : find eqKey name after = some namespaceId
  kept : ∀ n id, AssocMap.find eqKey n before = some id → AssocMap.find eqKey n after = some id

lemma find_append (n : Bytes) (m m' : List (Bytes × ℤ)) :
    find eqKey n (m ++ m') = (find eqKey n m).or (find eqKey n m') := by
  induction m with
  | nil => rfl
  | cons e es ih =>
    rw [List.cons_append, find, find]
    split_ifs
    · rfl
    · exact ih

lemma resolveNamespaceId_eq_ok {name : Bytes} (h : w.resolveNamespaceId sqlite name = .ok (w', namespaceId)) :
    ∃ nss, w' = { w with namespaces := nss } ∧ Entered name namespaceId w.namespaces nss := by
  unfold resolveNamespaceId at h
  split at h
  · cases h
  · cases hf : find eqKey name w.namespaces with
    | some id =>
      rw [hf] at h
      cases h
      exact ⟨w.namespaces, rfl, hf, fun _ _ h => h⟩
    | none =>
      rw [hf] at h
      cases h
      refine ⟨_, rfl, ?_, fun n id hn => ?_⟩
      · simp [find_append, hf, AssocMap.find]
      · simp [find_append, hn]

/-- How a resolution leaves the rows and the identity cache. -/
inductive Resolved (sqlite : Sqlite) (sop : ResolveSessionOp) (newUserId : DocId) (t : Table)
    (namespaceId : ℤ) (w w' : WriteWorker) : Prop where
  | failed (hdb : w'.db = w.db) (hcache : w'.identityCache = w.identityCache)
  | known (key : RowKey) (hdb : w'.db = w.db)
    (hrow : w.db.userRow t.index (identityNamespaceId t namespaceId) sop.externalUserId = some key)
    (hcache : w'.identityCache =
      put eqKey (identityNamespaceId t namespaceId, sop.externalUserId) key.id w.identityCache)
  | inserted (createdAt : ℤ) (hinserts : w.Inserts sqlite sop newUserId t namespaceId createdAt)
    (hdb : w'.db =
      w.db.put ⟨t.index, newUserId⟩ (newUserRow sop newUserId t namespaceId createdAt))
    (hcache : w'.identityCache =
      put eqKey (identityNamespaceId t namespaceId, sop.externalUserId) newUserId w.identityCache)

lemma resolveIdentity_cases (sqlite : Sqlite) (sop : ResolveSessionOp) (newUserId : DocId)
    (t : Table) (namespaceId : ℤ) (w : WriteWorker) :
    Resolved sqlite sop newUserId t namespaceId w (w.resolveIdentity sqlite sop newUserId t namespaceId) ∧
      SameStores w (w.resolveIdentity sqlite sop newUserId t namespaceId) ∧
      (w.resolveIdentity sqlite sop newUserId t namespaceId).namespaces = w.namespaces ∧
      (w.resolveIdentity sqlite sop newUserId t namespaceId).namespaceCache = w.namespaceCache := by
  unfold resolveIdentity claimCreatedAt
  cases hclaim : claimNextCreatedAt (w.lastCreatedAt t.index) sop.timestamp with
  | error e => exact ⟨.failed rfl rfl, ⟨rfl, rfl, rfl, rfl⟩, rfl, rfl⟩
  | ok createdAt =>
    dsimp only
    unfold resolveUserId
    dsimp only
    cases herr : sqlite.error w.db (.resolveUser ⟨t.index, newUserId⟩
        (newUserRow sop newUserId t namespaceId createdAt)) with
    | some e =>
      rw [newUserRow] at herr
      rw [herr]
      exact ⟨.failed rfl rfl, ⟨rfl, rfl, rfl, rfl⟩, rfl, rfl⟩
    | none =>
      have haccepted := herr
      rw [newUserRow] at herr
      rw [herr]
      cases hrow : w.db.userRow t.index (identityNamespaceId t namespaceId) sop.externalUserId with
      | some key => exact ⟨.known key rfl hrow rfl, ⟨rfl, rfl, rfl, rfl⟩, rfl, rfl⟩
      | none =>
        dsimp only
        cases hfresh : w.db.row ⟨t.index, newUserId⟩ with
        | some r => exact ⟨.failed rfl rfl, ⟨rfl, rfl, rfl, rfl⟩, rfl, rfl⟩
        | none =>
          exact ⟨.inserted createdAt ⟨hclaim, haccepted, hrow, hfresh⟩ rfl rfl, ⟨rfl, rfl, rfl, rfl⟩, rfl, rfl⟩

/-- Everything that a session resolution may do. -/
inductive SessionResolved (s : Schema) (sqlite : Sqlite) (sop : ResolveSessionOp)
    (newUserId : DocId) (w w' : WriteWorker) : Prop where
  | refused (h : w' = w)
  | resolved (namespaceId : ℤ)
    (accepted : (w.resolveNamespaceId sqlite sop.nspace).map Prod.snd = .ok namespaceId)
    (entered : Entered sop.nspace namespaceId w.namespaces w'.namespaces)
    (cached : w'.namespaceCache = put eqKey sop.nspace namespaceId w.namespaceCache)
    (identity : w'.db = w.db ∧ w'.identityCache = w.identityCache ∨
      ∃ t, s.table "users" = some t ∧ Resolved sqlite sop newUserId t namespaceId w w')

lemma executeResolveSessionOp_cases (s : Schema) (sqlite : Sqlite) (sop : ResolveSessionOp)
    (newUserId : DocId) (w : WriteWorker) :
    SameStores w (w.executeResolveSessionOp s sqlite sop newUserId) ∧
      SessionResolved s sqlite sop newUserId w (w.executeResolveSessionOp s sqlite sop newUserId) := by
  unfold executeResolveSessionOp
  cases hns : w.resolveNamespaceId sqlite sop.nspace with
  | error e => exact ⟨⟨rfl, rfl, rfl, rfl⟩, .refused rfl⟩
  | ok p =>
    obtain ⟨w₁, namespaceId⟩ := p
    obtain ⟨nss, rfl, hentered⟩ := resolveNamespaceId_eq_ok hns
    dsimp only
    cases ht : s.table "users" with
    | none =>
      exact ⟨⟨rfl, rfl, rfl, rfl⟩, .resolved namespaceId (by rw [hns]; rfl) hentered rfl (.inl ⟨rfl, rfl⟩)⟩
    | some t =>
      dsimp only
      obtain ⟨hres, hstores, hnss, hcache⟩ := resolveIdentity_cases sqlite sop newUserId t namespaceId
        { w with
          namespaces := nss, namespaceCache := put eqKey sop.nspace namespaceId w.namespaceCache }
      refine ⟨⟨hstores.pkSets, hstores.documentCache, hstores.changeQueue, hstores.version⟩,
        .resolved namespaceId (by rw [hns]; rfl) (hnss ▸ hentered) hcache (.inr ⟨t, ht, ?_⟩)⟩
      cases hres with
      | failed hdb hc => exact .failed hdb hc
      | known key hdb hrow hc => exact .known key hdb hrow hc
      | inserted createdAt hi hdb hc =>
        exact .inserted createdAt ⟨hi.claimed, hi.accepted, hi.unknown, hi.fresh⟩ hdb hc

lemma db_resolveSession_cases (s : Schema) (sqlite : Sqlite) (sop : ResolveSessionOp)
    (newUserId : DocId) (w : WriteWorker) :
    (w.executeResolveSessionOp s sqlite sop newUserId).db = w.db ∨
      ∃ t namespaceId createdAt, s.table "users" = some t ∧ w.db.row ⟨t.index, newUserId⟩ = none ∧
        (w.executeResolveSessionOp s sqlite sop newUserId).db =
          w.db.put ⟨t.index, newUserId⟩ (newUserRow sop newUserId t namespaceId createdAt) := by
  cases (executeResolveSessionOp_cases s sqlite sop newUserId w).2 with
  | refused he => exact .inl (by rw [he])
  | resolved namespaceId accepted entered cached identity =>
    cases identity with
    | inl hsame => exact .inl hsame.1
    | inr hres =>
      obtain ⟨t, ht, hr⟩ := hres
      cases hr with
      | failed hdb _ => exact .inl hdb
      | known _ hdb _ _ => exact .inl hdb
      | inserted createdAt hi hdb _ =>
        exact .inr ⟨t, namespaceId, createdAt, ht, hi.fresh, hdb⟩

end WriteWorker

/-- The step inserts a users row: a session resolution of an identity that has none. -/
def WorkerStep.InsertsUser (s : Schema) (w : WriteWorker) : WorkerStep → Prop
  | .resolveSession sqlite newUserId sop => ∃ namespaceId t createdAt,
      (w.resolveNamespaceId sqlite sop.nspace).map Prod.snd = .ok namespaceId ∧
        s.table "users" = some t ∧ w.Inserts sqlite sop newUserId t namespaceId createdAt
  | _ => False

lemma WriteWorker.db_resolveSession {s : Schema} {sqlite : Sqlite} {sop : ResolveSessionOp}
    {newUserId : DocId} {w : WriteWorker}
    (hn : ¬ (WorkerStep.resolveSession sqlite newUserId sop).InsertsUser s w) :
    (w.executeResolveSessionOp s sqlite sop newUserId).db = w.db := by
  cases (executeResolveSessionOp_cases s sqlite sop newUserId w).2 with
  | refused he => rw [he]
  | resolved namespaceId accepted entered cached identity =>
    rcases identity with ⟨hdb, _⟩ | ⟨t, ht, hr⟩
    · exact hdb
    · cases hr with
      | failed hdb _ => exact hdb
      | known _ hdb _ _ => exact hdb
      | inserted createdAt hi _ _ => exact absurd ⟨namespaceId, t, createdAt, accepted, ht, hi⟩ hn

end ZyncBase
