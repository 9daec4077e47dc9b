import ZyncBase.Storage.WriteWorker

/-! Transactions of the write worker: flushes of queued operations, atomic batches, and the
resolution of sessions, which runs outside a transaction. -/
namespace ZyncBase

open AssocMap

section Run

variable (s : Schema) (sqlite : Sqlite)

/-- The table of an operation, with the namespace that rows of this table are kept in. -/
def resolveEntryTarget (tableIndex : ℕ) (namespaceId : ℤ) : Tx (Table × ℤ) := do
  let t ← requireTable s tableIndex
  return (t, if t.namespaced then namespaceId else globalNamespaceId)

def executeEntry : RowOp → Tx Bool
  | .upsert op => do
    let (t, namespaceId) ← resolveEntryTarget s op.tableIndex op.namespaceId
    executeUpsertEntry s sqlite op namespaceId t
  | .update op => do
    let (t, namespaceId) ← resolveEntryTarget s op.tableIndex op.namespaceId
    executeUpdateEntry s sqlite op namespaceId t
  | .delete op => do
    let (t, namespaceId) ← resolveEntryTarget s op.tableIndex op.namespaceId
    executeDeleteEntry s sqlite op namespaceId t

def reject (opIdx : ℕ) (ctx : BatchCtx) : BatchCtx :=
  { ctx with guardRejected := ctx.guardRejected ++ [opIdx] }

/-- An operation of a batch that fails is recorded by its index. -/
def executeOp (failFast : Bool) (opIdx : ℕ) (op : RowOp) : Tx Bool := fun ctx =>
  match executeEntry s sqlite op ctx with
  | .ok succeeded ctx => .ok succeeded ctx
  | .error e ctx => .error e (if failFast then reject opIdx ctx else ctx)

/-- A rejected guard ends a batch; a flush records it and goes on. -/
def guardOutcome (failFast : Bool) (opIdx : ℕ) (succeeded : Bool) : Tx Unit := fun ctx =>
  if succeeded then .ok () ctx
  else if failFast then .error .permissionDenied (reject opIdx ctx)
  else .ok () (reject opIdx ctx)

def runOps (failFast : Bool) : ℕ → List RowOp → Tx Unit
  | _, [] => pure ()
  | opIdx, op :: ops => do
    let succeeded ← executeOp s sqlite failFast opIdx op
    guardOutcome failFast opIdx succeeded
    runOps failFast (opIdx + 1) ops

end Run

def applyMutation (cache : List (DocumentCacheKey × Record)) : CacheOp → List (DocumentCacheKey × Record)
  | .update key data => put eqKey key data cache
  | .evict key => AssocMap.remove eqKey key cache

def applyPkMutation (pkSets : List RowKey) (m : PkMutation) : List RowKey :=
  match m.operation with
  | .insert => if m.key ∈ pkSets then pkSets else m.key :: pkSets
  | .delete => pkSets.filter (· ≠ m.key)

def Database.maxCreatedAt (db : Database) (tableIndex : ℕ) : Option ℤ :=
  ((db.rows.filter fun e => e.1.tableIndex = tableIndex).map fun e => e.2.createdAt).max?

namespace WriteWorker

def begin (w : WriteWorker) : BatchCtx := { self := w, db := w.db, lastCreatedAt := w.lastCreatedAt }

/-- `COMMIT`: the rows of the transaction become those that readers see. -/
def commit (ctx : BatchCtx) (w : WriteWorker) : WriteWorker :=
  { w with db := ctx.db, lastCreatedAt := ctx.lastCreatedAt }

def bumpVersion (w : WriteWorker) : WriteWorker := { w with version := w.version + 1 }

def applyDocumentCache (ctx : BatchCtx) (w : WriteWorker) : WriteWorker :=
  { w with documentCache := ctx.pendingCacheOps.foldl applyMutation w.documentCache }

def applyPkMutations (ctx : BatchCtx) (w : WriteWorker) : WriteWorker :=
  { w with pkSets := ctx.pkMutations.foldl applyPkMutation w.pkSets }

/-- Changes without a record at either end are dropped. -/
def flushPendingChanges (ctx : BatchCtx) (w : WriteWorker) : WriteWorker :=
  { w with
    changeQueue := w.changeQueue.map (· ++ ctx.pendingChanges.filter fun c =>
      c.oldRecord.isSome || c.newRecord.isSome) }

/-- What follows the commit inside the worker. -/
def applyCommitted (ctx : BatchCtx) (w : WriteWorker) : WriteWorker :=
  flushPendingChanges ctx (applyPkMutations ctx (applyDocumentCache ctx (bumpVersion w)))

/-- Creation times stay claimed when the transaction is rolled back. -/
def rollback (ctx : BatchCtx) (w : WriteWorker) : WriteWorker :=
  { w with lastCreatedAt := ctx.lastCreatedAt }

section Run

variable (s : Schema) (sqlite : Sqlite)

/-- How a transaction ends: committed with the context to apply, or rolled back with an error. -/
def tryTransaction (failFast : Bool) (ops : List RowOp) (w : WriteWorker) :
    EStateM.Result StorageError BatchCtx Unit :=
  match runOps s sqlite failFast 0 ops w.begin with
  | .error e ctx => .error e ctx
  | .ok _ ctx =>
    match sqlite.error ctx.db .commit with
    | some e => .error e ctx
    | none => .ok () ctx

def runTransaction (failFast : Bool) (ops : List RowOp) (w : WriteWorker) : WriteWorker :=
  match tryTransaction s sqlite failFast ops w with
  | .error _ ctx => w.rollback ctx
  | .ok _ ctx => (w.commit ctx).applyCommitted ctx

def flushBatch (ops : List RowOp) (w : WriteWorker) : WriteWorker :=
  runTransaction s sqlite false ops w

def executeBatchOp (entries : List RowOp) (w : WriteWorker) : WriteWorker :=
  runTransaction s sqlite true entries w

/-- The error reported for an operation of a flush. -/
def flushOutcome (ops : List RowOp) (w : WriteWorker) (opIdx : ℕ) : Option StorageError :=
  match tryTransaction s sqlite false ops w with
  | .error e _ => some e
  | .ok _ ctx => if opIdx ∈ ctx.guardRejected then some .permissionDenied else none

/-- The error reported for a batch, with the index of the entry that failed. -/
def batchOutcome (entries : List RowOp) (w : WriteWorker) : Option (StorageError × Option ℕ) :=
  match tryTransaction s sqlite true entries w with
  | .error e ctx => some (e, ctx.guardRejected.head?)
  | .ok _ _ => none

/-- The id of a namespace name, entered in the table when it is new. -/
def resolveNamespaceId (name : Bytes) (w : WriteWorker) : Except StorageError (WriteWorker × ℤ) :=
  match sqlite.error w.db (.resolveNamespace name) with
  | some e => .error e
  | none =>
    match find eqKey name w.namespaces with
    | some id => .ok (w, id)
    | none =>
      let id := (w.namespaces.map Prod.snd).foldl max 0 + 1
      .ok ({ w with namespaces := w.namespaces ++ [(name, id)] }, id)

/-- The users row of the identity, inserted under a new id when there is none. -/
def resolveUserId (t : Table) (namespaceId : ℤ) (externalId : Bytes) (newUserId : DocId)
    (createdAt : ℤ) (w : WriteWorker) : Except StorageError (WriteWorker × DocId) :=
  let key : RowKey := ⟨t.index, newUserId⟩
  let candidate := newRow t namespaceId newUserId (some externalId) [] createdAt
  match sqlite.error w.db (.resolveUser key candidate) with
  | some e => .error e
  | none =>
    match w.db.userRow t.index namespaceId externalId with
    | some key => .ok (w, key.id)
    | none =>
      if (w.db.row key).isSome then .error .constraintViolation
      else .ok ({ w with db := w.db.put key candidate }, newUserId)

/-- Claim a creation time outside a transaction. -/
def claimCreatedAt (tableIndex : ℕ) (candidateUs : ℤ) (w : WriteWorker) :
    Except StorageError (WriteWorker × ℤ) :=
  match claimNextCreatedAt (w.lastCreatedAt tableIndex) candidateUs with
  | .error e => .error e
  | .ok next =>
    .ok ({ w with lastCreatedAt := Function.update w.lastCreatedAt tableIndex next }, next)

def identityNamespaceId (t : Table) (namespaceId : ℤ) : ℤ :=
  if t.namespaced then namespaceId else globalNamespaceId

def resolveIdentity (sop : ResolveSessionOp) (newUserId : DocId) (t : Table) (namespaceId : ℤ)
    (w : WriteWorker) : WriteWorker :=
  let identityNs := identityNamespaceId t namespaceId
  match w.claimCreatedAt t.index sop.timestamp with
  | .error _ => w
  | .ok (w, createdAt) =>
    match w.resolveUserId sqlite t identityNs sop.externalUserId newUserId createdAt with
    | .error _ => w
    | .ok (w, uid) =>
      { w with identityCache := put eqKey (identityNs, sop.externalUserId) uid w.identityCache }

/-- A session resolution. Whatever it did before a failure remains. -/
def executeResolveSessionOp (sop : ResolveSessionOp) (newUserId : DocId) (w : WriteWorker) :
    WriteWorker :=
  match w.resolveNamespaceId sqlite sop.nspace with
  | .error _ => w
  | .ok (w, namespaceId) =>
    let w := { w with namespaceCache := put eqKey sop.nspace namespaceId w.namespaceCache }
    match s.table "users" with
    | none => w
    | some t => w.resolveIdentity sqlite sop newUserId t namespaceId

/-- The state at startup: every stored id is known, and creation times continue. -/
def bootstrapRuntimeTableState (changeQueue : Option (List OwnedRecordChange)) (db : Database)
    (namespaces : List (Bytes × ℤ)) : Except StorageError WriteWorker :=
  if s.tables.any fun t => (db.maxCreatedAt t.index).any fun last =>
      last < 0 || last > maxSafeTimestampUs then .error .invalidOperation
  else .ok
    { db, namespaces, changeQueue
      pkSets := db.rows.map Prod.fst
      lastCreatedAt := fun tableIndex => (db.maxCreatedAt tableIndex).getD 0 }

end Run
end WriteWorker

/-- What the worker does at a time, with SQLite's verdicts while it does it. -/
inductive WorkerStep where
  | flush (sqlite : Sqlite) (ops : List RowOp)
  | batch (sqlite : Sqlite) (entries : List RowOp)
  | resolveSession (sqlite : Sqlite) (newUserId : DocId) (sop : ResolveSessionOp)

def WriteWorker.step (s : Schema) (w : WriteWorker) : WorkerStep → WriteWorker
  | .flush sqlite ops => w.flushBatch s sqlite ops
  | .batch sqlite entries => w.executeBatchOp s sqlite entries
  | .resolveSession sqlite newUserId sop => w.executeResolveSessionOp s sqlite sop newUserId

namespace WriteWorker

/-- Runs of the worker whose steps all meet a condition, on the step and the state before it. -/
def Reaches (s : Schema) (cond : WriteWorker → WorkerStep → Prop) : WriteWorker → WriteWorker → Prop :=
  Relation.ReflTransGen fun w w' => ∃ st, cond w st ∧ w' = w.step s st

lemma Reaches.invariant {s : Schema} {cond : WriteWorker → WorkerStep → Prop} {w₀ w : WriteWorker}
    (h : Reaches s cond w₀ w) {I : WriteWorker → Prop} (h₀ : I w₀)
    (hstep : ∀ w st, I w → cond w st → I (w.step s st)) : I w := by
  induction h with
  | refl => exact h₀
  | tail _ hst ih =>
    obtain ⟨st, hc, rfl⟩ := hst
    exact hstep _ st ih hc

end WriteWorker
end ZyncBase
