import ZyncBase.Authorization.GuardOperands
import ZyncBase.Storage.Acknowledged
import ZyncBase.Storage.PendingChanges
import ZyncBase.Subscription.Matching

/-! The namespace that a subscription is registered under, the one that its read is bound to and
the one that changes are announced under, with their records. -/
namespace ZyncBase

open AssocMap Outcome WriteWorker SubscriptionEngine DocPredicate

section Announced

/-- Both records of a change, as far as they are there. -/
def OwnedRecordChange.Records (P : ℤ → RowKey → Record → Prop) (c : OwnedRecordChange) : Prop :=
  ∀ r, c.oldRecord = some r ∨ c.newRecord = some r → P c.namespaceId c.key r

def RowEffect.Records (P : ℤ → RowKey → Record → Prop) (e : RowEffect) : Prop :=
  ∀ r, e.oldRecord = some r ∨ e.newRecord = some r → P e.namespaceId e.key r

section Accumulate

variable {P : ℤ → RowKey → Record → Prop}

lemma records_accumulate {changes : List OwnedRecordChange} {e : RowEffect}
    (hc : ∀ c ∈ changes, c.Records P) (he : e.Records P) : ∀ c ∈ e.accumulate changes, c.Records P := by
  unfold RowEffect.accumulate
  induction changes with
  | nil =>
    rw [accumulateOwnedChange, List.forall_mem_singleton]
    exact he
  | cons c cs ih =>
    rw [List.forall_mem_cons] at hc
    rw [accumulateOwnedChange]
    split_ifs with hk
    · rw [List.forall_mem_cons]
      refine ⟨fun r hr => ?_, hc.2⟩
      cases hr with
      | inl hr => exact hc.1 r (.inl hr)
      | inr hr =>
        change P c.namespaceId c.key r
        rw [hk.1, hk.2]
        exact he r (.inr hr)
    · rw [List.forall_mem_cons]
      exact ⟨hc.1, ih hc.2⟩

lemma records_foldl {es : List RowEffect} {changes : List OwnedRecordChange}
    (hc : ∀ c ∈ changes, c.Records P) (he : ∀ e ∈ es, e.Records P) :
    ∀ c ∈ es.foldl RowEffect.accumulate changes, c.Records P := by
  induction es generalizing changes with
  | nil => exact hc
  | cons e es ih =>
    rw [List.forall_mem_cons] at he
    exact ih (records_accumulate hc he.1) he.2

lemma Tracked.records {s : Schema} {ctx ctx' : BatchCtx} {es : List RowEffect}
    (h : Tracked s ctx ctx' es) (hc : ∀ c ∈ ctx.pendingChanges, c.Records P)
    (he : ∀ e ∈ es, e.Records P) : ∀ c ∈ ctx'.pendingChanges, c.Records P := by
  rw [h.changes]
  split_ifs
  · exact records_foldl hc he
  · exact hc

end Accumulate

def Record.Fits (s : Schema) (key : RowKey) (r : Record) : Prop :=
  ∃ t, s.tableByIndex key.tableIndex = some t ∧ r.values.length = t.fields.length ∧
    r.values[idFieldIndex]? = some (.scalar (.docId key.id))

end Announced

inductive SubscribeFailure where
  | invalidMessageFormat | missingRequiredFields | unknownTable
  | authorization (e : DocPredicateError)
  | parser (e : ParserError)
  | engine (e : SubscribeError)
  deriving DecidableEq, Repr

/-- The session that a request is handled for. -/
structure RequestContext where
  connId : ℕ
  storeNamespaceId : ℤ

structure ReadRequest where
  connId : ℕ
  tableIndex : ℕ
  namespaceId : ℤ
  filter : QueryFilter
  subId : Option ℕ

section Handler

-- Decoding of cursor tokens, and the read rule that the configuration has for the table.
variable (decodeToken : Bytes → Option Payload) (s : Schema) (readRule : AuthCondition) (evalCtx : EvalContext)

def extractTableIndex : Payload → Except SubscribeFailure ℕ
  | .map entries =>
    match entries.find? fun e => match e.1 with
      | .str key => key = asciiBytes "table_index"
      | _ => false with
    | some (_, .uint v) => .ok v
    | some _ => .error .invalidMessageFormat
    | none => .error .missingRequiredFields
  | _ => .error .invalidMessageFormat

def mergeGuard (filter : QueryFilter) : Option FilterPredicate → QueryFilter
  | none => filter
  | some guard => { filter with predicate := filter.predicate.mergeInPlace guard }

/-- The read of a query or subscription: authorized, parsed and restricted by the guard. -/
def prepareQueryRead (ctx : RequestContext) (tableIndex : ℕ) (parsed : Payload)
    (subId : Option ℕ) : Except SubscribeFailure ReadRequest :=
  match s.tableByIndex tableIndex with
  | none => .error .unknownTable
  | some t =>
    match buildDocPredicate readRule evalCtx t with
    | .error e => .error (.authorization e)
    | .ok guard =>
      match parseQueryFilter decodeToken s tableIndex parsed with
      | .error e => .error (.parser e)
      | .ok filter =>
        .ok ⟨ctx.connId, tableIndex, ctx.storeNamespaceId, mergeGuard filter guard, subId⟩

def handleStoreSubscribe (e : SubscriptionEngine) (ctx : RequestContext) (parsed : Payload)
    (subId : ℕ) : Except SubscribeFailure (SubscriptionEngine × ReadRequest) := do
  let tableIndex ← extractTableIndex parsed
  let req ← prepareQueryRead decodeToken s readRule evalCtx ctx tableIndex parsed (some subId)
  match e.subscribe ⟨ctx.storeNamespaceId, tableIndex⟩ req.filter ⟨ctx.connId, subId⟩ with
  | .error err => throw (.engine err)
  | .ok e => return (e, req)

end Handler

namespace ReadRequest

/-- The namespace that the read worker binds. -/
def effectiveNamespaceId (t : Table) (req : ReadRequest) : ℤ :=
  if t.namespaced then req.namespaceId else globalNamespaceId

/-- The row is in the table and the namespace of the read; its filter decides about the rest. -/
def CanRead (t : Table) (req : ReadRequest) (key : RowKey) (r : Option Record) : Prop :=
  key.tableIndex = req.tableIndex ∧ ∃ v, r = some v ∧
    v.values[1]? = some (.scalar (.integer (req.effectiveNamespaceId t)))

end ReadRequest

/-- The change as the subscription engine is told about it. -/
def OwnedRecordChange.recordChange (c : OwnedRecordChange) : RecordChange :=
  ⟨c.namespaceId, c.key.tableIndex, c.newRecord, c.oldRecord⟩

def SubscriptionEngine.collectionOf (e : SubscriptionEngine) (key : SubscriberKey) : Option CollectionKey :=
  ((e.active key).bind e.keys).map CollectionFilterKey.collection

section Registered

variable {decodeToken : Bytes → Option Payload} {s : Schema} {readRule : AuthCondition}
  {evalCtx : EvalContext} {ctx : RequestContext} {tableIndex : ℕ} {parsed : Payload}
  {req : ReadRequest}

/-- A filter of a read that was accepted under a read rule that the configuration check accepts. -/
def AcceptedFilter (filter : QueryFilter) : Prop :=
  ∃ decodeToken s readRule evalCtx ctx tableIndex parsed subId req t,
    s.tableByIndex tableIndex = some t ∧ validateDocPredicate readRule t = .ok () ∧
      prepareQueryRead decodeToken s readRule evalCtx ctx tableIndex parsed subId = .ok req ∧
      req.filter = filter

lemma prepareQueryRead_eq_ok {subId : Option ℕ}
    (h : prepareQueryRead decodeToken s readRule evalCtx ctx tableIndex parsed subId = .ok req) :
    ∃ t guard filter, s.tableByIndex tableIndex = some t ∧
      buildDocPredicate readRule evalCtx t = .ok guard ∧
      parseQueryFilter decodeToken s tableIndex parsed = .ok filter ∧
      req = ⟨ctx.connId, tableIndex, ctx.storeNamespaceId, mergeGuard filter guard, subId⟩ := by
  unfold prepareQueryRead at h
  cases ht : s.tableByIndex tableIndex with
  | none =>
    rw [ht] at h
    cases h
  | some t =>
    simp only [ht] at h
    cases hg : buildDocPredicate readRule evalCtx t with
    | error e =>
      rw [hg] at h
      cases h
    | ok guard =>
      simp only [hg] at h
      cases hf : parseQueryFilter decodeToken s tableIndex parsed with
      | error e =>
        rw [hf] at h
        cases h
      | ok filter =>
        rw [hf] at h
        cases h
        exact ⟨t, guard, filter, rfl, hg, rfl, rfl⟩

lemma AcceptedFilter.hasOperands {filter : QueryFilter} (h : AcceptedFilter filter) :
    filter.predicate.HasOperands := by
  obtain ⟨decodeToken, s, readRule, evalCtx, ctx, tableIndex, parsed, subId, req, t, ht, hv, hreq,
    rfl⟩ := h
  obtain ⟨t', guard, filter, ht', hguard, hparsed, rfl⟩ := prepareQueryRead_eq_ok hreq
  have hp : filter.predicate.HasOperands :=
    ParsedFilter.hasOperands ⟨decodeToken, s, tableIndex, parsed, hparsed⟩
  cases guard with
  | none => exact hp
  | some guard =>
    rw [ht] at ht'
    cases ht'
    exact hp.mergeInPlace (buildDocPredicate_operands hv hguard)

lemma collectionOf_of_registered {e : SubscriptionEngine} {reg : Registry} (h : e.Coherent reg)
    {key : SubscriberKey} {coll : CollectionKey} {filter : QueryFilter}
    (hreg : reg key = some (coll, filter)) : e.collectionOf key = some coll := by
  have hr := h.registered key
  rw [hreg] at hr
  unfold collectionOf
  cases hk : (e.active key).bind e.keys with
  | none =>
    rw [hk] at hr
    cases hr
  | some k =>
    rw [hk] at hr
    have hsame : eqlFilterKey ⟨coll, filter⟩ k := hr
    rw [eqlFilterKey, Bool.and_eq_true, decide_eq_true_eq] at hsame
    rw [Option.map_some, ← hsame.1]

lemma collectionOf_handleStoreSubscribe {e' : SubscriptionEngine} {subId : ℕ} {t : Table}
    {calls : List SubscriptionCall}
    (hcalls : ∀ coll filter key, .subscribe coll filter key ∈ calls → AcceptedFilter filter)
    (hv : validateDocPredicate readRule t = .ok ())
    (h : handleStoreSubscribe decodeToken s readRule evalCtx (.run calls) ctx parsed subId =
      .ok (e', req)) (ht : s.tableByIndex req.tableIndex = some t) :
    e'.collectionOf ⟨ctx.connId, subId⟩ = some ⟨ctx.storeNamespaceId, req.tableIndex⟩ ∧
      req.namespaceId = ctx.storeNamespaceId := by
  obtain ⟨tableIndex, _, h₁⟩ := bind_eq_ok.mp h
  obtain ⟨req', hreq, h₂⟩ := bind_eq_ok.mp h₁
  cases hsub : (run calls).subscribe ⟨ctx.storeNamespaceId, tableIndex⟩
      req'.filter ⟨ctx.connId, subId⟩ with
  | error err =>
    rw [hsub] at h₂
    cases h₂
  | ok e =>
    rw [hsub] at h₂
    cases h₂
    obtain ⟨_, guard, filter, _, _, _, hreq'⟩ := prepareQueryRead_eq_ok hreq
    have htable : req.tableIndex = tableIndex := by rw [hreq']
    have haccepted : AcceptedFilter req.filter :=
      ⟨decodeToken, s, readRule, evalCtx, ctx, tableIndex, parsed, some subId, req, t, htable ▸ ht,
        hv, hreq, rfl⟩
    have hcoherent := coherent_run calls fun coll filter key hm =>
      (hcalls coll filter key hm).hasOperands
    have hnew : Registry.run calls ⟨ctx.connId, subId⟩ = none := by
      rw [← Option.isSome_eq_false_iff.trans Option.isNone_iff_eq_none,
        ← hcoherent.isSome_active, Bool.eq_false_iff]
      intro hactive
      rw [active] at hactive
      simp [subscribe, hactive] at hsub
    have hafter : Coherent
        ((run calls).call (.subscribe ⟨ctx.storeNamespaceId, tableIndex⟩
          req.filter ⟨ctx.connId, subId⟩)) _ :=
      hcoherent.subscribe haccepted.hasOperands ⟨ctx.connId, subId⟩
    simp only [call, hsub, Except.toOption, Option.getD_some, Registry.call, hnew] at hafter
    refine ⟨?_, by rw [hreq']⟩
    rw [htable]
    exact collectionOf_of_registered hafter (if_pos rfl)

end Registered

section Announced

variable {s : Schema} {sqlite : Sqlite}

/-- The records of a change are rows of the namespace that it is announced under. -/
def OwnedRecordChange.InNamespace (c : OwnedRecordChange) : Prop :=
  ∀ r, c.oldRecord = some r ∨ c.newRecord = some r → r.values[1]? = some (.scalar (.integer c.namespaceId))

lemma Row.record_namespace (id : DocId) (r : Row) :
    (r.record id).values[1]? = some (.scalar (.integer r.namespaceId)) := rfl

lemma EffectOf.inNamespace {db db' : Database} {e : RowEffect} (h : EffectOf db db' e) :
    e.Records fun namespaceId _ r => r.values[1]? = some (.scalar (.integer namespaceId)) := by
  intro r hr
  cases h with
  | deleted key row before after =>
    cases hr with
    | inl hr =>
      cases hr
      exact Row.record_namespace key.id row
    | inr hr => cases hr
  | written key row pkInsert old after known stored same =>
    cases hr with
    | inl hr =>
      obtain ⟨row₀, hrow₀, rfl⟩ := Option.map_eq_some_iff.mp (known r hr)
      dsimp only
      rw [← same row₀ hrow₀]
      exact Row.record_namespace key.id row₀
    | inr hr =>
      cases hr
      exact Row.record_namespace key.id row

lemma inNamespace_runOps {failFast : Bool} {opIdx : ℕ} {ops : List RowOp} {w : WriteWorker}
    {ctx : BatchCtx} {u : Unit} (h : runOps s sqlite failFast opIdx ops w.begin = .ok u ctx) :
    ∀ c ∈ ctx.pendingChanges, c.InNamespace := by
  refine runOps_induct (I := fun ctx => ∀ c ∈ ctx.pendingChanges, c.InNamespace) ?_ ?_ h ?_
  · intro op _ ctx b ctx' hctx he
    obtain ⟨es, haccounts⟩ := executeEntry_accounts he
    refine haccounts.tracked.records
      (P := fun namespaceId _ r => r.values[1]? = some (Value.scalar (.integer namespaceId))) hctx ?_
    exact fun e hm => (haccounts.happened e hm).1.inNamespace
  · exact fun _ _ hctx => hctx
  · intro c hc
    cases hc

namespace WriteWorker

variable {w : WriteWorker}

def AnnouncedInNamespace (w : WriteWorker) : Prop :=
  ∀ c ∈ w.changeQueue.getD [], (c.oldRecord.isSome ∨ c.newRecord.isSome) ∧ c.InNamespace

lemma AnnouncedInNamespace.runTransaction {failFast : Bool} {ops : List RowOp}
    (h : w.AnnouncedInNamespace) : (w.runTransaction s sqlite failFast ops).AnnouncedInNamespace := by
  unfold WriteWorker.runTransaction
  cases ht : w.tryTransaction s sqlite failFast ops with
  | error e ctx => exact h
  | ok u ctx =>
    have hpending := inNamespace_runOps (tryTransaction_eq_ok ht)
    intro c hc
    change c ∈ (w.changeQueue.map _).getD [] at hc
    cases hq : w.changeQueue with
    | none => simp [hq] at hc
    | some q =>
      rw [hq, Option.map_some, Option.getD_some, List.mem_append, List.mem_filter, Bool.or_eq_true] at hc
      cases hc with
      | inl hc => exact h c (by rwa [hq])
      | inr hc => exact ⟨hc.2, hpending c hc.1⟩

lemma AnnouncedInNamespace.step {st : WorkerStep} (h : w.AnnouncedInNamespace) :
    (w.step s st).AnnouncedInNamespace := by
  cases st with
  | flush sqlite ops => exact h.runTransaction
  | batch sqlite entries => exact h.runTransaction
  | resolveSession sqlite newUserId sop =>
    obtain ⟨hstores, _⟩ := executeResolveSessionOp_cases s sqlite sop newUserId w
    unfold AnnouncedInNamespace
    rw [WriteWorker.step, hstores.changeQueue]
    exact h

end WriteWorker

/-- The change is announced in some run of the worker from startup, on any rows. -/
def Announced (s : Schema) (c : OwnedRecordChange) : Prop :=
  ∃ db namespaces w₀ w, bootstrapRuntimeTableState s (some []) db namespaces = .ok w₀ ∧
      Reaches s (fun _ _ => True) w₀ w ∧ c ∈ w.changeQueue.getD []

lemma Announced.inNamespace {c : OwnedRecordChange} (h : Announced s c) :
    (c.oldRecord.isSome ∨ c.newRecord.isSome) ∧ c.InNamespace := by
  obtain ⟨db, namespaces, w₀, w, hboot, hrun, hc⟩ := h
  have hannounced : w.AnnouncedInNamespace := by
    refine hrun.invariant ?_ fun _ _ hw _ => hw.step
    unfold bootstrapRuntimeTableState at hboot
    split_ifs at hboot
    cases hboot
    intro c hc
    cases hc
  exact hannounced c hc

lemma announced_first {i : ℕ} {t : Table} (ht : s.tableByIndex i = some t) :
    ∃ c, Announced s c ∧ c.key.tableIndex = i ∧
      c.namespaceId = (if t.namespaced then 1 else globalNamespaceId) ∧ c.newRecord.isSome := by
  let sqlite : Sqlite := ⟨⟨fun _ => [], fun _ => [], id⟩, fun _ _ => none⟩
  let w₀ : WriteWorker := { changeQueue := some [] }
  let op : RowOp := .upsert ⟨i, 0, 1, 0, [], none, 0, none⟩
  let ns : ℤ := if t.namespaced then 1 else globalNamespaceId
  let row : Row := newRow t ns 0 (if t.isUsersTable then some (hexSlice 0) else none) [] 1
  let c : OwnedRecordChange := ⟨ns, ⟨i, 0⟩, .insert, none, some (row.record 0)⟩
  have hboot : bootstrapRuntimeTableState s (some []) {} [] = .ok w₀ := by
    simp [bootstrapRuntimeTableState, Database.maxCreatedAt, w₀]
  have hlt : ¬ s.tables.length ≤ i := by
    rw [Nat.not_le]
    exact (List.getElem?_eq_some_iff.mp ht).1
  have hstep : ((w₀.step s (.flush sqlite [op])).changeQueue) = some [c] := by
    have hindex := index_of_tableByIndex ht
    simp [step, flushBatch, runTransaction, tryTransaction,
      runOps, executeOp, executeEntry, resolveEntryTarget, requireTable, ht, op, bind, EStateM.bind, pure,
      EStateM.pure, executeUpsertEntry, prefetchOldRecord, begin, w₀, getDocumentHelper, sqlite,
      executeUpsert, liftExcept, renderAndClause, checkColumns, ZyncBase.claimCreatedAt, hlt,
      claimNextCreatedAt, performStatement, Database.upsert, Database.row, Database.select, applyWriteResult,
      hindex, guardOutcome, maxSafeTimestampUs, BatchCtx.track, BatchCtx.trackCacheOp,
      BatchCtx.trackPkMutations, BatchCtx.pushRowChange, accumulateOwnedChange, operationForEndpoints,
      applyCommitted, flushPendingChanges, applyPkMutations,
      applyDocumentCache, bumpVersion, WriteWorker.commit, c, row, ns]
  exact ⟨c, ⟨{}, [], w₀, _, hboot, .single ⟨.flush sqlite [op], trivial, rfl⟩, by simp [hstep]⟩,
    rfl, rfl, rfl⟩

end Announced

/-- Subscriptions are registered, and read, under the namespace of their changes exactly when the
table is namespaced or the session is in the global namespace: only then a change has the key of an
accepted subscription just in case its row is one that the subscription reads. -/
theorem collectionKey_exact_iff {decodeToken : Bytes → Option Payload} {s : Schema}
    {readRule : AuthCondition} {evalCtx : EvalContext} {calls : List SubscriptionCall}
    {ctx : RequestContext} {parsed : Payload} {subId : ℕ} {e' : SubscriptionEngine}
    {req : ReadRequest} {t : Table}
    (hcalls : ∀ coll filter key, .subscribe coll filter key ∈ calls → AcceptedFilter filter)
    (hv : validateDocPredicate readRule t = .ok ())
    (h : handleStoreSubscribe decodeToken s readRule evalCtx (.run calls) ctx parsed subId =
      .ok (e', req)) (ht : s.tableByIndex req.tableIndex = some t) :
    (∀ c, Announced s c →
      (e'.collectionOf ⟨ctx.connId, subId⟩ = some c.recordChange.collection ↔
        req.CanRead t c.key c.oldRecord ∨ req.CanRead t c.key c.newRecord)) ↔
      t.namespaced ∨ ctx.storeNamespaceId = globalNamespaceId := by
  obtain ⟨hcoll, hns⟩ := collectionOf_handleStoreSubscribe hcalls hv h ht
  have hbound : req.effectiveNamespaceId t =
      if t.namespaced then ctx.storeNamespaceId else globalNamespaceId := by
    rw [ReadRequest.effectiveNamespaceId, hns]
  constructor
  · intro hall
    by_contra hnot
    rw [not_or] at hnot
    obtain ⟨c, hc, hi, hcns, hnew⟩ := announced_first ht
    rw [if_neg hnot.1] at hcns hbound
    obtain ⟨r, hr⟩ := Option.isSome_iff_exists.mp hnew
    have hread : req.CanRead t c.key c.newRecord :=
      ⟨hi, r, hr, by rw [hbound, ← hcns]; exact hc.inNamespace.2 r (Or.inr hr)⟩
    have hsame := (hall c hc).mpr (Or.inr hread)
    rw [hcoll, Option.some.injEq, OwnedRecordChange.recordChange, RecordChange.collection,
      CollectionKey.mk.injEq, hcns] at hsame
    exact hnot.2 hsame.1
  · intro hcond c hc
    have hkey : req.effectiveNamespaceId t = ctx.storeNamespaceId := by
      rw [hbound]
      split_ifs with hn
      · rfl
      · exact (hcond.resolve_left hn).symm
    obtain ⟨hsome, hin⟩ := hc.inNamespace
    rw [hcoll, Option.some.injEq, OwnedRecordChange.recordChange, RecordChange.collection,
      CollectionKey.mk.injEq, ← hkey]
    constructor
    · rintro ⟨hns', htable⟩
      cases hsome with
      | inl ho =>
        obtain ⟨r, hr⟩ := Option.isSome_iff_exists.mp ho
        exact Or.inl ⟨htable.symm, r, hr, by rw [hns']; exact hin r (Or.inl hr)⟩
      | inr hn =>
        obtain ⟨r, hr⟩ := Option.isSome_iff_exists.mp hn
        exact Or.inr ⟨htable.symm, r, hr, by rw [hns']; exact hin r (Or.inr hr)⟩
    · have hread (o : Option Record) (ho : ∀ r, o = some r →
          r.values[1]? = some (.scalar (.integer c.namespaceId))) (hr : req.CanRead t c.key o) :
          req.effectiveNamespaceId t = c.namespaceId ∧ req.tableIndex = c.key.tableIndex := by
        obtain ⟨htable, r, hr, hval⟩ := hr
        have hval' := ho r hr
        simp only [hval, Option.some.injEq, Value.scalar.injEq, ScalarValue.integer.injEq] at hval'
        exact ⟨hval', htable.symm⟩
      intro hor
      cases hor with
      | inl hr => exact hread c.oldRecord (fun r hr => hin r (Or.inl hr)) hr
      | inr hr => exact hread c.newRecord (fun r hr => hin r (Or.inr hr)) hr

namespace RegistrationExample

open PkSetsExample

/-- A subscription to all rows of the users table, which is not namespaced. -/
def subscribeUsers : Payload := .map [(.str (asciiBytes "table_index"), .uint 0)]

def usersRead (namespaceId : ℤ) : ReadRequest where
  connId := 4
  tableIndex := 0
  namespaceId
  filter := { predicate := { state := .matchAll }, orderBy := [⟨3, false⟩] }
  subId := some 1

def subscribed (namespaceId : ℤ) : SubscriptionEngine :=
  ((subscribe {} ⟨namespaceId, 0⟩ (usersRead namespaceId).filter
    ⟨4, 1⟩).toOption).getD {}

lemma subscribeUsers_accepted (namespaceId : ℤ) :
    handleStoreSubscribe (fun _ => none) usersSchema (.boolean true) {} (.run []) ⟨4, namespaceId⟩
      subscribeUsers 1 = .ok (subscribed namespaceId, usersRead namespaceId) := rfl

/-- The worker with a change queue, before and after a client creates a users row. -/
def announcing : WriteWorker := { fresh with changeQueue := some [] }

def created : OwnedRecordChange where
  namespaceId := 0
  key := ⟨0, 9⟩
  operation := .insert
  oldRecord := none
  newRecord := some ⟨[.scalar (.docId 9), .scalar (.integer 0), .scalar (.docId 9),
    .scalar (.integer 5), .scalar (.integer 5)]⟩

/-- The new row is one that the subscription of a session in namespace 1 reads, but the change has
another key. -/
theorem created_user_missed :
    handleStoreSubscribe (fun _ => none) usersSchema (.boolean true) {} (.run []) ⟨4, 1⟩
        subscribeUsers 1 = .ok (subscribed 1, usersRead 1) ∧
      (announcing.step usersSchema createUser).changeQueue = some [created] ∧
      (usersRead 1).CanRead usersTable created.key created.newRecord ∧
      (subscribed 1).collectionOf ⟨4, 1⟩ = some ⟨1, 0⟩ ∧ created.recordChange.collection = ⟨0, 0⟩ :=
  ⟨rfl, rfl, ⟨rfl, _, rfl, rfl⟩, rfl, rfl⟩

theorem collectionKey_exact_users :
    (∀ c, Announced usersSchema c →
      ((subscribed 0).collectionOf ⟨4, 1⟩ = some c.recordChange.collection ↔
        (usersRead 0).CanRead usersTable c.key c.oldRecord ∨
          (usersRead 0).CanRead usersTable c.key c.newRecord)) ↔
      usersTable.namespaced ∨ (0 : ℤ) = globalNamespaceId :=
  collectionKey_exact_iff (by intro _ _ _ h; cases h) rfl (subscribeUsers_accepted 0) rfl

end RegistrationExample
end ZyncBase
