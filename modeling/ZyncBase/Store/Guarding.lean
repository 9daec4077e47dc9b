import ZyncBase.Query.Folding
import ZyncBase.Store.Writes
import ZyncBase.Subscription.Registration

/-! The predicates that the store guards reads and writes with: the conjunction of the client's
filter and the authorization predicate for reads, the authorization predicate for writes. -/
namespace ZyncBase

open AssocMap Outcome FilterPredicate

/-- A record passes an authorization predicate; without one, every record does. -/
def Admits (guard : Option FilterPredicate) (r : Record) : Prop :=
  ∀ p, guard = some p → evaluatePredicate p r = .ok true

section Merged

lemma FilterPredicate.evaluatePredicate_true_iff {p : FilterPredicate} (h : p.HasOperands)
    (r : Record) : evaluatePredicate p r = .ok true ↔ p.holds r = true := by
  rw [p.evaluatePredicate_eq r h, Except.ok.injEq]

lemma mergeInPlace_evaluates_iff {p guard : FilterPredicate} (hp : p.HasOperands)
    (hg : guard.HasOperands) (r : Record) :
    (evaluatePredicate (p.mergeInPlace guard) r = .ok true ↔
      evaluatePredicate p r = .ok true ∧ evaluatePredicate guard r = .ok true) ↔ p.MergesSafely guard r := by
  rw [evaluatePredicate_true_iff (hp.mergeInPlace hg),
    evaluatePredicate_true_iff hp, evaluatePredicate_true_iff hg,
    ← mergeInPlace_holds_iff, ← Bool.and_eq_true]
  exact Bool.eq_iff_iff.symm

end Merged

section Reads

variable {decodeToken : Bytes → Option Payload} {s : Schema} {readRule : AuthCondition}
  {evalCtx : EvalContext} {ctx : RequestContext} {tableIndex : ℕ} {parsed : Payload}
  {subId : Option ℕ} {req : ReadRequest} {t : Table}

lemma buildDocPredicate_normal {c : AuthCondition} {guard : FilterPredicate}
    (h : DocPredicate.buildDocPredicate c evalCtx t = .ok (some guard)) : guard.Normal := by
  obtain ⟨res, -, h⟩ := bind_eq_ok.mp h
  cases res with
  | allow => cases h
  | deny => cases h
  | filter p =>
    dsimp only at h
    split_ifs at h
    · cases h
    · cases h
      exact p.normalize_normal

/-- A read is restricted to the records that pass both the client's filter and the authorization
predicate. -/
lemma prepareQueryRead_conjunction (ht : s.tableByIndex tableIndex = some t)
    (hv : DocPredicate.validateDocPredicate readRule t = .ok ())
    (h : prepareQueryRead decodeToken s readRule evalCtx ctx tableIndex parsed subId = .ok req) :
    ∃ filter guard, parseQueryFilter decodeToken s tableIndex parsed = .ok filter ∧
      DocPredicate.buildDocPredicate readRule evalCtx t = .ok guard ∧
      ∀ r, evaluatePredicate req.filter.predicate r = .ok true ↔
        evaluatePredicate filter.predicate r = .ok true ∧ Admits guard r := by
  obtain ⟨u, guard, filter, hu, hguard, hparsed, rfl⟩ := prepareQueryRead_eq_ok h
  obtain rfl : t = u := Option.some.inj (ht.symm.trans hu)
  refine ⟨filter, guard, hparsed, hguard, fun r => ?_⟩
  cases guard with
  | none => exact ⟨fun hf => ⟨hf, fun p hp => by cases hp⟩, fun hf => hf.1⟩
  | some guard =>
    obtain ⟨-, -, -, hnormal⟩ := parseQueryFilter_predicate hparsed
    have hp : filter.predicate.HasOperands :=
      ParsedFilter.hasOperands ⟨decodeToken, s, tableIndex, parsed, hparsed⟩
    have hg := DocPredicate.buildDocPredicate_operands hv hguard
    have hboth := (mergeInPlace_evaluates_iff hp hg r).mpr
      (hnormal.mergesSafely (buildDocPredicate_normal hguard) r)
    have hadmits : Admits (some guard) r ↔ evaluatePredicate guard r = .ok true :=
      ⟨fun h => h guard rfl, fun h p hp => by cases hp; exact h⟩
    rw [hadmits]
    exact hboth

end Reads

variable {columns : List ColumnValue} {guardPredicate : Option FilterPredicate}

section Writes

namespace StoreService

variable {service : StoreService} {documentExists : RowKey → Bool} {ctx : WriteContext}
  {timestamp : ℤ} {path : StorePath} {value : Payload}

lemma checkSet_guard {isCreate : Bool}
    (h : service.checkSet ctx.request path value isCreate = .ok (columns, guardPredicate)) :
    service.authorizeStoreWrite ctx.request path (some value) isCreate = .ok guardPredicate := by
  unfold checkSet at h
  split_ifs at h
  · cases h
  · obtain ⟨_, -, h⟩ := bind_eq_ok.mp h
    obtain ⟨_, -, h⟩ := bind_eq_ok.mp h
    obtain ⟨guard, hguard, h⟩ := bind_eq_ok.mp h
    cases h
    exact hguard

lemma setOp_guardPredicate {ack : Option WriteAck} (isCreate : Bool) :
    (setOp ctx.request path columns guardPredicate timestamp ack isCreate).guardPredicate =
      guardPredicate := by
  cases isCreate <;> rfl

/-- An operation on the document at the path is guarded by what the write rule leaves to it. -/
def GuardedByRule (service : StoreService) (ctx : WriteContext) (path : Payload)
    (value : Option Payload) (op : RowOp) : Prop :=
  ∃ parsed isCreate, service.parseStorePath path = .ok parsed ∧ op.target = parsed.key ∧
    service.authorizeStoreWrite ctx.request parsed value isCreate = .ok op.guardPredicate

lemma guardedByRule_setOp {path : Payload} {parsed : StorePath} {isCreate : Bool} (ack : Option WriteAck)
    (hpath : service.parseStorePath path = .ok parsed)
    (hcheck : service.checkSet ctx.request parsed value isCreate =
      .ok (columns, guardPredicate)) :
    service.GuardedByRule ctx path (some value)
      (setOp ctx.request parsed columns guardPredicate timestamp ack isCreate) := by
  refine ⟨parsed, isCreate, hpath, ?_, ?_⟩
  · cases isCreate <;> rfl
  · rw [setOp_guardPredicate]
    exact checkSet_guard hcheck

lemma setPath_guarded {path : Payload} {op : RowOp}
    (h : service.setPath documentExists ctx timestamp path value = .ok op) :
    service.GuardedByRule ctx path (some value) op := by
  obtain ⟨parsed, hpath, h⟩ := bind_eq_ok.mp h
  obtain ⟨⟨columns, guard⟩, hcheck, h⟩ := bind_eq_ok.mp h
  cases h
  exact guardedByRule_setOp ctx.ack hpath hcheck

lemma buildBatchSetEntry_guarded {path : Payload} {docStates : BatchDocStates} {built : RowOp × BatchDocStates}
    (h : service.buildBatchSetEntry documentExists ctx timestamp path value docStates =
      .ok built) : service.GuardedByRule ctx path (some value) built.1 := by
  obtain ⟨parsed, hpath, h⟩ := bind_eq_ok.mp h
  obtain ⟨⟨columns, guard⟩, hcheck, h⟩ := bind_eq_ok.mp h
  cases h
  exact guardedByRule_setOp none hpath hcheck

lemma removePath_guarded {path : Payload} {op : RowOp}
    (h : service.removePath ctx path = .ok op) : service.GuardedByRule ctx path none op := by
  obtain ⟨parsed, hpath, h⟩ := bind_eq_ok.mp h
  obtain ⟨guard, hguard, h⟩ := bind_eq_ok.mp h
  cases h
  exact ⟨parsed, false, hpath, rfl, hguard⟩

lemma buildBatchRemoveEntry_guarded {path : Payload} {docStates : BatchDocStates}
    {built : RowOp × BatchDocStates}
    (h : service.buildBatchRemoveEntry ctx path docStates = .ok built) :
    service.GuardedByRule ctx path none built.1 := by
  obtain ⟨parsed, hpath, h⟩ := bind_eq_ok.mp h
  obtain ⟨guard, hguard, h⟩ := bind_eq_ok.mp h
  cases h
  exact ⟨parsed, false, hpath, rfl, hguard⟩

end StoreService
end Writes

/-- Merging computes the conjunction on exactly the records on which it merges safely. The store
only merges predicates that do: its reads are restricted to the records that pass the client's
filter and the authorization predicate, and its writes are guarded by the authorization
predicate. -/
theorem merged_guard_conjunction_iff {p guard : FilterPredicate} (hp : p.HasOperands)
    (hg : guard.HasOperands) (r : Record) :
    ((evaluatePredicate (p.mergeInPlace guard) r = .ok true ↔
        evaluatePredicate p r = .ok true ∧ evaluatePredicate guard r = .ok true) ↔
      p.MergesSafely guard r) ∧
    (∀ decodeToken s readRule evalCtx ctx tableIndex parsed subId req t, s.tableByIndex tableIndex = some t →
      DocPredicate.validateDocPredicate readRule t = .ok () →
      prepareQueryRead decodeToken s readRule evalCtx ctx tableIndex parsed subId = .ok req →
      ∃ filter guard, parseQueryFilter decodeToken s tableIndex parsed = .ok filter ∧
        DocPredicate.buildDocPredicate readRule evalCtx t = .ok guard ∧
        (evaluatePredicate req.filter.predicate r = .ok true ↔
          evaluatePredicate filter.predicate r = .ok true ∧ Admits guard r)) ∧
    ∀ (service : StoreService) documentExists ctx timestamp path value,
      (∀ op, service.setPath documentExists ctx timestamp path value = .ok op →
        service.GuardedByRule ctx path (some value) op) ∧
      (∀ op, service.removePath ctx path = .ok op → service.GuardedByRule ctx path none op) ∧
      ∀ docStates,
        (∀ built, service.buildBatchSetEntry documentExists ctx timestamp path value docStates =
          .ok built → service.GuardedByRule ctx path (some value) built.1) ∧
        ∀ built, service.buildBatchRemoveEntry ctx path docStates = .ok built →
          service.GuardedByRule ctx path none built.1 := by
  refine ⟨mergeInPlace_evaluates_iff hp hg r, ?_, ?_⟩
  · intro decodeToken s readRule evalCtx ctx tableIndex parsed subId req t ht hv h
    obtain ⟨filter, guard, hparsed, hguard, hall⟩ := prepareQueryRead_conjunction ht hv h
    exact ⟨filter, guard, hparsed, hguard, hall r⟩
  · intro service documentExists ctx timestamp path value
    exact ⟨fun _ => StoreService.setPath_guarded, fun _ => StoreService.removePath_guarded,
      fun _ => ⟨fun _ => StoreService.buildBatchSetEntry_guarded,
        fun _ => StoreService.buildBatchRemoveEntry_guarded⟩⟩

namespace MergingExample

def isA (fieldIndex : ℕ) : Condition where
  fieldIndex := fieldIndex
  op := .eq
  value := some (.scalar (.text [97]))
  fieldType := .text
  itemsType := none

/-- A user with a name and without a role. -/
def roleless : Record where
  values := [.scalar (.docId 7), .scalar (.integer 1), .scalar (.docId 7), .nil,
    .scalar (.text [97]), .scalar (.integer 5), .scalar (.integer 5)]

def named : FilterPredicate where
  conditions := some [isA 4]

/-- A filter with an empty membership set, before it is normalised. -/
def noRole : FilterPredicate where
  conditions := some [{ isA 3 with op := .notIn, value := some (.array []) }]

lemma operands {c : Condition} (h : c.value.isSome) :
    HasOperands { conditions := some [c] } := by
  intro d hd
  change d ∈ [c] at hd
  rw [List.mem_singleton] at hd
  subst hd
  exact fun _ => h

/-- Merged into a filter that has not been normalised, the guard is all that is left of them. -/
theorem roleless_merged : noRole.HasOperands ∧ named.HasOperands ∧
    evaluatePredicate noRole roleless = .ok false ∧
    evaluatePredicate named roleless = .ok true ∧
    evaluatePredicate (noRole.mergeInPlace named) roleless = .ok true :=
  ⟨operands rfl, operands rfl, rfl, rfl, rfl⟩

theorem roleless_named_twice : evaluatePredicate (named.mergeInPlace named) roleless = .ok true := by
  have hn : named.HasOperands := operands rfl
  obtain ⟨hmerge, -, -⟩ := merged_guard_conjunction_iff hn hn roleless
  exact (hmerge.mpr fun _ => Or.inr rfl).mpr ⟨rfl, rfl⟩

end MergingExample
end ZyncBase
