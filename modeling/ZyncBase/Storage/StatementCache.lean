import ZyncBase.Sql.StatementShape
import ZyncBase.Storage.ReadWorker

/-! The cache of prepared statements of a reader, which is keyed by the structural hash alone, and
the reads that it serves. -/
namespace ZyncBase

open Outcome List Condition

section Shapes

variable {t : Table} {op : Operator} {fieldType : FieldType} {shape : ValueShape}

lemma operatorExpects_membership (h : operatorExpectsValueShape op fieldType = some shape)
    (hop : op = .isIn ∨ op = .notIn) : shape = .arrayMembership := by
  rcases hop with rfl | rfl
  all_goals
    simp only [operatorExpectsValueShape] at h
    split_ifs at h
    exact (Option.some.inj h).symm

lemma operatorExpects_like (h : operatorExpectsValueShape op fieldType = some shape)
    (hop : op = .startsWith ∨ op = .endsWith ∨ op = .contains ∧ fieldType ≠ .array) :
    fieldType = .text ∧ (shape = .scalarText ∨ shape = .containsText) := by
  rcases hop with rfl | rfl | ⟨rfl, hne⟩
  · simp only [operatorExpectsValueShape] at h
    split_ifs at h with ht
    exact ⟨ht, .inl (Option.some.inj h).symm⟩
  · simp only [operatorExpectsValueShape] at h
    split_ifs at h with ht
    exact ⟨ht, .inl (Option.some.inj h).symm⟩
  · cases fieldType with
    | text => exact ⟨rfl, .inr (Option.some.inj h).symm⟩
    | array => exact absurd rfl hne
    | _ => cases h

lemma operatorExpects_nullary (h : operatorExpectsValueShape op fieldType = some shape)
    (hs : shape = .nullary) : op.isNullary = true := by
  subst hs
  cases op <;> simp only [operatorExpectsValueShape] at h
  case isNull | isNotNull => rfl
  case contains => cases fieldType <;> cases h
  all_goals split_ifs at h <;> cases h

lemma Condition.isMembership_iff {c : Condition} : c.isMembership = true ↔ c.op = .isIn ∨ c.op = .notIn := by
  simp [isMembership]

lemma Condition.isLike_iff {c : Condition} :
    c.isLike = true ↔ c.op = .startsWith ∨ c.op = .endsWith ∨ c.op = .contains ∧ c.fieldType ≠ .array := by
  simp [isLike, or_assoc]

lemma Condition.WellTyped.shaped {c : Condition} (h : c.WellTyped t) : c.Shaped t := by
  obtain ⟨f, hf, hft, hit, shape, hshape, -, hvalue⟩ := h.field
  refine ⟨⟨f, hf, hft, hit⟩, fun hn => ?_, fun hm => ?_, fun hl => ?_⟩
  · obtain ⟨v, hv, -⟩ := hvalue fun hs => by
      rw [operatorExpects_nullary hshape hs] at hn
      cases hn
    exact hv ▸ rfl
  · obtain rfl := operatorExpects_membership hshape (isMembership_iff.mp hm)
    obtain ⟨v, hv, items, rfl, -⟩ := hvalue (by decide)
    exact ⟨items, hv⟩
  · rw [isLike_iff, hft] at hl
    obtain ⟨-, rfl | rfl⟩ := operatorExpects_like hshape hl
    · obtain ⟨v, hv, text, rfl⟩ := hvalue (by decide)
      exact ⟨text, hv⟩
    · obtain ⟨v, hv, text, rfl⟩ := hvalue (by decide)
      exact ⟨text, hv⟩

end Shapes

/-- An operand that an operator on a field of the type can be rendered with. -/
structure Operator.Renders (op : Operator) (fieldType : FieldType) (v : Value) : Prop where
  membership : op = .isIn ∨ op = .notIn → ∃ items, v = .array items
  like : op = .startsWith ∨ op = .endsWith ∨ op = .contains ∧ fieldType ≠ .array →
    ∃ text, v = .scalar (.text text)

namespace DocPredicate

variable {t : Table} {ctx : EvalContext} {op : Operator}

lemma resolveContextVar_text {v : ContextVar} {value : Value} {type : ValueType}
    (hvalue : ctx.valuePayload = none) (htype : resolveContextVarType v t = .ok type)
    (h : resolveContextVar v ctx = some value) :
    type.storageType ≠ .array ∧ (type.storageType = .text → ∃ text, value = .scalar (.text text)) := by
  obtain ⟨scope, field⟩ := v
  cases scope with
  | session =>
    simp only [resolveContextVarType, resolveContextVar, resolveSessionVar] at htype h
    split_ifs at htype h
    · cases htype
      exact ⟨by decide, fun ht => by cases ht⟩
    · cases htype
      obtain ⟨text, -, rfl⟩ := Option.map_eq_some_iff.mp h
      exact ⟨by decide, fun _ => ⟨text, rfl⟩⟩
  | «namespace» =>
    cases htype
    obtain ⟨text, -, rfl⟩ := Option.map_eq_some_iff.mp h
    exact ⟨by decide, fun _ => ⟨text, rfl⟩⟩
  | path =>
    simp only [resolveContextVarType, resolveContextVar] at htype h
    split_ifs at htype h
    cases htype
    obtain ⟨text, -, rfl⟩ := Option.map_eq_some_iff.mp h
    exact ⟨by decide, fun _ => ⟨text, rfl⟩⟩
  | value =>
    simp only [resolveContextVar, resolveIncomingValueField, hvalue] at h
    cases h
  | doc => cases htype

lemma validateLiteralValue_renders {lhsType : ValueType} {v : Value}
    (h : validateLiteralValue op lhsType v = .ok ()) : op.Renders lhsType.storageType v := by
  obtain ⟨shape, hshape, h⟩ := bind_eq_ok.mp h
  have hexpects := orError_eq_ok.mp hshape
  refine ⟨fun hop => ?_, fun hop => ?_⟩
  · obtain rfl := operatorExpects_membership hexpects hop
    cases v with
    | array items => exact ⟨items, rfl⟩
    | _ => cases h
  · obtain ⟨-, rfl | rfl⟩ := operatorExpects_like hexpects hop
    all_goals
      match v, h with
      | .scalar (.text text), _ => exact ⟨text, rfl⟩

lemma validateContextVarValue_renders {lhsType : ValueType} {shape : ValueShape}
    {v : ContextVar} {value : Value} (hvalue : ctx.valuePayload = none)
    (hexpects : operatorExpectsValueShape op lhsType.storageType = some shape)
    (h : validateContextVarValue op lhsType v t = .ok ())
    (hresolve : resolveContextVar v ctx = some value) : op.Renders lhsType.storageType value := by
  obtain ⟨type, htype, h⟩ := bind_eq_ok.mp h
  obtain ⟨hne, htext⟩ := resolveContextVar_text hvalue htype hresolve
  refine ⟨fun hop => ?_, fun hop => htext ?_⟩
  · rw [validateRhsType, if_pos hop, if_pos hne] at h
    cases h
  · obtain ⟨hlhs, -⟩ := operatorExpects_like hexpects hop
    rcases hop with rfl | rfl | ⟨rfl, -⟩
    all_goals
      by_contra hrhs
      simp [validateRhsType, validateMatchingValueType, hlhs, hrhs] at h

/-- What a comparison that the configuration check accepts lowers to can be rendered, in a request
without an incoming value. -/
lemma comparisonToQueryCondition_shaped {comp : Comparison} {c : Condition}
    (hvalue : ctx.valuePayload = none) (hv : validateDocComparison comp t = .ok ())
    (h : comparisonToQueryCondition ctx t comp = .ok c) : c.Shaped t := by
  have hrhs := (validateDocComparison_valid t hv).operand
  obtain ⟨i, hi, h⟩ := bind_eq_ok.mp h
  obtain ⟨f, hf, h⟩ := bind_eq_ok.mp h
  obtain ⟨value, hoperand, h⟩ := bind_eq_ok.mp h
  cases h
  obtain ⟨i', hi', hv⟩ := bind_eq_ok.mp hv
  obtain ⟨f', hf', hv⟩ := bind_eq_ok.mp hv
  obtain rfl : i' = i := Except.ok.inj (hi'.symm.trans hi)
  obtain rfl : f' = f := Except.ok.inj (hf'.symm.trans hf)
  obtain ⟨shape, hshape, hv⟩ := bind_eq_ok.mp hv
  have hexpects := orError_eq_ok.mp (show orError _ _ = _ from hshape)
  have hfield : ∃ g, t.fields[i']? = some g ∧ f'.storageType = g.storageType ∧
      f'.itemsType = g.itemsType := ⟨f', orError_eq_ok.mp hf', rfl, rfl⟩
  cases hn : comp.op.isNullary with
  | true =>
    refine ⟨hfield, fun h => ?_, fun hm => ?_, fun hl => ?_⟩
    · cases hn.symm.trans h
    · rcases isMembership_iff.mp hm with h | h
      all_goals
        rw [show comp.op = _ from h] at hn
        cases hn
    · rcases isLike_iff.mp hl with h | h | ⟨h, -⟩
      all_goals
        rw [show comp.op = _ from h] at hn
        cases hn
  | false =>
    rw [hn] at hv
    obtain ⟨rhs, hsome⟩ := Option.isSome_iff_exists.mp (hrhs hn)
    rw [hsome] at hv hoperand
    obtain ⟨v, hresolve, rfl⟩ := map_eq_ok.mp hoperand
    rw [orError_eq_ok] at hresolve
    have hrenders : comp.op.Renders f'.storageType v := by
      cases rhs with
      | literal w =>
        cases hresolve
        exact validateLiteralValue_renders hv
      | contextVar w =>
        exact validateContextVarValue_renders hvalue hexpects hv hresolve
    refine ⟨hfield, fun _ => rfl, fun hm => ?_, fun hl => ?_⟩
    · obtain ⟨items, rfl⟩ := hrenders.membership (isMembership_iff.mp hm)
      exact ⟨items, rfl⟩
    · obtain ⟨text, rfl⟩ := hrenders.like (isLike_iff.mp hl)
      exact ⟨text, rfl⟩

end DocPredicate

variable {tableIndex : ℕ}

section Prepared

variable {s : Schema} {t : Table} {req : ReadRequest}

/-- The reads that the handlers enqueue under read rules that the configuration check accepts. They
carry no incoming value. -/
inductive PreparedRead (s : Schema) : ReadRequest → Prop
  | query {decodeToken : Bytes → Option Payload} {readRule : AuthCondition} {evalCtx : EvalContext}
    {ctx : RequestContext} {tableIndex : ℕ} {parsed : Payload} {subId : Option ℕ} {req : ReadRequest}
    (hrule : ∀ t, s.tableByIndex tableIndex = some t →
      DocPredicate.validateDocPredicate readRule t = .ok ())
    (hvalue : evalCtx.valuePayload = none)
    (h : prepareQueryRead decodeToken s readRule evalCtx ctx tableIndex parsed subId = .ok req) :
    PreparedRead s req
  | loadMore {decodeToken : Bytes → Option Payload} {req : ReadRequest} {t : Table} {token : Bytes}
    {next : QueryFilter} (connId subId : ℕ) (hreq : PreparedRead s req)
    (ht : s.tableByIndex req.tableIndex = some t)
    (h : prepareLoadMoreRead decodeToken t req.tableIndex req.filter token = .ok next) :
    PreparedRead s { req with connId, filter := next, subId := some subId }

lemma decodeCursorValues_length {ds : List SortDescriptor} {ps : List Payload}
    {values : List Value} (h : decodeCursorValues t ds ps = .ok values)
    (hlen : ps.length = ds.length) : values.length = ds.length := by
  induction ds generalizing ps values with
  | nil =>
    cases h
    rfl
  | cons d ds ih =>
    cases ps with
    | nil => cases hlen
    | cons p ps =>
      rw [decodeCursorValues] at h
      obtain ⟨f, -, h⟩ := bind_eq_ok.mp h
      by_cases hnil : p.isNil ∧ f.required
      · rw [if_pos hnil] at h
        cases h
      rw [if_neg hnil] at h
      by_cases harr : isArr p
      · rw [if_pos harr] at h
        cases h
      rw [if_neg harr] at h
      obtain ⟨v, -, h⟩ := bind_eq_ok.mp h
      obtain ⟨vs, hvs, h⟩ := bind_eq_ok.mp h
      cases h
      rw [length_cons, length_cons, ih hvs (Nat.succ.inj hlen)]

lemma validateCursorIdentity_length {ds : List SortDescriptor} {p : Payload}
    {values : List Payload} (h : validateCursorIdentity tableIndex ds p = .ok values) :
    values.length = ds.length := by
  unfold validateCursorIdentity at h
  split at h
  · rename_i order items
    obtain ⟨index, -, h⟩ := bind_eq_ok.mp h
    by_cases hindex : index ≠ tableIndex
    · rw [if_pos hindex] at h
      cases h
    rw [if_neg hindex] at h
    cases order with
    | arr descriptors =>
      obtain ⟨_, -, h⟩ := bind_eq_ok.mp h
      cases items with
      | arr vs =>
        dsimp only at h
        by_cases hlen : vs.length ≠ ds.length
        · rw [if_pos hlen] at h
          cases h
        · rw [if_neg hlen] at h
          cases h
          exact not_not.mp hlen
      | _ => cases h
    | _ => cases h
  · cases h

lemma decodeCursorToken_length {decodeToken : Bytes → Option Payload}
    {ds : List SortDescriptor} {token : Bytes} {cursor : Cursor}
    (h : decodeCursorToken decodeToken t tableIndex ds token = .ok cursor) :
    cursor.values.length = ds.length := by
  obtain ⟨p, -, h⟩ := bind_eq_ok.mp h
  obtain ⟨ps, hps, h⟩ := bind_eq_ok.mp h
  obtain ⟨values, hvalues, h⟩ := bind_eq_ok.mp h
  cases h
  exact decodeCursorValues_length hvalues (validateCursorIdentity_length hps)

lemma parseQueryFilter_shaped {decodeToken : Bytes → Option Payload}
    {parsed : Payload} {filter : QueryFilter} (ht : s.tableByIndex tableIndex = some t)
    (h : parseQueryFilter decodeToken s tableIndex parsed = .ok filter) : filter.Shaped t := by
  have hcanonical := parseQueryFilter_canonical h ht
  obtain ⟨u, hu, htyped, -⟩ := parseQueryFilter_predicate h
  obtain rfl : t = u := Option.some.inj (ht.symm.trans hu)
  refine ⟨fun c hc => (htyped c hc).shaped, ?_, fun d hd => ?_, fun cursor hcursor => ?_⟩
  · obtain ⟨d, hd, -⟩ := hcanonical.unique
    exact ne_nil_of_mem hd
  · obtain ⟨f, hf, -⟩ := hcanonical.sortable d hd
    exact (List.getElem?_eq_some_iff.mp hf).1
  · cases parsed with
    | map entries =>
      obtain ⟨u, hu, h⟩ := bind_eq_ok.mp h
      obtain ⟨ctx, -, h⟩ := bind_eq_ok.mp h
      obtain ⟨orderBy, -, h⟩ := bind_eq_ok.mp h
      obtain ⟨after, hafter, h⟩ := bind_eq_ok.mp h
      cases h
      obtain rfl : after = some cursor := hcursor
      unfold parseAfter at hafter
      split at hafter
      · cases hafter
      · obtain ⟨c, hc, hsome⟩ := map_eq_ok.mp hafter
        cases hsome
        exact decodeCursorToken_length hc
    | _ => cases h

lemma PreparedRead.shaped (h : PreparedRead s req)
    (ht : s.tableByIndex req.tableIndex = some t) : req.filter.Shaped t := by
  induction h with
  | query hrule hvalue h =>
    obtain ⟨u, guard, filter, hu, hguard, hparsed, rfl⟩ := prepareQueryRead_eq_ok h
    obtain rfl : t = u := Option.some.inj (ht.symm.trans hu)
    have hfilter := parseQueryFilter_shaped hu hparsed
    cases guard with
    | none => exact hfilter
    | some guard =>
      have hg := DocPredicate.buildDocPredicate_with
        (fun _ _ => DocPredicate.comparisonToQueryCondition_shaped hvalue) (hrule t hu) hguard
      exact ⟨fun c hc => (FilterPredicate.mem_allConditions_mergeInPlace hc).elim
        (hfilter.conditions c) (hg c), hfilter.ordered, hfilter.sortFields, hfilter.cursor⟩
  | loadMore _ _ _ hu h ih =>
    obtain rfl := Option.some.inj (ht.symm.trans hu)
    obtain ⟨cursor, hcursor, hnext⟩ := bind_eq_ok.mp h
    cases hnext
    have hbase := ih ht
    refine ⟨hbase.conditions, hbase.ordered, hbase.sortFields, fun c hc => ?_⟩
    obtain rfl : cursor = c := Option.some.inj hc
    exact decodeCursorToken_length hcursor

lemma PreparedRead.table (h : PreparedRead s req) : ∃ t, s.tableByIndex req.tableIndex = some t := by
  induction h with
  | query _ _ h =>
    obtain ⟨t, guard, filter, ht, -, -, rfl⟩ := prepareQueryRead_eq_ok h
    exact ⟨t, ht⟩
  | loadMore _ _ _ ht _ _ => exact ⟨_, ht⟩

end Prepared

variable {req : ReadRequest}

section Statements

variable {s : Schema} {a b : ReadRequest}

namespace ReadRequest

/-- What the key of the request's statement is computed from. -/
def fed (req : ReadRequest) : Bytes := fedBytes (structuralFeed req.tableIndex req.filter)

/-- The index of the table is a machine word too. -/
structure Sized (req : ReadRequest) : Prop where
  tableIndex : req.tableIndex < 256 ^ 8
  filter : req.filter.Sized

/-- The statement that a read asks for; point lookups and queries that match nothing ask for
none. -/
def statement (s : Schema) (req : ReadRequest) : Option SqlBuf :=
  match s.tableByIndex req.tableIndex with
  | none => none
  | some t =>
    if (isPointLookup req.filter).isSome || req.filter.predicate.isAlwaysFalse then none
    else (buildSelectQuery t (req.effectiveNamespaceId t) req.filter).toOption

lemma statement_eq_some {t : Table} {buf : SqlBuf}
    (ht : s.tableByIndex req.tableIndex = some t) (h : req.statement s = some buf) :
    buildSelectQuery t (req.effectiveNamespaceId t) req.filter = .ok buf := by
  rw [statement, ht] at h
  dsimp only at h
  split_ifs at h
  cases hq : buildSelectQuery t (req.effectiveNamespaceId t) req.filter with
  | error e =>
    rw [hq] at h
    cases h
  | ok buf' =>
    rw [hq] at h
    cases h
    rfl

lemma tableIndex_eq_of_fed (ha : a.Sized) (hb : b.Sized) (h : a.fed = b.fed) : a.tableIndex = b.tableIndex := by
  rw [fed, fed, fedBytes_structuralFeed, fedBytes_structuralFeed] at h
  exact (splits_int ha.tableIndex hb.tableIndex _ _ h).1

end ReadRequest

lemma PreparedRead.alike {t : Table} (ha : PreparedRead s a) (hb : PreparedRead s b)
    (hsa : a.Sized) (hsb : b.Sized) (ht : s.tableByIndex a.tableIndex = some t)
    (h : a.fed = b.fed) :
    s.tableByIndex b.tableIndex = some t ∧
      ∃ x y, buildSelectQuery t (a.effectiveNamespaceId t) a.filter = .ok x ∧
        buildSelectQuery t (b.effectiveNamespaceId t) b.filter = .ok y ∧ x.Alike y := by
  have hindex := ReadRequest.tableIndex_eq_of_fed hsa hsb h
  have htb : s.tableByIndex b.tableIndex = some t := hindex ▸ ht
  have hshape := sameShape_of_structuralFeed (ha.shaped ht) (hb.shaped htb) hsa.filter hsb.filter
    (by simpa only [ReadRequest.fed, hindex] using h)
  exact ⟨htb, buildSelectQuery_alike (ha.shaped ht) (hb.shaped htb) hshape _ _⟩

end Statements

/-- Prepared statements by key, the most recently used one first. A statement is known by the text
that it was prepared from. -/
structure StatementCache where
  cacheLimit : ℕ
  entries : List (UInt64 × String) := []

variable {requests : List ReadRequest}

namespace StatementCache

/-- The statement of a key, which moves to the front. -/
def get (c : StatementCache) (key : UInt64) : Option (String × StatementCache) :=
  (c.entries.lookup key).map fun stmt =>
    (stmt, { c with entries := (key, stmt) :: c.entries.filter fun e => e.1 ≠ key })

/-- An old entry of the key goes, and the least recently used one when the cache is full. -/
def makeRoom (c : StatementCache) (key : UInt64) : StatementCache :=
  let kept := c.entries.filter fun e => e.1 ≠ key
  { c with entries := if c.cacheLimit ≤ kept.length then kept.dropLast else kept }

def put (c : StatementCache) (key : UInt64) (stmt : String) : StatementCache :=
  { c.makeRoom key with entries := (key, stmt) :: (c.makeRoom key).entries }

/-- The calls of an acquisition that fail. -/
structure AcquireFaults where
  prepare : Bool := false
  alloc : Bool := false

/-- The cached statement of a key, or the one prepared from the text. When no entry can be allocated
for it the room has already been made. -/
def acquire (faults : AcquireFaults) (c : StatementCache) (key : UInt64) (sqlFallback : String) :
    Option String × StatementCache :=
  match c.get key with
  | some (stmt, c) => (some stmt, c)
  | none =>
    if faults.prepare then (none, c)
    else if faults.alloc then (none, c.makeRoom key)
    else (some sqlFallback, c.put key sqlFallback)

section Acquire

variable {faults : AcquireFaults} {c : StatementCache} {key : UInt64} {sql : String}

lemma mem_makeRoom {e : UInt64 × String} (h : e ∈ (c.makeRoom key).entries) : e ∈ c.entries := by
  simp only [makeRoom] at h
  split_ifs at h
  · exact mem_of_mem_filter (mem_of_mem_dropLast h)
  · exact mem_of_mem_filter h

lemma get_eq_some {stmt : String} {c' : StatementCache} (h : c.get key = some (stmt, c')) :
    (key, stmt) ∈ c.entries ∧ ∀ e ∈ c'.entries, e ∈ c.entries := by
  obtain ⟨found, hfound, hc⟩ := Option.map_eq_some_iff.mp h
  cases hc
  have hmem : (key, stmt) ∈ c.entries := by
    obtain ⟨l, l', hl, -⟩ := lookup_eq_some_iff.mp hfound
    rw [hl]
    simp
  refine ⟨hmem, fun e he => ?_⟩
  cases mem_cons.mp he with
  | inl h => exact h ▸ hmem
  | inr h => exact mem_of_mem_filter h

lemma acquire_spec (faults : AcquireFaults) (c : StatementCache) (key : UInt64) (sql : String) :
    (∀ stmt, (c.acquire faults key sql).1 = some stmt → stmt = sql ∨ (key, stmt) ∈ c.entries) ∧
      ∀ e ∈ (c.acquire faults key sql).2.entries, e = (key, sql) ∨ e ∈ c.entries := by
  rw [acquire]
  cases hget : c.get key with
  | some found =>
    obtain ⟨stmt, c'⟩ := found
    obtain ⟨hmem, hold⟩ := get_eq_some hget
    refine ⟨fun stmt' h => ?_, fun e he => .inr (hold e he)⟩
    cases h
    exact .inr hmem
  | none =>
    dsimp only
    split_ifs
    · exact ⟨fun _ h => (nomatch h), fun e he => .inr he⟩
    · exact ⟨fun _ h => (nomatch h), fun e he => .inr (mem_makeRoom he)⟩
    · refine ⟨fun stmt h => .inl (Option.some.inj h).symm, fun e he => ?_⟩
      exact (mem_cons.mp he).imp_right mem_makeRoom

end Acquire

section Run

variable (wyhash : Bytes → UInt64) (s : Schema)

/-- One read: the statement that it is served, if it asks for one and gets it. -/
def serve (faults : AcquireFaults) (c : StatementCache) (req : ReadRequest) : Option String × StatementCache :=
  match req.statement s with
  | none => (none, c)
  | some buf =>
    c.acquire faults (computeStructuralHash wyhash req.tableIndex req.filter) buf.text

def run (c : StatementCache) : List (ReadRequest × AcquireFaults) → List (ReadRequest × Option String)
  | [] => []
  | (req, faults) :: reads =>
    let next := c.serve wyhash s faults req
    (req, next.1) :: run next.2 reads

variable {wyhash s}

def MadeFor (wyhash : Bytes → UInt64) (s : Schema) (requests : List ReadRequest) (c : StatementCache) : Prop :=
  ∀ e ∈ c.entries, ∃ req ∈ requests, ∃ buf, req.statement s = some buf ∧ e = (wyhash req.fed, buf.text)

lemma MadeFor.serve {c : StatementCache}
    (hc : c.MadeFor wyhash s requests) (hreq : req ∈ requests) (faults : AcquireFaults) :
    (c.serve wyhash s faults req).2.MadeFor wyhash s requests := by
  rw [StatementCache.serve]
  cases hbuf : req.statement s with
  | none => exact hc
  | some buf =>
    intro e he
    cases (acquire_spec faults c _ _).2 e he with
    | inl h => exact ⟨req, hreq, buf, hbuf, h⟩
    | inr h => exact hc e h

/-- The statement that is served was made for a request with the same hash. -/
def Served (wyhash : Bytes → UInt64) (s : Schema) (requests : List ReadRequest)
    (req : ReadRequest) (stmt : String) : Prop :=
  ∃ buf, req.statement s = some buf ∧ ∃ other ∈ requests, ∃ buf', other.statement s = some buf' ∧
    wyhash req.fed = wyhash other.fed ∧ stmt = buf'.text

lemma MadeFor.served {c : StatementCache}
    (hc : c.MadeFor wyhash s requests) (hreq : req ∈ requests) {faults : AcquireFaults}
    {stmt : String} (h : (c.serve wyhash s faults req).1 = some stmt) :
    Served wyhash s requests req stmt := by
  rw [StatementCache.serve] at h
  cases hbuf : req.statement s with
  | none =>
    rw [hbuf] at h
    cases h
  | some buf =>
    rw [hbuf] at h
    refine ⟨buf, hbuf, ?_⟩
    cases (acquire_spec faults c _ _).1 stmt h with
    | inl h => exact ⟨req, hreq, buf, hbuf, rfl, h⟩
    | inr h =>
      obtain ⟨other, hother, buf', hbuf', he⟩ := hc _ h
      rw [Prod.mk.injEq] at he
      exact ⟨other, hother, buf', hbuf', he.1, he.2⟩

lemma MadeFor.run {c : StatementCache}
    {reads : List (ReadRequest × AcquireFaults)} (hc : c.MadeFor wyhash s requests)
    (hreads : ∀ x ∈ reads, x.1 ∈ requests) {stmt : String}
    (h : (req, some stmt) ∈ c.run wyhash s reads) : req ∈ requests ∧ Served wyhash s requests req stmt := by
  induction reads generalizing c with
  | nil => cases h
  | cons x reads ih =>
    obtain ⟨next, faults⟩ := x
    obtain ⟨hnext, hreads⟩ := forall_mem_cons.mp hreads
    rw [StatementCache.run] at h
    cases mem_cons.mp h with
    | inl h =>
      rw [Prod.mk.injEq] at h
      obtain ⟨rfl, hstmt⟩ := h
      exact ⟨hnext, hc.served hnext hstmt.symm⟩
    | inr h => exact ih (hc.serve hnext faults) hreads h

end Run

/-- Prepared reads on one table that feed the structural hash alike are rendered to the same text
with as many values to bind; and without collisions of the hash among its reads, a worker serves
each of them the statement that its own query is rendered to. -/
theorem shared_statement {s : Schema} :
    (∀ {a b : ReadRequest} {t : Table}, PreparedRead s a → PreparedRead s b → a.Sized → b.Sized →
      s.tableByIndex a.tableIndex = some t → s.tableByIndex b.tableIndex = some t →
      a.fed = b.fed →
      ∃ x y, buildSelectQuery t (a.effectiveNamespaceId t) a.filter = .ok x ∧
        buildSelectQuery t (b.effectiveNamespaceId t) b.filter = .ok y ∧ x.text = y.text ∧
        x.values.length = y.values.length) ∧
    ∀ (wyhash : Bytes → UInt64) (reads : List (ReadRequest × AcquireFaults)),
      (∀ x ∈ reads, PreparedRead s x.1 ∧ x.1.Sized) →
      (∀ x ∈ reads, ∀ y ∈ reads, wyhash x.1.fed = wyhash y.1.fed → x.1.fed = y.1.fed) →
      ∀ cacheLimit, ∀ req stmt, (req, some stmt) ∈ run wyhash s { cacheLimit } reads →
        ∃ buf, req.statement s = some buf ∧ stmt = buf.text := by
  refine ⟨fun ha hb hsa hsb ht _ h => ?_, fun wyhash reads hreads hinj limit req stmt h => ?_⟩
  · obtain ⟨-, x, y, hx, hy, halike⟩ := ha.alike hb hsa hsb ht h
    exact ⟨x, y, hx, hy, congrArg String.join halike.fragments, halike.values⟩
  · have hempty : MadeFor wyhash s (reads.map Prod.fst) { cacheLimit := limit } :=
      fun e he => absurd he not_mem_nil
    obtain ⟨hreq, buf, hbuf, other, hother, buf', hbuf', hhash, rfl⟩ :=
      hempty.run (fun x hx => mem_map_of_mem hx) h
    obtain ⟨x, hx, rfl⟩ := mem_map.mp hreq
    obtain ⟨y, hy, rfl⟩ := mem_map.mp hother
    obtain ⟨t, ht⟩ := (hreads x hx).1.table
    obtain ⟨hty, z, w, hz, hw, halike⟩ := (hreads x hx).1.alike (hreads y hy).1 (hreads x hx).2
      (hreads y hy).2 ht (hinj x hx y hy hhash)
    obtain rfl : z = buf :=
      Except.ok.inj (hz.symm.trans (ReadRequest.statement_eq_some ht hbuf))
    obtain rfl : w = buf' :=
      Except.ok.inj (hw.symm.trans (ReadRequest.statement_eq_some hty hbuf'))
    exact ⟨z, hbuf, (congrArg String.join halike.fragments).symm⟩

end StatementCache

namespace StatementCacheExample

open AgreementExample StatementCache

def titledCondition (title : UInt8) : Condition where
  fieldIndex := 3
  op := .eq
  value := some (.scalar (.text [title]))
  fieldType := .text
  itemsType := none

/-- A query for the notes of a title. -/
def titledRead (title : UInt8) : ReadRequest where
  connId := 4
  tableIndex := 0
  namespaceId := 1
  filter :=
    { predicate := { conditions := some [titledCondition title] }
      orderBy := [{ fieldIndex := 4, desc := false }] }
  subId := none

lemma prepared_titledRead (title : UInt8) : PreparedRead noteSchema (titledRead title) := by
  have hprepared : prepareQueryRead (fun _ => none) noteSchema (.boolean true) {} ⟨4, 1⟩ 0
      (.map [(.str (asciiBytes "conditions"), .arr [.arr [.uint 3, .uint 0, .str [title]]])]) none =
      .ok (titledRead title) := rfl
  exact .query (fun _ _ => rfl) rfl hprepared

lemma sized_titledRead (title : UInt8) : (titledRead title).Sized where
  tableIndex := (by decide : 0 < 256 ^ 8)
  filter := by
    refine ⟨(by decide : 1 < 256 ^ 8), (by decide : 0 < 256 ^ 8), fun clause h => (nomatch h),
      fun c hc => ?_, (by decide : 1 < 256 ^ 8), fun d hd => ?_⟩
    · obtain rfl := mem_singleton.mp hc
      exact ⟨(by decide : 3 < 256 ^ 8), (by decide : 0 < 256 ^ 8)⟩
    · obtain rfl := mem_singleton.mp hd
      exact (by decide : 4 < 256 ^ 8)

def rollingHash (bytes : Bytes) : UInt64 :=
  bytes.foldl (fun h b => (h ^^^ b.toUInt64) * 1099511628211) 14695981039346656037

/-- Queries for two titles have one statement, and a cache with room for one serves it to both. -/
theorem titles_share_statement :
    (∃ x y, buildSelectQuery noteTable 1 (titledRead 97).filter = .ok x ∧
      buildSelectQuery noteTable 1 (titledRead 98).filter = .ok y ∧ x.text = y.text ∧
      x.values.length = y.values.length) ∧
    ∀ req stmt, (req, some stmt) ∈ run rollingHash noteSchema { cacheLimit := 1 }
        [(titledRead 97, {}), (titledRead 98, {})] →
      ∃ buf, req.statement noteSchema = some buf ∧ stmt = buf.text := by
  have hfed (title : UInt8) : (titledRead title).fed = (titledRead 97).fed := rfl
  obtain ⟨hpair, hrun⟩ := @shared_statement noteSchema
  refine ⟨hpair (prepared_titledRead 97) (prepared_titledRead 98) (sized_titledRead 97)
    (sized_titledRead 98) rfl rfl (hfed 98).symm, hrun rollingHash _ ?_ ?_ 1⟩
  · simp only [forall_mem_cons]
    exact ⟨⟨prepared_titledRead 97, sized_titledRead 97⟩,
      ⟨prepared_titledRead 98, sized_titledRead 98⟩, fun _ h => absurd h not_mem_nil⟩
  · intro x hx y hy _
    simp only [mem_cons, not_mem_nil, or_false] at hx hy
    rcases hx with rfl | rfl <;> rcases hy with rfl | rfl <;> rfl

end StatementCacheExample
end ZyncBase
