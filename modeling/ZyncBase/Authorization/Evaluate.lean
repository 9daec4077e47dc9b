import ZyncBase.Authentication.Claims
import ZyncBase.Lib.AndOr
import ZyncBase.Query.Eval

/-! Authorization conditions and their evaluation in memory, where a comparison on the document is left
for a predicate, and the rules of the configuration, which a namespace, a collection or an action falls
under. -/
namespace ZyncBase

inductive VarScope where
  | session | namespace | path | value | doc
  deriving DecidableEq, Repr

structure ContextVar where
  scope : VarScope
  field : String
  deriving DecidableEq, Repr

inductive Operand where
  | literal (value : Value)
  | contextVar (v : ContextVar)
  deriving DecidableEq, Repr

structure Comparison where
  lhs : ContextVar
  op : Operator
  rhs : Option Operand
  deriving DecidableEq, Repr

/-- Authorization conditions: constants, conjunctions, disjunctions and comparisons. -/
abbrev AuthCondition := AndOr.Formula Comparison

structure PresenceField where
  name : String
  declaredType : FieldType
  deriving DecidableEq, Repr

structure ActionField where
  name : String
  declaredType : FieldType
  itemsType : Option FieldType := none
  deriving DecidableEq, Repr

/-- What a condition may read: the session, namespace captures, path and incoming value. -/
structure EvalContext where
  sessionUserId : Option DocId := none
  sessionExternalId : Option Bytes := none
  sessionClaims : Option (List (String × Value)) := none
  namespaceCaptures : Option (List (String × Bytes)) := none
  pathTable : Option Bytes := none
  valuePayload : Option Payload := none
  valueTable : Option Table := none
  presenceFields : Option (List PresenceField) := none
  actionFields : Option (List ActionField) := none

/-- Index and value pairs of a flat sparse array; `none` on odd length. -/
def sparsePairs : List Payload → Option (List (Payload × Payload))
  | [] => some []
  | [_] => none
  | i :: v :: rest => (sparsePairs rest).map ((i, v) :: ·)

def findLastValue (sparse : List Payload) (fieldIndex : ℕ) : Option Payload := do
  let pairs ← sparsePairs sparse
  let p ← pairs.reverse.find? fun p => p.1.toUsize = some fieldIndex
  return p.2

/-- The value of a field that the payload may omit. A value that fails to decode is unresolved. -/
def decodeSparse (sparse : List Payload) (fieldIndex : ℕ) (fieldType : FieldType)
    (itemsType : Option FieldType) : Option Value :=
  match findLastValue sparse fieldIndex with
  | none => some .nil
  | some raw => (fromPayload fieldType itemsType raw).toOption

def resolveIncomingValueField (field : String) (ctx : EvalContext) : Option Value :=
  match ctx.valuePayload with
  | some (.arr sparse) =>
    match ctx.presenceFields, ctx.actionFields, ctx.valueTable with
    | some fields, _, _ => do
      let i ← fields.findIdx? fun f => f.name == field
      let f ← fields[i]?
      decodeSparse sparse i f.declaredType none
    | none, some fields, _ => do
      let i ← fields.findIdx? fun f => f.name == field
      let f ← fields[i]?
      decodeSparse sparse i f.declaredType f.itemsType
    | none, none, some table => do
      let i ← table.fieldIndex field
      let f ← table.fields[i]?
      decodeSparse sparse i f.storageType f.itemsType
    | none, none, none => none
  | _ => none

def resolveSessionVar (field : String) (ctx : EvalContext) : Option Value :=
  if field = "userId" then ctx.sessionUserId.map fun id => .scalar (.docId id)
  else if field = "externalId" then ctx.sessionExternalId.map fun id => .scalar (.text id)
  else ctx.sessionClaims.bind (List.lookup field)

def resolveContextVar (v : ContextVar) (ctx : EvalContext) : Option Value :=
  match v.scope with
  | .session => resolveSessionVar v.field ctx
  | .namespace =>
    (ctx.namespaceCaptures.bind (List.lookup v.field)).map fun text => .scalar (.text text)
  | .path => if v.field = "table" then ctx.pathTable.map fun text => .scalar (.text text) else none
  | .value => resolveIncomingValueField v.field ctx
  | .doc => none

def resolveOperand (operand : Operand) (ctx : EvalContext) : Option Value :=
  match operand with
  | .literal v => some v
  | .contextVar v => resolveContextVar v ctx

inductive EvalResult where
  | allow | deny | needsDocPredicate
  deriving DecidableEq, Repr

def EvalResult.ofBool (b : Bool) : EvalResult := if b then .allow else .deny

/-- An unresolved left side is nil for the nullary operators and fails every other one. A binary
comparison without right side does not occur in parsed conditions. -/
def comparisonHolds (comp : Comparison) (lhs : Option Value) (ctx : EvalContext) : Bool :=
  if comp.op.isNullary then compareNullary comp.op (lhs.getD .nil)
  else
    match lhs, comp.rhs.bind (resolveOperand · ctx) with
    | some l, some r => compareValues comp.op l r
    | _, _ => false

def evaluateComparison (comp : Comparison) (ctx : EvalContext) : EvalResult :=
  if comp.lhs.scope = .doc then .needsDocPredicate
  else EvalResult.ofBool (comparisonHolds comp (resolveContextVar comp.lhs ctx) ctx)

mutual

/-- Evaluation in memory, which leaves conditions on the document open. -/
def evaluateAuth (ctx : EvalContext) : AuthCondition → EvalResult
  | .boolean b => EvalResult.ofBool b
  | .logicalAnd conds => evaluateLogical ctx .deny .allow false conds
  | .logicalOr conds => evaluateLogical ctx .allow .deny false conds
  | .comparison comp => evaluateComparison comp ctx

/-- `hasInjection` records that an earlier term was left open. -/
def evaluateLogical (ctx : EvalContext) (shortCircuit default : EvalResult)
    (hasInjection : Bool) : List AuthCondition → EvalResult
  | [] => if hasInjection then .needsDocPredicate else default
  | c :: cs =>
    let result := evaluateAuth ctx c
    if result = shortCircuit then shortCircuit
    else
      evaluateLogical ctx shortCircuit default (hasInjection || result = .needsDocPredicate) cs

end

lemma evaluateLogical_eq_shortCircuit {ctx : EvalContext} {s d : EvalResult}
    (hd : d ≠ s) (hs : s ≠ .needsDocPredicate) (inj : Bool) (cs : List AuthCondition) :
    evaluateLogical ctx s d inj cs = s ↔ ∃ c ∈ cs, evaluateAuth ctx c = s := by
  induction cs generalizing inj with
  | nil =>
    rw [evaluateLogical]
    cases inj with
    | false => simp [hd]
    | true => simp [hs.symm]
  | cons c cs ih =>
    rw [evaluateLogical, List.exists_mem_cons_iff]
    by_cases hc : evaluateAuth ctx c = s
    · simp [hc]
    · simp only [hc, if_false, ih, false_or]

lemma evaluateLogical_eq_default {ctx : EvalContext} {s d : EvalResult}
    (hds : d ≠ s) (hd : d ≠ .needsDocPredicate)
    (hall : ∀ r : EvalResult, r = s ∨ r = d ∨ r = .needsDocPredicate) (inj : Bool)
    (cs : List AuthCondition) :
    evaluateLogical ctx s d inj cs = d ↔ inj = false ∧ ∀ c ∈ cs, evaluateAuth ctx c = d := by
  induction cs generalizing inj with
  | nil =>
    rw [evaluateLogical]
    cases inj with
    | false => simp
    | true => simp [hd.symm]
  | cons c cs ih =>
    rw [evaluateLogical, List.forall_mem_cons]
    rcases hall (evaluateAuth ctx c) with hc | hc | hc
    · simp [hc, hds.symm]
    · simp [hc, hds, hd, ih]
    · simp only [hc]
      by_cases hn : EvalResult.needsDocPredicate = s
      · simp [hn, hds.symm]
      · simp [hn, hd.symm, ih]

inductive PatternSegment where
  | literal (text : Bytes)
  | capture (name : String)
  deriving DecidableEq, Repr

structure NamespaceRule where
  segments : List PatternSegment
  storeFilter : AuthCondition
  presenceRead : AuthCondition
  presenceWrite : AuthCondition
  presenceSharedWrite : AuthCondition

structure StoreRule where
  collection : String
  isWildcard : Bool
  read : AuthCondition
  write : AuthCondition

structure ActionRule where
  action : String
  isWildcard : Bool
  invoke : AuthCondition
  register : AuthCondition

structure AuthConfig where
  namespaceRules : List NamespaceRule
  storeRules : List StoreRule
  actionRules : List ActionRule := []

/-- The captures of a namespace, by name. -/
abbrev Captures := List (String × Bytes)

def matchSegments : List PatternSegment → List Bytes → Captures → Option Captures
  | [], [], captures => some captures
  | [], _ :: _, _ => none
  | _ :: _, [], _ => none
  | .literal lit :: segments, part :: parts, captures =>
    if lit ≠ [42] ∧ lit ≠ part then none else matchSegments segments parts captures
  | .capture name :: segments, part :: parts, captures =>
    if part = [] then none
    else matchSegments segments parts (AssocMap.put AssocMap.eqKey name part captures)

def matchNamespace (segments : List PatternSegment) (nspace : Bytes) : Option Captures :=
  matchSegments segments (nspace.splitOn 58) []

namespace AuthConfig

variable (config : AuthConfig)

def matchNamespaceRule (nspace : Bytes) : Option (NamespaceRule × Captures) :=
  config.namespaceRules.findSome? fun rule =>
    (matchNamespace rule.segments nspace).map fun captures => (rule, captures)

/-- The first rule for the collection, or else the last wildcard. -/
def storeRuleFor (collection : String) : Option StoreRule :=
  (config.storeRules.find? fun rule => rule.collection == collection).or
    (config.storeRules.reverse.find? StoreRule.isWildcard)

def actionRuleFor (action : String) : Option ActionRule :=
  (config.actionRules.find? fun rule => rule.action == action).or
    (config.actionRules.reverse.find? ActionRule.isWildcard)

end AuthConfig

/-- The facts of a connection that its requests are authorized with. -/
structure RequestFacts where
  connId : ℕ
  userDocId : DocId
  externalUserId : Option Bytes := none
  sessionClaims : Option SessionClaims := none
  storeNamespace : Option Bytes := none
  storeNamespaceId : ℤ
  presenceNamespace : Option Bytes := none
  presenceNamespaceId : ℤ

/-- What the conditions may read of the session and the namespace. -/
def RequestFacts.evalContext (ctx : RequestFacts) (captures : Captures) : EvalContext where
  sessionUserId := some ctx.userDocId
  sessionExternalId := ctx.externalUserId
  sessionClaims := ctx.sessionClaims
  namespaceCaptures := some captures

end ZyncBase
