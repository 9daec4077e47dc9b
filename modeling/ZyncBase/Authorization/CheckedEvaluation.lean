import ZyncBase.Authorization.CreatePath
import ZyncBase.Authorization.PartialEvaluation

/-! Evaluation and lowering of conditions on a payload that nothing may have checked yet: every access
that could stop the program is one that the evaluation makes. -/
namespace ZyncBase

open AndOr.Formula Outcome List Option

namespace CheckedEvaluation

open Guarded DocPredicate

section Definitions

/-- From the last pair to the first. -/
def findLastFrom (sparse : List Payload) (fieldIndex : ℕ) : ℕ → Checked (Option Payload)
  | 0 => .ok none
  | k+1 => do
    let key ← elementAt sparse (2 * k)
    if key.toUsize = some fieldIndex then return some (← elementAt sparse (2 * k + 1))
    else findLastFrom sparse fieldIndex k

def findLastValue (sparse : List Payload) (fieldIndex : ℕ) : Checked (Option Payload) :=
  if sparse.length % 2 ≠ 0 then .ok none
  else findLastFrom sparse fieldIndex (sparse.length / 2)

/-- Errors of decoding leave the operand without a value. -/
def swallowErrors : Checked Value → Checked (Option Value)
  | .ok v => .ok (some v)
  | .error (.error _) => .ok none
  | .error .stop => .error .stop

def decodeSparse (sparse : List Payload) (fieldIndex : ℕ) (fieldType : FieldType)
    (itemsType : Option FieldType) : Checked (Option Value) := do
  match ← findLastValue sparse fieldIndex with
  | none => return some .nil
  | some rawValue => swallowErrors (decodePayload fieldType itemsType rawValue)

def fieldNamed {α : Type} (name : α → String) (fields : List α) (field : String) : Checked (Option (ℕ × α)) :=
  match fields.findIdx? fun f => name f == field with
  | none => .ok none
  | some i => do return some (i, ← elementAt fields i)

def decodeNamed {α : Type} (name : α → String) (fieldType : α → FieldType)
    (itemsType : α → Option FieldType) (fields : List α) (field : String) (sparse : List Payload) :
    Checked (Option Value) := do
  match ← fieldNamed name fields field with
  | none => return none
  | some (i, f) => decodeSparse sparse i (fieldType f) (itemsType f)

def resolveIncomingValueField (field : String) (ctx : EvalContext) : Checked (Option Value) :=
  match ctx.valuePayload with
  | some (.arr sparse) =>
    match ctx.presenceFields, ctx.actionFields, ctx.valueTable with
    | some fields, _, _ =>
      decodeNamed PresenceField.name PresenceField.declaredType (fun _ => none) fields field sparse
    | none, some fields, _ =>
      decodeNamed ActionField.name ActionField.declaredType ActionField.itemsType fields field sparse
    | none, none, some table =>
      decodeNamed Field.name Field.storageType Field.itemsType table.fields field sparse
    | none, none, none => .ok none
  | _ => .ok none

/-- Only fields of the payload are decoded. -/
def resolveContextVar (v : ContextVar) (ctx : EvalContext) : Checked (Option Value) :=
  if v.scope = .value then resolveIncomingValueField v.field ctx
  else .ok (ZyncBase.resolveContextVar v ctx)

def resolveOperand (operand : Operand) (ctx : EvalContext) : Checked (Option Value) :=
  match operand with
  | .literal v => .ok (some v)
  | .contextVar v => resolveContextVar v ctx

/-- The right side is resolved when the left side has a value and the operator needs it. -/
def comparisonHolds (comp : Comparison) (lhs : Option Value) (ctx : EvalContext) : Checked Bool :=
  if comp.op.isNullary then .ok (compareNullary comp.op (lhs.getD .nil))
  else
    match lhs, comp.rhs with
    | some l, some rhs => do
      match ← resolveOperand rhs ctx with
      | some r => return compareValues comp.op l r
      | none => return false
    | _, _ => .ok false

section Strict

variable (ctx : EvalContext)

/-- Evaluation of a comparison that is not on the document. -/
def holdsInMemory (comp : Comparison) : Checked Bool := do
  comparisonHolds comp (← resolveContextVar comp.lhs ctx) ctx

/-- For commands without a document, on which comparisons are denied. -/
def evaluateComparisonStrict (comp : Comparison) : Checked Bool :=
  if comp.lhs.scope = .doc then .ok false else holdsInMemory ctx comp

mutual

def evaluateConditionStrict : AuthCondition → Checked Bool
  | .boolean b => .ok b
  | .logicalAnd conds => evaluateLogicalStrict false conds
  | .logicalOr conds => evaluateLogicalStrict true conds
  | .comparison comp => evaluateComparisonStrict ctx comp

/-- The first term with the verdict `shortCircuit` settles the list. -/
def evaluateLogicalStrict (shortCircuit : Bool) : List AuthCondition → Checked Bool
  | [] => .ok (!shortCircuit)
  | c :: cs => do
    if (← evaluateConditionStrict c) = shortCircuit then return shortCircuit
    else evaluateLogicalStrict shortCircuit cs

end

end Strict

section Create

variable (ctx : CandidateContext)

def resolveDocOperand (v : ContextVar) : Checked (Option Value) :=
  if v.scope ≠ .doc then resolveContextVar v ctx.toEvalContext
  else if v.field = "id" then .ok (ctx.docId.map fun id => .scalar (.docId id))
  else if v.field = "owner_id" then .ok (ctx.ownerDocId.map fun id => .scalar (.docId id))
  else
    match ctx.valueTable with
    | none => .ok none
    | some table => do
      match ← fieldNamed Field.name table.fields v.field with
      | none => return none
      | some (_, f) =>
        if f.kind = .system then return none
        else resolveIncomingValueField v.field ctx.toEvalContext

def evaluateComparisonWithDoc (comp : Comparison) : Checked Bool := do
  comparisonHolds comp (← resolveDocOperand ctx comp.lhs) ctx.toEvalContext

mutual

def evaluateConditionWithDoc : AuthCondition → Checked Bool
  | .boolean b => .ok b
  | .logicalAnd conds => evaluateLogicalWithDoc false conds
  | .logicalOr conds => evaluateLogicalWithDoc true conds
  | .comparison comp => evaluateComparisonWithDoc ctx comp

def evaluateLogicalWithDoc (shortCircuit : Bool) : List AuthCondition → Checked Bool
  | [] => .ok (!shortCircuit)
  | c :: cs => do
    if (← evaluateConditionWithDoc c) = shortCircuit then return shortCircuit
    else evaluateLogicalWithDoc shortCircuit cs

end

end Create

section Lowering

variable (ctx : EvalContext) (table : Table)

def resolveRhs : Option Operand → Checked (Option Value)
  | none => .ok none
  | some rhs => do
    match ← resolveOperand rhs ctx with
    | none => refuse .invalidValue
    | some v => return some v

def comparisonToQueryCondition (comp : Comparison) : Checked Condition := do
  match ← fieldNamed Field.name table.fields comp.lhs.field with
  | none => refuse .invalidFieldName
  | some (fieldIndex, f) =>
    let value ← resolveRhs ctx comp.rhs
    return { fieldIndex, op := comp.op, value, fieldType := f.storageType, itemsType := f.itemsType }

mutual

def lowerCondition : AuthCondition → Checked LowerResult
  | .boolean b => .ok (if b then .allow else .deny)
  | .logicalAnd conds => lowerAnd {} conds
  | .logicalOr conds => lowerOr none none conds
  | .comparison comp =>
    if comp.lhs.scope ≠ .doc then do
      return if ← holdsInMemory ctx comp then .allow else .deny
    else do return .filter { conditions := some [← comparisonToQueryCondition ctx table comp] }

def lowerAnd (builder : PredicateBuilder) : List AuthCondition → Checked LowerResult
  | [] => .ok (if builder.isEmpty then .allow else .filter builder.toOwnedPredicate)
  | c :: cs => do
    match ← lowerCondition c with
    | .allow => lowerAnd builder cs
    | .deny => return .deny
    | .filter p => lowerAnd (builder.appendAndFilterMove p) cs

def lowerOr (firstFilter : Option FilterPredicate) (orBuilder : Option PredicateBuilder) :
    List AuthCondition → Checked LowerResult
  | [] =>
    match orBuilder, firstFilter with
    | some builder, _ =>
      .ok (if builder.isEmpty then .deny else .filter builder.toOwnedPredicate)
    | none, some p => .ok (.filter p)
    | none, none => .ok .deny
  | c :: cs => do
    match ← lowerCondition c with
    | .allow => return .allow
    | .deny => lowerOr firstFilter orBuilder cs
    | .filter p =>
      let next := addOrTerm firstFilter orBuilder p
      lowerOr next.1 next.2 cs

end

def buildDocPredicate (c : AuthCondition) : Checked (Option FilterPredicate) := do
  match ← lowerCondition ctx table c with
  | .allow => return none
  | .deny => refuse .accessDenied
  | .filter p =>
    let q := p.normalize
    return if q.state = .matchAll then none else some q

end Lowering

def authorizeWriteCondition (c : AuthCondition) (ctx : CandidateContext) (table : Table)
    (isCreate : Bool) : Checked (Option FilterPredicate) := do
  if isCreate then
    if !(← evaluateConditionWithDoc ctx c) then refuse .accessDenied
    else buildDocPredicate ctx.toEvalContext table c
  else buildDocPredicate ctx.toEvalContext table c

end Definitions

section Reading

lemma findLastFrom_eq {sparse : List Payload} {ps : List (Payload × Payload)}
    (hps : sparsePairs sparse = some ps) (fieldIndex : ℕ) {k : ℕ} (hk : k ≤ ps.length) :
    findLastFrom sparse fieldIndex k = .ok (((ps.take k).reverse.find? (isFor fieldIndex)).map Prod.snd) := by
  induction k with
  | zero => rfl
  | succ k ih =>
    obtain ⟨-, hget⟩ := sparsePairs_get hps
    obtain ⟨hkey, hvalue⟩ := hget k ps[k] (getElem?_eq_getElem hk)
    rw [findLastFrom, elementAt, hkey, elementAt, hvalue, ok_bind, ok_bind, ← take_concat_get' ps k hk,
      reverse_append, reverse_singleton, singleton_append, find?_cons]
    by_cases hfor : ps[k].1.toUsize = some fieldIndex
    · rw [if_pos hfor, isFor, decide_eq_true hfor]
      rfl
    · rw [if_neg hfor, isFor, decide_eq_false hfor]
      exact ih (by omega)

lemma findLastValue_eq (sparse : List Payload) (fieldIndex : ℕ) :
    findLastValue sparse fieldIndex = .ok (ZyncBase.findLastValue sparse fieldIndex) := by
  unfold findLastValue
  by_cases hodd : sparse.length % 2 ≠ 0
  · rw [if_pos hodd, ZyncBase.findLastValue]
    cases hps : sparsePairs sparse with
    | none => rfl
    | some ps =>
      obtain ⟨hlen, -⟩ := sparsePairs_get hps
      omega
  · rw [if_neg hodd]
    obtain ⟨ps, hps⟩ := sparsePairs_of_even (by omega : sparse.length % 2 = 0)
    obtain ⟨hlen, -⟩ := sparsePairs_get hps
    rw [hlen, Nat.mul_div_cancel_left _ (by omega : 0 < 2), findLastFrom_eq hps _ (le_refl _),
      take_length, ZyncBase.findLastValue, hps]
    change _ = Except.ok ((ps.reverse.find? (isFor fieldIndex)).bind fun p => some p.2)
    cases ps.reverse.find? (isFor fieldIndex) <;> rfl

/-- The payload has a value for this field that is neither nil nor the array it should be. -/
def misshapen (sparse : List Payload) (fieldIndex : ℕ) (fieldType : FieldType)
    (itemsType : Option FieldType) : Bool :=
  (ZyncBase.findLastValue sparse fieldIndex).any fun rawValue =>
    fieldType = .array && itemsType.isSome && !rawValue.isNil && !matchesType .array rawValue

lemma decodeSparse_eq (sparse : List Payload) (fieldIndex : ℕ) (fieldType : FieldType)
    (itemsType : Option FieldType) : decodeSparse sparse fieldIndex fieldType itemsType =
      if misshapen sparse fieldIndex fieldType itemsType then .error .stop
      else .ok (ZyncBase.decodeSparse sparse fieldIndex fieldType itemsType) := by
  rw [decodeSparse, findLastValue_eq, ok_bind, misshapen, ZyncBase.decodeSparse]
  cases ZyncBase.findLastValue sparse fieldIndex with
  | none => rfl
  | some rawValue =>
    dsimp only [any_some]
    have hstop : decodePayload fieldType itemsType rawValue = .error .stop ↔ _ :=
      decodePayload_eq_stop
    by_cases h : decodePayload fieldType itemsType rawValue = .error .stop
    · rw [h, if_pos]
      · rfl
      · simpa [and_assoc] using hstop.mp h
    · rw [if_neg]
      · rw [decodePayload] at h ⊢
        cases hp : fromPayload fieldType itemsType rawValue with
        | ok v => rfl
        | error e =>
          rw [hp] at h
          cases e with
          | aborted => exact absurd rfl h
          | _ => rfl
      · intro hmis
        exact h (hstop.mpr (by simpa [and_assoc] using hmis))

lemma fieldNamed_eq {α : Type} (name : α → String) (fields : List α) (field : String) :
    fieldNamed name fields field = .ok ((fields.findIdx? fun f => name f == field).bind fun i =>
      fields[i]?.map fun f => (i, f)) := by
  unfold fieldNamed
  cases hi : fields.findIdx? fun f => name f == field with
  | none => rfl
  | some i =>
    obtain ⟨hlt, -⟩ := findIdx?_eq_some_iff_getElem.mp hi
    dsimp only
    rw [elementAt_eq hlt, bind_some, getElem?_eq_getElem hlt]
    rfl

/-- The field of this name is one that stops the program when it is decoded. -/
def misshapenNamed {α : Type} (name : α → String) (fieldType : α → FieldType)
    (itemsType : α → Option FieldType) (fields : List α) (field : String) (sparse : List Payload) :
    Bool :=
  (fields.findIdx? fun f => name f == field).any fun i =>
    fields[i]?.any fun f => misshapen sparse i (fieldType f) (itemsType f)

lemma decodeNamed_eq {α : Type} (name : α → String) (fieldType : α → FieldType)
    (itemsType : α → Option FieldType) (fields : List α) (field : String)
    (sparse : List Payload) : decodeNamed name fieldType itemsType fields field sparse =
      if misshapenNamed name fieldType itemsType fields field sparse then .error .stop
      else .ok ((fields.findIdx? fun f => name f == field).bind fun i => fields[i]?.bind fun f =>
        ZyncBase.decodeSparse sparse i (fieldType f) (itemsType f)) := by
  rw [decodeNamed, fieldNamed_eq, ok_bind, misshapenNamed]
  rcases eq_none_or_eq_some (fields.findIdx? fun f => name f == field) with hi | ⟨i, hi⟩
  · rw [hi]
    rfl
  · rw [hi]
    obtain ⟨hlt, -⟩ := findIdx?_eq_some_iff_getElem.mp hi
    simp only [bind_some, getElem?_eq_getElem hlt, map_some, any_some]
    exact decodeSparse_eq sparse i _ _

/-- A field of the payload that stops the program when it is decoded. -/
def unreadable (field : String) (ctx : EvalContext) : Bool :=
  match ctx.valuePayload with
  | some (.arr sparse) =>
    match ctx.presenceFields, ctx.actionFields, ctx.valueTable with
    | some fields, _, _ =>
      misshapenNamed PresenceField.name PresenceField.declaredType (fun _ => none) fields field sparse
    | none, some fields, _ =>
      misshapenNamed ActionField.name ActionField.declaredType ActionField.itemsType fields field sparse
    | none, none, some table =>
      misshapenNamed Field.name Field.storageType Field.itemsType table.fields field sparse
    | none, none, none => false
  | _ => false

lemma resolveIncomingValueField_eq (field : String) (ctx : EvalContext) :
    resolveIncomingValueField field ctx = if unreadable field ctx then .error .stop
      else .ok (ZyncBase.resolveIncomingValueField field ctx) := by
  unfold resolveIncomingValueField unreadable ZyncBase.resolveIncomingValueField
  cases ctx.valuePayload with
  | none => rfl
  | some p =>
    cases p with
    | arr sparse =>
      dsimp only
      cases ctx.presenceFields with
      | some fields => exact decodeNamed_eq _ _ _ _ _ _
      | none =>
        cases ctx.actionFields with
        | some fields => exact decodeNamed_eq _ _ _ _ _ _
        | none =>
          cases ctx.valueTable with
          | some table => exact decodeNamed_eq _ _ _ _ _ _
          | none => rfl
    | _ => rfl

lemma misshapenNamed_of_itemless {α : Type} (name : α → String) (fieldType : α → FieldType)
    (fields : List α) (field : String) (sparse : List Payload) :
    misshapenNamed name fieldType (fun _ => none) fields field sparse = false := by
  unfold misshapenNamed misshapen
  simp

def unreadableVar (ctx : EvalContext) (v : ContextVar) : Bool :=
  v.scope = .value && unreadable v.field ctx

lemma resolveContextVar_eq (v : ContextVar) (ctx : EvalContext) :
    resolveContextVar v ctx = if unreadableVar ctx v then .error .stop
      else .ok (ZyncBase.resolveContextVar v ctx) := by
  unfold resolveContextVar unreadableVar
  by_cases hs : v.scope = .value
  · rw [if_pos hs, resolveIncomingValueField_eq, decide_eq_true hs, Bool.true_and,
      ZyncBase.resolveContextVar, hs]
  · rw [if_neg hs, decide_eq_false hs, Bool.false_and, if_neg Bool.false_ne_true]

end Reading

section Stopping

variable (ctx : EvalContext)

def unreadableOperand : Operand → Bool
  | .literal _ => false
  | .contextVar v => unreadableVar ctx v

/-- The comparison reads an unreadable field. The right side is not read when the left side has no
value. -/
def comparisonReads (comp : Comparison) : Bool :=
  unreadableVar ctx comp.lhs || (!comp.op.isNullary &&
    (ZyncBase.resolveContextVar comp.lhs ctx).isSome && comp.rhs.any (unreadableOperand ctx))

mutual

/-- Strict evaluation reaches a comparison that reads an unreadable field. -/
def readsUnreadable : AuthCondition → Bool
  | .boolean _ => false
  | .logicalAnd conds => readsBefore false conds
  | .logicalOr conds => readsBefore true conds
  | .comparison comp => comp.lhs.scope ≠ .doc && comparisonReads ctx comp

/-- The terms after the first one with the verdict `shortCircuit` are not reached. -/
def readsBefore (shortCircuit : Bool) : List AuthCondition → Bool
  | [] => false
  | c :: cs => readsUnreadable c ||
      (ZyncBase.evaluateConditionStrict c ctx ≠ shortCircuit && readsBefore shortCircuit cs)

end

variable {ctx}

lemma resolveOperand_eq (operand : Operand) : resolveOperand operand ctx =
    if unreadableOperand ctx operand then .error .stop
    else .ok (ZyncBase.resolveOperand operand ctx) := by
  cases operand with
  | literal v => rfl
  | contextVar v => exact resolveContextVar_eq v ctx

lemma holdsInMemory_eq (comp : Comparison) : holdsInMemory ctx comp =
    if comparisonReads ctx comp then .error .stop
    else .ok (ZyncBase.comparisonHolds comp (ZyncBase.resolveContextVar comp.lhs ctx) ctx) := by
  rw [holdsInMemory, resolveContextVar_eq, comparisonReads]
  cases unreadableVar ctx comp.lhs with
  | true => rfl
  | false =>
    rw [if_neg Bool.false_ne_true, ok_bind, Bool.false_or]
    unfold comparisonHolds ZyncBase.comparisonHolds
    cases comp.op.isNullary with
    | true => rfl
    | false =>
      cases ZyncBase.resolveContextVar comp.lhs ctx with
      | none => rfl
      | some l =>
        cases comp.rhs with
        | none => rfl
        | some rhs =>
          simp only [Bool.false_eq_true, if_false, resolveOperand_eq, any_some,
            bind_some, Bool.not_false, isSome_some, Bool.true_and]
          cases unreadableOperand ctx rhs with
          | true => rfl
          | false => cases ZyncBase.resolveOperand rhs ctx <;> rfl

def listVerdict (ctx : EvalContext) (shortCircuit : Bool) (cs : List AuthCondition) : Bool :=
  if cs.any fun c => ZyncBase.evaluateConditionStrict c ctx == shortCircuit then shortCircuit
  else !shortCircuit

lemma listVerdict_cons (s : Bool) (c : AuthCondition) (cs : List AuthCondition) : listVerdict ctx s (c :: cs) =
    if ZyncBase.evaluateConditionStrict c ctx = s then s else listVerdict ctx s cs := by
  rw [listVerdict, any_cons, listVerdict]
  cases ZyncBase.evaluateConditionStrict c ctx <;> cases s <;> simp

lemma evaluateConditionStrict_and (cs : List AuthCondition) :
    ZyncBase.evaluateConditionStrict (.logicalAnd cs) ctx = listVerdict ctx false cs := by
  have h : cs.all (holdsWith ctx fun _ => false) =
      !(cs.any fun c => ZyncBase.evaluateConditionStrict c ctx == false) := by
    rw [not_any_eq_all_not]
    refine all_congr_of_mem fun c _ => ?_
    rw [evaluateConditionStrict_eq, beq_false, Bool.not_not]
  rw [evaluateConditionStrict_eq, holdsWith, AndOr.Formula.eval, evalAll_eq, ← holdsWith, h, listVerdict]
  cases cs.any _ <;> rfl

lemma evaluateConditionStrict_or (cs : List AuthCondition) :
    ZyncBase.evaluateConditionStrict (.logicalOr cs) ctx = listVerdict ctx true cs := by
  have h : (fun c => ZyncBase.evaluateConditionStrict c ctx == true) = holdsWith ctx fun _ => false := by
    funext c
    rw [beq_true, evaluateConditionStrict_eq]
  rw [evaluateConditionStrict_eq, holdsWith, AndOr.Formula.eval, evalAny_eq, listVerdict, h, holdsWith]
  cases cs.any _ <;> rfl

lemma evaluateConditionStrict_checked (c : AuthCondition) : evaluateConditionStrict ctx c =
    if readsUnreadable ctx c then .error .stop
    else .ok (ZyncBase.evaluateConditionStrict c ctx) := by
  have hlist (s : Bool) (cs : List AuthCondition)
      (hcs : ∀ c ∈ cs, evaluateConditionStrict ctx c = if readsUnreadable ctx c then .error .stop
        else .ok (ZyncBase.evaluateConditionStrict c ctx)) :
      evaluateLogicalStrict ctx s cs = if readsBefore ctx s cs then .error .stop
        else .ok (listVerdict ctx s cs) := by
    induction cs with
    | nil => rfl
    | cons c cs ih =>
      obtain ⟨hc, hcs⟩ := forall_mem_cons.mp hcs
      rw [evaluateLogicalStrict, hc, readsBefore, listVerdict_cons]
      cases readsUnreadable ctx c with
      | true => rfl
      | false =>
        rw [if_neg Bool.false_ne_true, ok_bind, Bool.false_or]
        by_cases hs : ZyncBase.evaluateConditionStrict c ctx = s
        · rw [if_pos hs, if_pos hs, decide_eq_false (not_not.mpr hs), Bool.false_and]
          rfl
        · rw [if_neg hs, if_neg hs, decide_eq_true hs, Bool.true_and]
          exact ih hcs
  induction c using inductChildren with
  | hb b =>
    rw [evaluateConditionStrict, readsUnreadable, evaluateConditionStrict_eq]
    rfl
  | hc comp =>
    rw [evaluateConditionStrict, evaluateComparisonStrict, readsUnreadable,
      evaluateConditionStrict_eq, holdsWith, eval_comparison]
    by_cases hs : comp.lhs.scope = .doc
    · rw [if_pos hs, if_pos hs, decide_eq_false (not_not.mpr hs)]
      rfl
    · rw [if_neg hs, if_neg hs, decide_eq_true hs, Bool.true_and, holdsInMemory_eq]
  | ha cs ih =>
    rw [evaluateConditionStrict, readsUnreadable, evaluateConditionStrict_and]
    exact hlist false cs ih
  | ho cs ih =>
    rw [evaluateConditionStrict, readsUnreadable, evaluateConditionStrict_or]
    exact hlist true cs ih

end Stopping

section Readable

/-- No field of the payload stops the program. -/
def Readable (ctx : EvalContext) : Prop := ∀ field, unreadable field ctx = false

variable {ctx : EvalContext} {table : Table}

lemma Readable.var (h : Readable ctx) (v : ContextVar) : unreadableVar ctx v = false := by
  rw [unreadableVar, h v.field, Bool.and_false]

lemma Readable.operand (h : Readable ctx) (operand : Operand) : unreadableOperand ctx operand = false := by
  cases operand with
  | literal v => rfl
  | contextVar v => exact h.var v

lemma Readable.comparison (h : Readable ctx) (comp : Comparison) : comparisonReads ctx comp = false := by
  rw [comparisonReads, h.var]
  cases comp.rhs with
  | none => simp
  | some rhs => simp [h.operand rhs]

lemma Readable.readsUnreadable (h : Readable ctx) (c : AuthCondition) : readsUnreadable ctx c = false := by
  have hlist (s : Bool) (cs : List AuthCondition)
      (hcs : ∀ c ∈ cs, CheckedEvaluation.readsUnreadable ctx c = false) :
      readsBefore ctx s cs = false := by
    induction cs with
    | nil => rfl
    | cons c cs ih =>
      obtain ⟨hc, hcs⟩ := forall_mem_cons.mp hcs
      rw [readsBefore, hc, ih hcs, Bool.and_false, Bool.or_false]
  induction c using inductChildren with
  | hb b => rfl
  | hc comp => rw [CheckedEvaluation.readsUnreadable, h.comparison, Bool.and_false]
  | ha cs ih => exact hlist false cs ih
  | ho cs ih => exact hlist true cs ih

lemma Readable.comparisonHolds (h : Readable ctx) (comp : Comparison) (lhs : Option Value) :
    Answers (comparisonHolds comp lhs ctx) := by
  unfold CheckedEvaluation.comparisonHolds
  split_ifs
  · exact answers_ok _
  cases lhs with
  | none => exact answers_ok _
  | some l =>
    cases comp.rhs with
    | none => exact answers_ok _
    | some rhs =>
      dsimp only
      rw [resolveOperand_eq, h.operand, if_neg Bool.false_ne_true, ok_bind]
      cases ZyncBase.resolveOperand rhs ctx <;> exact answers_pure _

lemma Readable.withDoc {ctx : CandidateContext} (h : Readable ctx.toEvalContext)
    (c : AuthCondition) : Answers (evaluateConditionWithDoc ctx c) := by
  have hdoc (v : ContextVar) : Answers (resolveDocOperand ctx v) := by
    unfold CheckedEvaluation.resolveDocOperand
    split_ifs
    · rw [resolveContextVar_eq, h.var]
      exact answers_ok _
    · exact answers_ok _
    · exact answers_ok _
    cases ctx.valueTable with
    | none => exact answers_ok _
    | some table =>
      dsimp only
      rw [fieldNamed_eq, ok_bind]
      split
      · exact answers_pure _
      · split_ifs
        · exact answers_pure _
        · rw [resolveIncomingValueField_eq, h]
          exact answers_ok _
  have hlist (s : Bool) (cs : List AuthCondition) (hcs : ∀ c ∈ cs, Answers (evaluateConditionWithDoc ctx c)) :
      Answers (evaluateLogicalWithDoc ctx s cs) := by
    induction cs with
    | nil => exact answers_ok _
    | cons c cs ih =>
      obtain ⟨hc, hcs⟩ := forall_mem_cons.mp hcs
      rw [evaluateLogicalWithDoc]
      refine hc.bind fun b _ => ?_
      split_ifs
      · exact answers_pure _
      · exact ih hcs
  induction c using inductChildren with
  | hb b => exact answers_ok _
  | hc comp =>
    rw [evaluateConditionWithDoc]
    exact (hdoc comp.lhs).bind fun lhs _ => h.comparisonHolds comp lhs
  | ha cs ih => exact hlist false cs ih
  | ho cs ih => exact hlist true cs ih

lemma Readable.toQueryCondition (h : Readable ctx) (comp : Comparison) :
    Answers (comparisonToQueryCondition ctx table comp) := by
  unfold CheckedEvaluation.comparisonToQueryCondition
  rw [fieldNamed_eq, ok_bind]
  split
  · exact answers_refuse _
  refine Answers.bind ?_ fun _ _ => answers_pure _
  cases comp.rhs with
  | none => exact answers_ok _
  | some rhs =>
    rw [CheckedEvaluation.resolveRhs, resolveOperand_eq, h.operand, if_neg Bool.false_ne_true, ok_bind]
    cases ZyncBase.resolveOperand rhs ctx with
    | none => exact answers_refuse _
    | some v => exact answers_pure _

lemma Readable.lowerCondition (h : Readable ctx) (c : AuthCondition) :
    Answers (lowerCondition ctx table c) := by
  have hand (cs : List AuthCondition) (hcs : ∀ c ∈ cs, Answers (CheckedEvaluation.lowerCondition ctx table c))
      (b : PredicateBuilder) : Answers (lowerAnd ctx table b cs) := by
    induction cs generalizing b with
    | nil => exact answers_ok _
    | cons c cs ih =>
      obtain ⟨hc, hcs⟩ := forall_mem_cons.mp hcs
      rw [lowerAnd]
      refine hc.bind fun res _ => ?_
      cases res with
      | allow => exact ih hcs b
      | deny => exact answers_pure _
      | filter p => exact ih hcs _
  have hor (cs : List AuthCondition) (hcs : ∀ c ∈ cs, Answers (CheckedEvaluation.lowerCondition ctx table c))
      (first : Option FilterPredicate) (builder : Option PredicateBuilder) :
      Answers (lowerOr ctx table first builder cs) := by
    induction cs generalizing first builder with
    | nil =>
      unfold lowerOr
      cases builder with
      | some b => exact answers_ok _
      | none => cases first <;> exact answers_ok _
    | cons c cs ih =>
      obtain ⟨hc, hcs⟩ := forall_mem_cons.mp hcs
      rw [lowerOr]
      refine hc.bind fun res _ => ?_
      cases res with
      | allow => exact answers_pure _
      | deny => exact ih hcs first builder
      | filter p => exact ih hcs _ _
  induction c using inductChildren with
  | hb b => exact answers_ok _
  | hc comp =>
    rw [CheckedEvaluation.lowerCondition]
    split_ifs
    · rw [holdsInMemory_eq, h.comparison]
      exact answers_pure _
    · exact (h.toQueryCondition comp).bind fun _ _ => answers_pure _
  | ha cs ih => exact hand cs ih _
  | ho cs ih => exact hor cs ih _ _

lemma Readable.authorizeWriteCondition {ctx : CandidateContext} (h : Readable ctx.toEvalContext)
    (c : AuthCondition) (isCreate : Bool) : Answers (authorizeWriteCondition c ctx table isCreate) := by
  have hbuild : Answers (buildDocPredicate ctx.toEvalContext table c) := by
    refine (h.lowerCondition c).bind fun res _ => ?_
    cases res with
    | allow => exact answers_pure _
    | deny => exact answers_refuse _
    | filter p => exact answers_pure _
  unfold CheckedEvaluation.authorizeWriteCondition
  split_ifs
  · refine (h.withDoc c).bind fun b _ => ?_
    split_ifs
    · exact answers_refuse _
    · exact hbuild
  · exact hbuild

end Readable

end CheckedEvaluation
end ZyncBase
