import ZyncBase.Authorization.CheckedEvaluation

/-! What an action call must pass before it is forwarded: the action and the scope it is called in, the
invoke rule, and the check of its parameters, in this order. -/
namespace ZyncBase

open Guarded Outcome CheckedEvaluation

/-- A flattened field of the parameters or the result of an action. -/
structure ActionParam extends ActionField where
  required : Bool := false
  constraints : Option Constraints := none

inductive ActionScope where
  | store | presence
  deriving DecidableEq, Repr

/-- Without `returns` the action is asynchronous. -/
structure Action where
  name : String
  scope : ActionScope := .store
  params : List ActionParam
  returns : Option (List ActionParam) := none
  claims : List String := []

def Action.isSync (action : Action) : Bool := action.returns.isSome

structure ScopeInfo where
  nspace : Bytes
  namespaceId : ℤ

def scopeInfo (ctx : RequestFacts) (scope : ActionScope) : Option ScopeInfo :=
  match scope with
  | .store => ctx.storeNamespace.map fun nspace => ⟨nspace, ctx.storeNamespaceId⟩
  | .presence => ctx.presenceNamespace.map fun nspace => ⟨nspace, ctx.presenceNamespaceId⟩

section Parameters

def validateParamItem (itemsType : FieldType) (item : Payload) : Checked Unit :=
  match item with
  | .arr _ | .map _ => refuse .invalidArrayElement
  | item => validateValue itemsType item

def validateParamItems (field : ActionParam) (value : Payload) : Checked Unit :=
  if field.declaredType = .array then
    match field.itemsType with
    | none => refuse .typeMismatch
    | some itemsType => do (← value.arrItems).forM (validateParamItem itemsType)
  else .ok ()

def validateField (field : ActionParam) (value : Payload) : Checked Unit := do
  validateValue field.declaredType value
  validateParamItems field value
  checkConstraints field.constraints field.declaredType value

def markSeen (seen : List Bool) (i : ℕ) : Checked (List Bool) :=
  if i < seen.length then .ok (seen.set i true) else .error .stop

def validateParam (fields : List ActionParam) (items : List Payload) (seen : List Bool) (k : ℕ) :
    Checked (List Bool) := do
  match (← elementAt items (2 * k)).toUsize with
  | none => refuse .schemaValidationFailed
  | some fieldIndex =>
    if fields.length ≤ fieldIndex then refuse .schemaValidationFailed
    else
      let field ← elementAt fields fieldIndex
      let value ← elementAt items (2 * k + 1)
      if value.isNil then
        if field.required then refuse .schemaValidationFailed else markSeen seen fieldIndex
      else
        validateField field value
        markSeen seen fieldIndex

/-- A payload of parameters or results: every required field is there and not nil. -/
def validatePayload (fields : List ActionParam) (payload : Payload) : Checked Unit :=
  if !matchesType .array payload then refuse .schemaValidationFailed
  else do
    let items ← payload.arrItems
    if items.length % 2 ≠ 0 then refuse .schemaValidationFailed
    else
      let seen ← (List.range (items.length / 2)).foldlM (validateParam fields items)
        (List.replicate fields.length false)
      if (fields.zip seen).any fun (field, wasSeen) => field.required && !wasSeen then
        refuse .schemaValidationFailed
      else return ()

lemma answers_markSeen {seen : List Bool} {i : ℕ} (h : i < seen.length) : Answers (markSeen seen i) := by
  rw [markSeen, if_pos h]
  exact answers_ok _

lemma markSeen_length {seen seen' : List Bool} {i : ℕ} (h : markSeen seen i = .ok seen') :
    seen'.length = seen.length := by
  unfold markSeen at h
  split_ifs at h
  cases h
  exact List.length_set

lemma answers_validateParamItems {field : ActionParam} {value : Payload}
    (h : matchesType field.declaredType value = true) : Answers (validateParamItems field value) := by
  unfold validateParamItems
  by_cases harray : field.declaredType = .array
  · rw [if_pos harray]
    rw [harray] at h
    cases field.itemsType with
    | none => exact answers_refuse _
    | some itemsType =>
      refine (answers_arrItems h).bind fun items _ => answers_forM fun item _ => ?_
      cases item <;> first | exact answers_validateValue _ _ | exact answers_refuse _
  · rw [if_neg harray]
    exact answers_ok _

lemma answers_validateField (field : ActionParam) (value : Payload) : Answers (validateField field value) := by
  refine (answers_validateValue _ _).bind fun _ hvalid => ?_
  refine (answers_validateParamItems (matchesType_of_validateValue hvalid)).bind fun _ _ => ?_
  exact answers_checkConstraints _ _ _

lemma answers_validateParam {fields : List ActionParam} {items : List Payload}
    {seen : List Bool} {k : ℕ} (hseen : seen.length = fields.length)
    (hk : 2 * k + 1 < items.length) : Answers (validateParam fields items seen k) ∧
      ∀ seen', validateParam fields items seen k = .ok seen' → seen'.length = fields.length := by
  unfold validateParam
  rw [elementAt_eq (by omega : 2 * k < items.length), ok_bind]
  cases items[2 * k].toUsize with
  | none => exact ⟨answers_refuse _, fun _ h => by cases h⟩
  | some fieldIndex =>
    dsimp only
    by_cases hi : fields.length ≤ fieldIndex
    · rw [if_pos hi]
      exact ⟨answers_refuse _, fun _ h => by cases h⟩
    · have hlt : fieldIndex < seen.length := by omega
      rw [if_neg hi, elementAt_eq (by omega : fieldIndex < fields.length), elementAt_eq hk, ok_bind, ok_bind]
      split_ifs
      · exact ⟨answers_refuse _, fun _ h => by cases h⟩
      · exact ⟨answers_markSeen hlt, fun _ h => (markSeen_length h).trans hseen⟩
      · refine ⟨(answers_validateField _ _).bind fun _ _ => answers_markSeen hlt, fun _ h => ?_⟩
        obtain ⟨_, -, h⟩ := bind_eq_ok.mp h
        exact (markSeen_length h).trans hseen

lemma answers_validatePayload (fields : List ActionParam) (payload : Payload) :
    Answers (validatePayload fields payload) := by
  unfold validatePayload
  cases hm : matchesType .array payload with
  | false => exact answers_refuse _
  | true =>
    refine (answers_arrItems hm).bind fun items _ => ?_
    split_ifs
    · exact answers_refuse _
    · refine Answers.bind ?_ fun seen _ => ?_
      · refine answers_foldlM (fun seen => seen.length = fields.length)
          List.length_replicate fun seen hseen k hk => answers_validateParam hseen ?_
        rw [List.mem_range] at hk
        omega
      · split_ifs
        · exact answers_refuse _
        · exact answers_pure _

end Parameters

section Invoke

variable (config : AuthConfig)

/-- The context in which the invoke rule sees the parameters. -/
def invokeContext (action : Action) (ctx : RequestFacts) (captures : Captures)
    (params : Payload) : EvalContext :=
  { ctx.evalContext captures with
    valuePayload := some params
    actionFields := some (action.params.map ActionParam.toActionField) }

def authorizeActionInvoke (action : Action) (nspace : Bytes) (ctx : RequestFacts)
    (params : Payload) : Checked Unit :=
  match config.matchNamespaceRule nspace with
  | none => refuse .namespaceUnauthorized
  | some (_, captures) =>
    match config.actionRuleFor action.name with
    | none => refuse .permissionDenied
    | some rule => do
      if ← CheckedEvaluation.evaluateConditionStrict (invokeContext action ctx captures params)
          rule.invoke then return ()
      else refuse .permissionDenied

def authorizeActionRegister (action : Action) (nspace : Bytes) (ctx : RequestFacts) :
    Except RequestError Unit :=
  match config.matchNamespaceRule nspace with
  | none => .error .namespaceUnauthorized
  | some (_, captures) =>
    match config.actionRuleFor action.name with
    | none => .error .permissionDenied
    | some rule =>
      if evaluateConditionStrict rule.register (ctx.evalContext captures) then .ok ()
      else .error .permissionDenied

/-- An id as the index of an action, which 32 bits must hold. -/
def castU32 (actionId : ℕ) : Checked ℕ := if actionId < 2 ^ 32 then .ok actionId else .error .stop

/-- The first part of a call: the action, its scope, authorization and the check of the parameters. -/
def admitCall (actions : List Action) (ctx : RequestFacts) (actionId : ℕ) (params : Payload) :
    Checked (Action × ScopeInfo) :=
  if 2 ^ 32 - 1 < actionId then refuse .unknownAction
  else do
    match actions[← castU32 actionId]? with
    | none => refuse .unknownAction
    | some action =>
      match scopeInfo ctx action.scope with
      | none => refuse .sessionNotReady
      | some info =>
        authorizeActionInvoke config action info.nspace ctx params
        validatePayload action.params params
        return (action, info)

/-- The call gets as far as its rule. -/
structure ReachesRule (actions : List Action) (ctx : RequestFacts) (actionId : ℕ)
    (action : Action) (captures : Captures) (rule : ActionRule) : Prop where
  bounded : actionId < 2 ^ 32
  found : actions[actionId]? = some action
  inScope : ∃ info namespaceRule, scopeInfo ctx action.scope = some info ∧
    config.matchNamespaceRule info.nspace = some (namespaceRule, captures)
  ruled : config.actionRuleFor action.name = some rule

lemma admitCall_eq_stop {actions : List Action} {ctx : RequestFacts} {actionId : ℕ}
    {params : Payload} : admitCall config actions ctx actionId params = .error .stop ↔
      ∃ action captures rule, ReachesRule config actions ctx actionId action captures rule ∧
        readsUnreadable (invokeContext action ctx captures params) rule.invoke = true := by
  unfold admitCall
  by_cases hbound : 2 ^ 32 - 1 < actionId
  · rw [if_pos hbound]
    refine iff_of_false (answers_refuse _) ?_
    rintro ⟨action, captures, rule, h, -⟩
    have := h.bounded
    omega
  rw [if_neg hbound, castU32, if_pos (by omega), ok_bind]
  cases haction : actions[actionId]? with
  | none =>
    refine iff_of_false (answers_refuse _) ?_
    rintro ⟨action, captures, rule, h, -⟩
    rw [h.found] at haction
    cases haction
  | some action =>
    dsimp only
    cases hinfo : scopeInfo ctx action.scope with
    | none =>
      refine iff_of_false (answers_refuse _) ?_
      rintro ⟨action', captures, rule, h, -⟩
      obtain ⟨info, namespaceRule, hinfo', -⟩ := h.inScope
      rw [h.found, Option.some.injEq] at haction
      rw [haction, hinfo] at hinfo'
      cases hinfo'
    | some info =>
      have hrest : Answers (validatePayload action.params params >>= fun _ =>
          (pure (action, info) : Checked (Action × ScopeInfo))) :=
        (answers_validatePayload _ _).bind fun _ _ => answers_pure _
      have hauth : authorizeActionInvoke config action info.nspace ctx params = .error .stop ↔
          ∃ captures rule, ReachesRule config actions ctx actionId action captures rule ∧
            readsUnreadable (invokeContext action ctx captures params)
              rule.invoke = true := by
        unfold authorizeActionInvoke
        cases hmatch : config.matchNamespaceRule info.nspace with
        | none =>
          refine iff_of_false (answers_refuse _) ?_
          rintro ⟨captures, rule, h, -⟩
          obtain ⟨info', namespaceRule, hinfo', hmatch'⟩ := h.inScope
          rw [hinfo, Option.some.injEq] at hinfo'
          rw [← hinfo', hmatch] at hmatch'
          cases hmatch'
        | some found =>
          obtain ⟨namespaceRule, captures⟩ := found
          dsimp only
          cases hrule : config.actionRuleFor action.name with
          | none =>
            refine iff_of_false (answers_refuse _) ?_
            rintro ⟨captures, rule, h, -⟩
            rw [h.ruled] at hrule
            cases hrule
          | some rule =>
            dsimp only
            rw [evaluateConditionStrict_checked]
            cases hreads : readsUnreadable
                (invokeContext action ctx captures params) rule.invoke with
            | true =>
              refine iff_of_true rfl ⟨captures, rule, ?_, hreads⟩
              exact ⟨by omega, haction, ⟨info, namespaceRule, hinfo, hmatch⟩, hrule⟩
            | false =>
              rw [if_neg Bool.false_ne_true, ok_bind]
              refine iff_of_false ?_ ?_
              · cases evaluateConditionStrict rule.invoke (invokeContext action ctx captures params) with
                | true => exact answers_pure _
                | false => exact answers_refuse _
              · rintro ⟨captures', rule', h, hreads'⟩
                obtain ⟨info', namespaceRule', hinfo', hmatch'⟩ := h.inScope
                rw [hinfo, Option.some.injEq] at hinfo'
                rw [← hinfo', hmatch] at hmatch'
                rw [h.ruled] at hrule
                cases hrule
                cases hmatch'
                rw [hreads] at hreads'
                cases hreads'
      rw [bind_eq_stop, hauth]
      constructor
      · rintro (⟨captures, rule, h⟩ | ⟨_, -, h⟩)
        · exact ⟨action, captures, rule, h⟩
        · exact absurd h hrest
      · rintro ⟨action', captures, rule, h, hreads⟩
        have haction' := h.found
        rw [haction, Option.some.injEq] at haction'
        subst haction'
        exact .inl ⟨captures, rule, h, hreads⟩

end Invoke
end ZyncBase
