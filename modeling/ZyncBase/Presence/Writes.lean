import ZyncBase.Authorization.CheckedEvaluation
import ZyncBase.Presence.Patches

/-! The presence writes of clients: the patch is read by the rule of the namespace before its shape is
checked, and decoded by the presence worker when it is merged. -/
namespace ZyncBase

open Guarded Outcome CheckedEvaluation

/-- A field of the presence records, as the schema declares it. -/
structure PresenceFieldSpec extends PresenceField where
  constraints : Option Constraints := none

structure PresenceService where
  authConfig : AuthConfig
  userFields : List PresenceFieldSpec
  sharedFields : List PresenceFieldSpec

namespace PresenceService

section Patch

variable (fields : List PresenceFieldSpec)

/-- One pair of a patch. Nil clears a field. -/
def validatePair (items : List Payload) (k : ℕ) : Checked Unit := do
  match (← elementAt items (2 * k)).toUsize with
  | none => refuse .invalidPayload
  | some fieldIndex =>
    if fields.length ≤ fieldIndex then refuse .invalidFieldIndex
    else
      let value ← elementAt items (2 * k + 1)
      if value.isNil then return ()
      else
        let field ← elementAt fields fieldIndex
        validateValue field.declaredType value
        checkConstraints field.constraints field.declaredType value

def validatePayload (patch : Payload) : Checked Unit :=
  if !matchesType .array patch then refuse .invalidPayload
  else do
    let items ← patch.arrItems
    if items.length % 2 ≠ 0 then refuse .invalidPayload
    else (List.range (items.length / 2)).forM (validatePair fields items)

/-- Clients learn of a field that does not exist as of a patch that does not fit the schema. -/
def validatePatch (patch : Payload) : Checked Unit :=
  match validatePayload fields patch with
  | .error (.error .invalidFieldIndex) => refuse .schemaValidationFailed
  | res => res

def decodeField (fieldType : FieldType) (value : Payload) : Checked Value :=
  match decodePayload fieldType none value with
  | .error (.error _) => refuse .schemaValidationFailed
  | res => res

/-- A pair of a patch for a record, decoded. -/
def decodePair (items : List Payload) (k : ℕ) : Checked (ℕ × Value) := do
  match (← elementAt items (2 * k)).toUsize with
  | none => refuse .invalidPayload
  | some fieldIndex =>
    if fields.length ≤ fieldIndex then refuse .invalidFieldIndex
    else
      let field ← elementAt fields fieldIndex
      let value ← decodeField field.declaredType (← elementAt items (2 * k + 1))
      return (fieldIndex, value)

def decodePatch (patch : Payload) : Checked (PresencePatch Value) := do
  validatePayload fields patch
  let items ← patch.arrItems
  (List.range (items.length / 2)).mapM (decodePair fields items)

end Patch

variable (service : PresenceService)

def writeContext (ctx : RequestFacts) (captures : Captures) (fields : List PresenceFieldSpec)
    (patch : Payload) : EvalContext :=
  { ctx.evalContext captures with
    valuePayload := some patch
    presenceFields := some (fields.map PresenceFieldSpec.toPresenceField) }

/-- The fields and the rule of a record of the user or of the namespace. -/
def fieldsOf (shared : Bool) : List PresenceFieldSpec :=
  if shared then service.sharedFields else service.userFields

def ruleOf (shared : Bool) (rule : NamespaceRule) : AuthCondition :=
  if shared then rule.presenceSharedWrite else rule.presenceWrite

def authorizePresenceWrite (ctx : RequestFacts) (patch : Payload) (shared : Bool) : Checked Unit :=
  match ctx.presenceNamespace with
  | none => refuse .sessionNotReady
  | some nspace =>
    match service.authConfig.matchNamespaceRule nspace with
    | none => refuse .namespaceUnauthorized
    | some (rule, captures) => do
      if ← CheckedEvaluation.evaluateConditionStrict
          (writeContext ctx captures (service.fieldsOf shared) patch) (ruleOf shared rule) then
        return ()
      else refuse .namespaceUnauthorized

def admitPatch (ctx : RequestFacts) (patch : Payload) (shared : Bool) : Checked Unit := do
  service.authorizePresenceWrite ctx patch shared
  validatePatch (service.fieldsOf shared) patch

/-- A patch of the user's record, and what the worker reads of it. -/
def setUser (ctx : RequestFacts) (patch : Payload) : Checked (PresencePatch Value) := do
  service.admitPatch ctx patch false
  decodePatch service.userFields patch

def setShared (ctx : RequestFacts) (patch : Payload) : Checked (PresencePatch Value) := do
  service.admitPatch ctx patch true
  decodePatch service.sharedFields patch

section Safety

variable {fields : List PresenceFieldSpec} {patch : Payload}

lemma answers_validatePair {items : List Payload} {k : ℕ} (hk : 2 * k + 1 < items.length) :
    Answers (validatePair fields items k) := by
  unfold validatePair
  rw [elementAt_eq (by omega : 2 * k < items.length), ok_bind]
  cases items[2 * k].toUsize with
  | none => exact answers_refuse _
  | some fieldIndex =>
    dsimp only
    by_cases hi : fields.length ≤ fieldIndex
    · rw [if_pos hi]
      exact answers_refuse _
    · rw [if_neg hi, elementAt_eq hk, ok_bind]
      split_ifs
      · exact answers_pure _
      · rw [elementAt_eq (by omega : fieldIndex < fields.length), ok_bind]
        exact (answers_validateValue _ _).bind fun _ _ => answers_checkConstraints _ _ _

lemma answers_validatePayload (fields : List PresenceFieldSpec) (patch : Payload) :
    Answers (validatePayload fields patch) := by
  unfold validatePayload
  cases hm : matchesType .array patch with
  | false => exact answers_refuse _
  | true =>
    refine (answers_arrItems hm).bind fun items _ => ?_
    split_ifs
    · exact answers_refuse _
    · refine answers_forM fun k hk => answers_validatePair ?_
      rw [List.mem_range] at hk
      omega

lemma answers_validatePatch (fields : List PresenceFieldSpec) (patch : Payload) :
    Answers (validatePatch fields patch) := by
  have h := answers_validatePayload fields patch
  unfold validatePatch
  split
  · exact answers_refuse _
  · exact h

lemma answers_decodeField (fieldType : FieldType) (value : Payload) :
    Answers (decodeField fieldType value) := by
  have h : Answers (decodePayload fieldType none value) := by
    intro hstop
    obtain ⟨-, hitems, -⟩ := decodePayload_eq_stop.mp hstop
    cases hitems
  unfold decodeField
  split
  · exact answers_refuse _
  · exact h

lemma answers_decodePair {items : List Payload} {k : ℕ} (hk : 2 * k + 1 < items.length) :
    Answers (decodePair fields items k) := by
  unfold decodePair
  rw [elementAt_eq (by omega : 2 * k < items.length), ok_bind]
  cases items[2 * k].toUsize with
  | none => exact answers_refuse _
  | some fieldIndex =>
    dsimp only
    by_cases hi : fields.length ≤ fieldIndex
    · rw [if_pos hi]
      exact answers_refuse _
    · rw [if_neg hi, elementAt_eq (by omega : fieldIndex < fields.length), elementAt_eq hk,
        ok_bind, ok_bind]
      exact (answers_decodeField _ _).bind fun _ _ => answers_pure _

lemma matchesType_of_validatePayload (h : validatePayload fields patch = .ok ()) :
    matchesType .array patch = true := by
  cases hm : matchesType .array patch with
  | true => rfl
  | false =>
    rw [validatePayload, hm] at h
    cases h

lemma answers_decodePatch (fields : List PresenceFieldSpec) (patch : Payload) :
    Answers (decodePatch fields patch) := by
  refine (answers_validatePayload fields patch).bind fun _ hvalid => ?_
  refine (answers_arrItems (matchesType_of_validatePayload hvalid)).bind fun items _ => ?_
  refine answers_mapM fun k hk => answers_decodePair ?_
  rw [List.mem_range] at hk
  omega

lemma readable_writeContext (ctx : RequestFacts) (captures : Captures)
    (fields : List PresenceFieldSpec) (patch : Payload) :
    Readable (writeContext ctx captures fields patch) := by
  intro field
  unfold unreadable writeContext
  cases patch with
  | arr sparse => exact misshapenNamed_of_itemless _ _ _ _ _
  | _ => rfl

lemma answers_authorizePresenceWrite (ctx : RequestFacts) (patch : Payload) (shared : Bool) :
    Answers (service.authorizePresenceWrite ctx patch shared) := by
  unfold authorizePresenceWrite
  cases ctx.presenceNamespace with
  | none => exact answers_refuse _
  | some nspace =>
    dsimp only
    cases service.authConfig.matchNamespaceRule nspace with
    | none => exact answers_refuse _
    | some found =>
      dsimp only
      rw [evaluateConditionStrict_checked,
        (readable_writeContext _ _ _ _).readsUnreadable, if_neg Bool.false_ne_true, ok_bind]
      split_ifs
      · exact answers_pure _
      · exact answers_refuse _

lemma answers_admitPatch (ctx : RequestFacts) (patch : Payload) (shared : Bool) :
    Answers (service.admitPatch ctx patch shared) :=
  (service.answers_authorizePresenceWrite ctx patch shared).bind fun _ _ =>
    answers_validatePatch _ _

lemma answers_setUser (ctx : RequestFacts) (patch : Payload) : Answers (service.setUser ctx patch) :=
  (service.answers_admitPatch ctx patch false).bind fun _ _ => answers_decodePatch _ _

lemma answers_setShared (ctx : RequestFacts) (patch : Payload) : Answers (service.setShared ctx patch) :=
  (service.answers_admitPatch ctx patch true).bind fun _ _ => answers_decodePatch _ _

end Safety
end PresenceService
end ZyncBase
