import ZyncBase.Actions.Calls
import ZyncBase.Presence.Writes
import ZyncBase.Store.Writes

/-! Requests that carry a payload, from authorization to the checks of the payload: which of them are
answered, whatever the shape of the payload. -/
namespace ZyncBase

open Guarded

/-- What the services know of the schema and of the rules. -/
structure PayloadServices where
  authConfig : AuthConfig
  actions : List Action
  userFields : List PresenceFieldSpec
  sharedFields : List PresenceFieldSpec
  schema : Schema
  constraints : ℕ → ℕ → Option Constraints

inductive PayloadMessage where
  | actionCall (actionId : ℕ) (params : Payload)
  | presenceSet (patch : Payload)
  | presenceSetShared (patch : Payload)
  | storeSet (path value : Payload)
  | storeRemove (path : Payload)
  | storeBatch (ops : Payload)

namespace PayloadServices

variable (services : PayloadServices)

def presence : PresenceService where
  authConfig := services.authConfig
  userFields := services.userFields
  sharedFields := services.sharedFields

def store : StoreService where
  schema := services.schema
  constraints := services.constraints
  authConfig := services.authConfig

variable (documentExists : RowKey → Bool) (ctx : WriteContext) (timestamp : ℤ)

/-- Authorization and the checks of the payload, in the order of the service of the message. -/
def receive : PayloadMessage → Checked Unit
  | .actionCall actionId params => do
    let _ ← admitCall services.authConfig services.actions ctx.request actionId params
  | .presenceSet patch => do let _ ← services.presence.setUser ctx.request patch
  | .presenceSetShared patch => do let _ ← services.presence.setShared ctx.request patch
  | .storeSet path value => do
    let _ ← services.store.setPath documentExists ctx timestamp path value
  | .storeRemove path => do let _ ← services.store.removePath ctx path
  | .storeBatch ops => do let _ ← services.store.batchWrite documentExists ctx timestamp ops

/-- A call whose invoke rule is evaluated as far as a comparison on an array parameter, for which the
call has something else than an array or nil. -/
def CallReadsUnreadable (ctx : RequestFacts) : PayloadMessage → Prop
  | .actionCall actionId params => ∃ action captures rule,
    ReachesRule services.authConfig services.actions ctx actionId action captures rule ∧
      CheckedEvaluation.readsUnreadable (invokeContext action ctx captures params) rule.invoke = true
  | _ => False

/-- Every message is answered but such a call. -/
theorem payload_answered_iff (message : PayloadMessage) :
    Answers (services.receive documentExists ctx timestamp message) ↔
      ¬ services.CallReadsUnreadable ctx.request message := by
  have hdone {α : Type} {x : Checked α} (h : Answers x) :
      Answers (x >>= fun _ => (pure () : Checked Unit)) := h.bind fun _ _ => answers_pure _
  cases message with
  | actionCall actionId params =>
    change ¬ _ ↔ _
    rw [not_iff_not]
    change (admitCall services.authConfig services.actions ctx.request actionId params >>= fun _ =>
      (pure () : Checked Unit)) = .error .stop ↔ _
    rw [bind_eq_stop, admitCall_eq_stop]
    constructor
    · rintro (h | ⟨_, -, h⟩)
      · exact h
      · cases h
    · exact Or.inl
  | presenceSet patch =>
    exact iff_of_true (hdone (services.presence.answers_setUser _ _)) not_false
  | presenceSetShared patch =>
    exact iff_of_true (hdone (services.presence.answers_setShared _ _)) not_false
  | storeSet path value =>
    exact iff_of_true (hdone (services.store.answers_setPath _ _ _ _ _)) not_false
  | storeRemove path =>
    exact iff_of_true (hdone (services.store.answers_removePath _ _)) not_false
  | storeBatch ops =>
    exact iff_of_true (hdone (services.store.answers_batchWrite _ _ _ _)) not_false

end PayloadServices

namespace TaggingExample

/-- Anybody may tag in the namespace `a` with the tag `x` among others. -/
def services : PayloadServices where
  authConfig := {
    namespaceRules := [⟨[.literal [97]], .boolean true, .boolean true, .boolean true, .boolean true⟩]
    storeRules := []
    actionRules := [{
      action := "tag", isWildcard := false, register := .boolean true
      invoke := .comparison
        ⟨⟨.value, "tags"⟩, .contains, some (.literal (.scalar (.text [120])))⟩ }] }
  actions := [{
    name := "tag"
    params := [{ name := "tags", declaredType := .array, itemsType := some .text }] }]
  userFields := []
  sharedFields := []
  schema := ⟨[], nofun, List.nodup_nil, nofun⟩
  constraints := fun _ _ => none

def ctx : WriteContext where
  request := {
    connId := 1, userDocId := 7, storeNamespace := some [97], storeNamespaceId := 1
    presenceNamespaceId := -1 }

/-- A call with a text for the tags stops the program in its authorization. -/
theorem text_for_tags_stops :
    services.receive (fun _ => false) ctx 0 (.actionCall 0 (.arr [.uint 0, .str [120]])) = .error .stop := by
  rfl

end TaggingExample
end ZyncBase
