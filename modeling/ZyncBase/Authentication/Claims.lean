import ZyncBase.Lib.AssocMap
import ZyncBase.Typed.Json

/-! The claims of a session, as the JWT and the ticket give them. -/
namespace ZyncBase

open List

/-- Claims by the name of their session variable. -/
abbrev SessionClaims := List (String × Value)

open AssocMap

/-- The claims of a JWT that the configuration maps to session variables, in the order in which the
hash map of the mapping is walked. -/
def extractClaimsFromPayload (payload : JsonValue) :
    SessionClaims → List (String × String) → Except ClaimError SessionClaims
  | claims, [] => .ok claims
  | claims, (jwtClaimName, sessionVarName) :: mapping =>
    match payload with
    | .object obj =>
      match obj.lookup jwtClaimName with
      | none => extractClaimsFromPayload payload claims mapping
      | some claimValue => do
        let typedVal ← fromDynamicJson claimValue
        extractClaimsFromPayload payload (put eqKey sessionVarName typedVal claims) mapping
    | _ => .ok claims

/-- The claims of a ticket, all of them. -/
def extractClaims : SessionClaims → List (String × JsonValue) → Except ClaimError SessionClaims
  | claims, [] => .ok claims
  | claims, (key, json) :: rest => do
    let val ← fromDynamicJson json
    extractClaims (put eqKey key val claims) rest

def ReadFrom (jsons : List JsonValue) (claims : SessionClaims) : Prop :=
  ∀ e ∈ claims, ∃ json ∈ jsons, fromDynamicJson json = .ok e.2

lemma ReadFrom.put {jsons : List JsonValue} {claims : SessionClaims} (h : ReadFrom jsons claims)
    {json : JsonValue} (hjson : json ∈ jsons) {v : Value} (hv : fromDynamicJson json = .ok v)
    (key : String) : ReadFrom jsons (put eqKey key v claims) := by
  induction claims with
  | nil =>
    intro e he
    cases mem_singleton.mp he
    exact ⟨json, hjson, hv⟩
  | cons c claims ih =>
    obtain ⟨hc, hclaims⟩ := forall_mem_cons.mp h
    rw [AssocMap.put]
    split_ifs with hkey
    · exact forall_mem_cons.mpr ⟨⟨json, hjson, hv⟩, hclaims⟩
    · exact forall_mem_cons.mpr ⟨hc, ih hclaims⟩

lemma mem_of_lookup {α : Type*} {key : String} {v : α} {entries : List (String × α)}
    (h : entries.lookup key = some v) : (key, v) ∈ entries := by
  induction entries with
  | nil => cases h
  | cons e entries ih =>
    rw [lookup_cons] at h
    split at h
    case h_1 heq =>
      cases h
      rw [eq_of_beq heq]
      exact mem_cons_self
    case h_2 => exact mem_cons_of_mem _ (ih h)

lemma readFrom_extractClaimsFromPayload {obj : List (String × JsonValue)}
    {mapping : List (String × String)} {claims result : SessionClaims}
    (hclaims : ReadFrom (obj.map Prod.snd) claims)
    (h : extractClaimsFromPayload (.object obj) claims mapping = .ok result) :
    ReadFrom (obj.map Prod.snd) result := by
  induction mapping generalizing claims with
  | nil =>
    cases h
    exact hclaims
  | cons m mapping ih =>
    rw [extractClaimsFromPayload] at h
    cases hm : obj.lookup m.1 with
    | none =>
      rw [hm] at h
      exact ih hclaims h
    | some json =>
      rw [hm] at h
      obtain ⟨v, hv, h⟩ := Outcome.bind_eq_ok.mp h
      exact ih (hclaims.put (mem_map_of_mem (mem_of_lookup hm)) hv m.2) h

end ZyncBase
