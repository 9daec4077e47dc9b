import ZyncBase.Authentication.TicketExchange
import ZyncBase.Json.Values
import ZyncBase.Lib.Base64
import ZyncBase.Schema.Parse

/-! The tickets that sessions are handed over with: a ticket that is generated for a session opens the
same session again, when its claims can be written. -/
namespace ZyncBase

open AssocMap JsonRead JsonWrite List Outcome SchemaParse Base64 Reads

section Payload

-- What the reader makes of an integer that has a fraction, an exponent or quotes is left open.
variable (looseInt : JsonValue → Option ℤ)

def readInt : JsonValue → Option ℤ
  | .integer v => some v
  | json => looseInt json

def readBool : JsonValue → Option Bool
  | .bool b => some b
  | _ => none

/-- Bytes are a text, or a list of numbers. -/
def readBytes : JsonValue → Option Bytes
  | .string text => some text
  | .array items => items.mapM fun item => do
    let v ← readInt looseInt item
    if 0 ≤ v ∧ v < 256 then some (UInt8.ofNat v.toNat) else none
  | _ => none

def readOptional {α : Type} (read : JsonValue → Option α) : JsonValue → Option (Option α)
  | .null => some none
  | json => (read json).map some

/-- A field that is given twice is refused; unknown fields are ignored. -/
def readField {α : Type} (entries : List (String × JsonValue)) (name : String)
    (read : JsonValue → Option α) (default : Option α) : Option α :=
  match entries.filter fun e => e.1 = name with
  | [] => default
  | [e] => read e.2
  | _ => none

def TicketSessionJson.read : JsonValue → Option TicketSessionJson
  | .object entries => do
    let externalId ← readField entries "externalId" (readOptional (readBytes looseInt)) (some none)
    let isAnonymous ← readField entries "isAnonymous" readBool (some false)
    let tokenExpiresAt ← readField entries "tokenExpiresAt" (readOptional (readInt looseInt)) (some none)
    let claims ← readField entries "claims"
      (readOptional fun json => if hasUniqueKeys json then some json else none) (some none)
    some { externalId, isAnonymous, tokenExpiresAt, claims }
  | _ => none

def TicketJson.read : JsonValue → Option TicketJson
  | .object entries => do
    let sub ← readField entries "sub" (readBytes looseInt) none
    let exp ← readField entries "exp" (readInt looseInt) none
    let jti ← readField entries "jti" (readBytes looseInt) none
    let session ← readField entries "session" (readOptional (TicketSessionJson.read looseInt)) (some none)
    some { sub, exp, jti, session }
  | _ => none

/-- The standard library, with a signature function. -/
def ticketLibrary (hmac : Bytes → Bytes → Bytes) : TicketLibrary where
  hmac := hmac
  urlDecode := decode
  parseTicket input := (parse input).bind (TicketJson.read looseInt)

end Payload

def generateTicket (hmac : Bytes → Bytes → Bytes) (ticketSecret jtiBytes : Bytes)
    (now ttlSeconds : ℤ) (subject : Bytes) (isAnonymous : Bool) (tokenExpiresAt : ℤ)
    (claims : SessionClaims) : Except WriteFailure Bytes := do
  let exp := now + ttlSeconds
  let w := ({} : Writer).beginObject.field (textOf "sub") subject
  let w := (w.intField (textOf "exp") exp).field (textOf "jti") (hexOf jtiBytes)
  let w := (w.beginObjectField (textOf "session")).field (textOf "externalId") subject
  let w := w.boolField (textOf "isAnonymous") isAnonymous
  let w := w.intField (textOf "tokenExpiresAt") tokenExpiresAt
  let w ← claims.foldlM (fun w e => do return w.rawField (textOf e.1) (← writeJson e.2))
    (w.beginObjectField (textOf "claims"))
  let payload := encode w.endObject.endObject.endObject.buf
  return ticketPrefix ++ payload ++ 46 :: encode (hmac ticketSecret payload)

/-- A session that the validation of a token opens: its subject is a text of the payload, and its
claims are the ones of the payload that the configuration maps. -/
def AcceptedByJwt (subject : Bytes) (expiresAt : ℤ) (claims : SessionClaims) : Prop :=
  -2 ^ 63 ≤ expiresAt ∧ expiresAt < 2 ^ 63 ∧
    ∃ payload obj subjectClaim mapping, parse payload = some (.object obj) ∧
      hasUniqueKeys (.object obj) = true ∧ obj.lookup subjectClaim = some (.string subject) ∧
      extractClaimsFromPayload (.object obj) [] mapping = .ok claims

variable {jsons : List JsonValue}

section Claims

variable {claims : SessionClaims}

lemma put_of_absent {key : String} {v : Value} (h : ∀ e ∈ claims, eqKey e.1 key = false) :
    put eqKey key v claims = claims ++ [(key, v)] := by
  induction claims with
  | nil => rfl
  | cons e claims ih =>
    obtain ⟨he, hclaims⟩ := forall_mem_cons.mp h
    rw [put, if_neg (by rw [he]; exact Bool.false_ne_true), ih hclaims]
    rfl

lemma distinct_extractClaimsFromPayload {payload : JsonValue} {mapping : List (String × String)}
    {result : SessionClaims} (hclaims : Distinct eqKey claims)
    (h : extractClaimsFromPayload payload claims mapping = .ok result) : Distinct eqKey result := by
  induction mapping generalizing claims with
  | nil =>
    cases h
    exact hclaims
  | cons m mapping ih =>
    cases payload with
    | object obj =>
      rw [extractClaimsFromPayload] at h
      cases hm : obj.lookup m.1 with
      | none =>
        rw [hm] at h
        exact ih hclaims h
      | some json =>
        rw [hm] at h
        obtain ⟨v, -, h⟩ := bind_eq_ok.mp h
        exact ih (distinct_put eqKey hclaims) h
    | _ =>
      cases h
      exact hclaims

/-- Claims that were read from JSON values, each under a key of its own, are read from these again. -/
lemma extractClaims_zip {rest : SessionClaims}
    (h : List.Forall₂ (fun (e : String × Value) json => fromDynamicJson json = .ok e.2) rest jsons)
    (hd : Distinct eqKey (claims ++ rest)) :
    extractClaims claims (List.zipWith (fun e json => (e.1, json)) rest jsons) = .ok (claims ++ rest) := by
  induction h generalizing claims with
  | nil => rw [append_nil]; rfl
  | @cons e json rest jsons hjson _ ih =>
    have habsent : ∀ e' ∈ claims, eqKey e'.1 e.1 = false := fun e' he' =>
      (pairwise_append.mp hd).2.2 e' he' e mem_cons_self
    have hassoc : claims ++ e :: rest = (claims ++ [(e.1, e.2)]) ++ rest := by simp
    rw [zipWith_cons_cons, extractClaims, hjson]
    change extractClaims (put eqKey e.1 e.2 claims) _ = _
    rw [put_of_absent habsent, ih (hassoc ▸ hd), hassoc]

lemma hasUniqueKeys_of_claim {json : JsonValue} {v : Value} (h : fromDynamicJson json = .ok v) :
    hasUniqueKeys json = true := by
  cases json with
  | object entries => cases h
  | array items =>
    rw [fromDynamicJson] at h
    split_ifs at h
    obtain ⟨ss, hss, -⟩ := map_eq_ok.mp h
    rw [hasUniqueKeys]
    refine itemsHaveUniqueKeys_of_forall fun item hitem => ?_
    obtain ⟨i, hi, rfl⟩ := getElem_of_mem hitem
    have hall := mapM_eq_ok.mp hss
    have hs := hall.get hi (hall.length_eq ▸ hi)
    rw [get_eq_getElem] at hs
    generalize items[i] = item at hs ⊢
    cases item with
    | object entries => cases hs
    | array items => cases hs
    | _ => rfl
  | _ => rfl

end Claims

section Ticket

variable {hmac : Bytes → Bytes → Bytes} {ticketSecret jtiBytes subject : Bytes}
  {exp tokenExpiresAt : ℤ} {isAnonymous : Bool} {claims : SessionClaims}

def objectText (texts : List Bytes) : Bytes := 123 :: (separated texts ++ [125])

/-- The payload of a ticket as it is written. -/
def payloadText (jtiBytes : Bytes) (exp : ℤ) (subject : Bytes) (isAnonymous : Bool)
    (tokenExpiresAt : ℤ) (claims : SessionClaims) : Bytes :=
  objectText [memberText (textOf "sub") (quoted subject),
    memberText (textOf "exp") (integerText exp), memberText (textOf "jti") (quoted (hexOf jtiBytes)),
    memberText (textOf "session") (objectText [memberText (textOf "externalId") (quoted subject),
      memberText (textOf "isAnonymous") (textOf (if isAnonymous then "true" else "false")),
      memberText (textOf "tokenExpiresAt") (integerText tokenExpiresAt),
      memberText (textOf "claims")
        (objectText (claims.map fun e => memberText (textOf e.1) (valueText e.2)))])]

lemma buf_object (texts : List Bytes) :
    ((texts.foldl (fun w text => w.item text) ({ : Writer }).beginObject).endObject).buf =
      objectText texts := by
  have hbuf := Writer.buf_items ({ : Writer }).beginObject texts
  change (texts.foldl (fun w text => w.item text) ({ : Writer }).beginObject).buf ++ [125] = _
  rw [hbuf]
  cases texts with
  | nil => rfl
  | cons text texts => simp [Writer.beginObject, Writer.append, objectText]

lemma buf_payload (sub exp jti externalId isAnonymous tokenExpiresAt : Bytes) (claims : List Bytes) :
    (claims.foldl (fun w text => w.item text)
      ((((((((({ : Writer }).beginObject.item sub).item exp).item jti).beginObjectField
        (textOf "session")).item externalId).item isAnonymous).item tokenExpiresAt).beginObjectField
          (textOf "claims"))).endObject.endObject.endObject.buf =
      objectText [sub, exp, jti, memberText (textOf "session") (objectText [externalId, isAnonymous,
        tokenExpiresAt, memberText (textOf "claims") (objectText claims)])] := by
  rw [Writer.objectField_eq]
  have hsession := Writer.objectField_eq (((({ : Writer }).beginObject.item sub).item exp).item jti)
    (textOf "session") [externalId, isAnonymous, tokenExpiresAt,
      memberText (textOf "claims") (objectText claims)]
  simp only [foldl_cons, foldl_nil] at hsession
  refine (congrArg (fun w : Writer => w.endObject.buf) hsession).trans ?_
  exact buf_object [sub, exp, jti, memberText (textOf "session") (objectText [externalId, isAnonymous,
    tokenExpiresAt, memberText (textOf "claims") (objectText claims)])]

lemma generateTicket_eq (now ttlSeconds : ℤ) :
    generateTicket hmac ticketSecret jtiBytes now ttlSeconds subject isAnonymous tokenExpiresAt claims =
      if ∀ e ∈ claims, e.2.FitsBuffer then
        let payload := encode (payloadText jtiBytes (now + ttlSeconds) subject isAnonymous
          tokenExpiresAt claims)
        .ok (ticketPrefix ++ payload ++ 46 :: encode (hmac ticketSecret payload))
      else .error .writeFailed := by
  have hclaim (w : Writer) (e : String × Value) :
      (do return w.rawField (textOf e.1) (← writeJson e.2) : Except WriteFailure Writer) =
        if e.2.FitsBuffer then .ok (w.item (memberText (textOf e.1) (valueText e.2)))
        else .error .writeFailed := by
    rw [writeJson_eq]
    split_ifs
    · exact congrArg Except.ok (Writer.rawField_eq w _ _)
    · rfl
  simp only [generateTicket, foldlM_items hclaim, Writer.field_eq, Writer.intField_eq, Writer.boolField_eq]
  by_cases hfits : ∀ e ∈ claims, e.2.FitsBuffer
  · rw [if_pos hfits, if_pos hfits]
    exact congrArg (fun payload => Except.ok (ticketPrefix ++ encode payload ++
      46 :: encode (hmac ticketSecret (encode payload)))) (buf_payload ..)
  · rw [if_neg hfits, if_neg hfits]
    rfl

/-- The JSON values of claims under their names. -/
def claimEntries (claims : SessionClaims) (jsons : List JsonValue) : List (String × JsonValue) :=
  List.zipWith (fun e json => (e.1, json)) claims jsons

/-- Each claim was taken from a value that the JSON reader gave. -/
def TakenFrom (claims : SessionClaims) (jsons : List JsonValue) : Prop :=
  List.Forall₂ (fun e json => WellFormed json ∧ fromDynamicJson json = .ok e.2) claims jsons

lemma reads_claims {depth : ℕ} (h : TakenFrom claims jsons) :
    ReadsValue (depth + 3) (objectText (claims.map fun e => memberText (textOf e.1) (valueText e.2)))
      (.object (claimEntries claims jsons)) := by
  refine object (forall₂_map_left_iff.mpr ?_)
  induction h with
  | nil => exact .nil
  | @cons e json claims jsons hjson _ ih =>
    exact .cons (member (readsValue_value hjson.1 hjson.2)) ih

lemma parse_payloadText (hsubject : (Utf.readUtf8 subject).isSome) (hexp : -2 ^ 63 ≤ exp ∧ exp < 2 ^ 63)
    (hexpires : -2 ^ 63 ≤ tokenExpiresAt ∧ tokenExpiresAt < 2 ^ 63)
    (hclaims : TakenFrom claims jsons) :
    parse (payloadText jtiBytes exp subject isAnonymous tokenExpiresAt claims) =
      some (.object [("sub", .string subject), ("exp", .integer exp),
        ("jti", .string (hexOf jtiBytes)), ("session", .object [("externalId", .string subject),
          ("isAnonymous", .bool isAnonymous), ("tokenExpiresAt", .integer tokenExpiresAt),
          ("claims", .object (claimEntries claims jsons))])]) := by
  have hlength : 4 ≤ (payloadText jtiBytes exp subject isAnonymous tokenExpiresAt claims).length := by
    simp only [payloadText, objectText, separated, memberText, quoted, length_cons,
      length_append, cons_append]
    omega
  obtain ⟨depth, hdepth⟩ := Nat.exists_eq_add_of_le hlength
  refine parse_eq ?_
  rw [hdepth, show 4 + depth + 1 = depth + 5 by omega]
  refine object (.cons (member (text hsubject))
    (.cons (member (integer hexp.1 hexp.2))
      (.cons (member (text (isSome_readUtf8_hexOf jtiBytes)))
        (.cons (member ?_) .nil))))
  exact object (.cons (member (text hsubject))
    (.cons (member (Reads.bool isAnonymous))
      (.cons (member (integer hexpires.1 hexpires.2))
        (.cons (member (reads_claims hclaims)) .nil))))

lemma hasUniqueKeys_claimEntries (hd : Distinct eqKey claims)
    (h : TakenFrom claims jsons) : hasUniqueKeys (.object (claimEntries claims jsons)) = true := by
  have hkeys : (claimEntries claims jsons).map Prod.fst = claims.map Prod.fst := by
    clear hd
    induction h with
    | nil => rfl
    | @cons e json claims jsons _ _ ih => exact congrArg (e.1 :: ·) ih
  have hnodup : (claims.map Prod.fst).Nodup := by
    refine pairwise_map.mpr (hd.imp fun hne => ?_)
    exact (eqKey_eq_false _ _).mp hne
  have hvalues : ∀ e ∈ claimEntries claims jsons, hasUniqueKeys e.2 = true := by
    clear hd hkeys hnodup
    induction h with
    | nil => exact fun e he => absurd he not_mem_nil
    | @cons e json claims jsons hjson _ ih =>
      exact forall_mem_cons.mpr ⟨hasUniqueKeys_of_claim hjson.2, ih⟩
  rw [hasUniqueKeys, hkeys, decide_eq_true hnodup, entriesHaveUniqueKeys_of_forall hvalues]
  rfl

lemma read_payload (looseInt : JsonValue → Option ℤ) {exp : ℤ} {jti : Bytes}
    {entries : List (String × JsonValue)}
    (h : hasUniqueKeys (.object entries) = true) :
    TicketJson.read looseInt (.object [("sub", .string subject), ("exp", .integer exp),
      ("jti", .string jti), ("session", .object [("externalId", .string subject),
        ("isAnonymous", .bool isAnonymous), ("tokenExpiresAt", .integer tokenExpiresAt),
        ("claims", .object entries)])]) =
      some ⟨subject, exp, jti,
        some ⟨some subject, isAnonymous, some tokenExpiresAt, some (.object entries)⟩⟩ := by
  have hsession : TicketSessionJson.read looseInt (.object [("externalId", .string subject),
      ("isAnonymous", .bool isAnonymous), ("tokenExpiresAt", .integer tokenExpiresAt),
      ("claims", .object entries)]) =
      some ⟨some subject, isAnonymous, some tokenExpiresAt, some (.object entries)⟩ := by
    simp [TicketSessionJson.read, readField, readOptional, readBytes, readBool, readInt, h]
  simp [TicketJson.read, readField, readOptional, readBytes, readInt, hsession]

end Ticket

section Verification

lemma stripBase64Padding_encode (bytes : Bytes) :
    stripBase64Padding (encode bytes) = encode bytes := by
  unfold stripBase64Padding
  have hmem : ∀ c ∈ (encode bytes).reverse, c ≠ 61 := fun c hc =>
    (encode_ne bytes (mem_reverse.mp hc)).2
  have hdrop : (encode bytes).reverse.dropWhile (fun c => decide (c = 61)) =
      (encode bytes).reverse := by
    cases hrev : (encode bytes).reverse with
    | nil => rfl
    | cons c cs =>
      rw [dropWhile_cons, decide_eq_false (hmem c (hrev ▸ mem_cons_self))]
      rfl
  rw [hdrop, reverse_reverse]

lemma parseTicketParts_encode (payload sig : Bytes) :
    parseTicketParts (ticketPrefix ++ encode payload ++ 46 :: encode sig) =
      .ok (encode payload, encode sig) := by
  have hdot (bytes : Bytes) : ∀ c ∈ encode bytes, (c == 46) = false := fun c hc =>
    beq_eq_false_iff_ne.mpr (encode_ne bytes hc).1
  have hprefix : ticketPrefix.isPrefixOf
      (ticketPrefix ++ encode payload ++ 46 :: encode sig) = true := by
    rw [append_assoc, isPrefixOf_iff_prefix]
    exact prefix_append _ _
  have hsplit : (encode payload ++ 46 :: encode sig).splitOn 46 =
      [encode payload, encode sig] := by
    rw [splitOn_eq_splitOnP, splitOnP_append_cons_of_forall_mem (hdot payload) 46 (by decide),
      splitOnP_eq_singleton (hdot sig)]
  rw [parseTicketParts, if_pos hprefix, append_assoc, drop_left, hsplit]

variable {looseInt : JsonValue → Option ℤ} {hmac : Bytes → Bytes → Bytes}

lemma readTicket_signed (ticketSecret : Bytes) (hhmac : ∀ key bytes, (hmac key bytes).length = 32)
    {payload : Bytes} {json : JsonValue} {t : TicketJson} (hjson : parse payload = some json)
    (ht : TicketJson.read looseInt json = some t) :
    readTicket (ticketLibrary looseInt hmac) ticketSecret {} (ticketPrefix ++ encode payload ++
      46 :: encode (hmac ticketSecret (encode payload))) = .ok t := by
  have hsigned : verifyTicketHmac (ticketLibrary looseInt hmac) ticketSecret (encode payload)
      (encode (hmac ticketSecret (encode payload))) = .ok () := by
    simp only [verifyTicketHmac, ticketLibrary, stripBase64Padding_encode, decode_encode]
    rw [if_neg (not_not.mpr (hhmac _ _)), if_pos trivial]
  have hparse : (ticketLibrary looseInt hmac).parseTicket payload = some t := by
    change (parse payload).bind (TicketJson.read looseInt) = some t
    rw [hjson]
    exact ht
  have hdecode : (ticketLibrary looseInt hmac).urlDecode
      (stripBase64Padding (encode payload)) = some payload := by
    rw [stripBase64Padding_encode]
    exact decode_encode payload
  rw [readTicket, parseTicketParts_encode]
  change (verifyTicketHmac _ _ _ _ >>= fun _ => _) = _
  rw [hsigned]
  rw [ok_bind, hdecode]
  simp [hparse]

lemma redeemTicket_fresh {x : TicketExchange} {jti : Bytes} (exp now : ℤ)
    (h : find eqKey jti x.redeemedTickets = none) : (x.redeemTicket {} jti exp now).1 = .ok () := by
  have hcounted : find eqKey jti (x.countVerification {} now).redeemedTickets = none := by
    unfold TicketExchange.countVerification
    dsimp only
    split_ifs
    · exact find_filter_of_none eqKey h
    · exact h
  unfold TicketExchange.redeemTicket
  dsimp only
  rw [if_neg (by rw [hcounted]; exact Bool.false_ne_true)]
  rfl

end Verification

lemma exists_takenFrom {subject : Bytes} {expiresAt : ℤ} {claims : SessionClaims}
    (h : AcceptedByJwt subject expiresAt claims) : (Utf.readUtf8 subject).isSome ∧
      Distinct eqKey claims ∧ ∃ jsons, TakenFrom claims jsons := by
  obtain ⟨-, -, payload, obj, subjectClaim, mapping, hparse, -, hsubject, hclaims⟩ := h
  have hobj : ∀ e ∈ obj, WellFormed e.2 := by
    cases wellFormed_parse hparse with
    | object h => exact h
  refine ⟨?_, distinct_extractClaimsFromPayload List.Pairwise.nil hclaims, ?_⟩
  · cases hobj _ (mem_of_lookup hsubject) with
    | string h => exact h
  · have hread : ReadFrom (obj.map Prod.snd) claims :=
      readFrom_extractClaimsFromPayload (fun e he => absurd he not_mem_nil) hclaims
    have hexists : ∀ e ∈ claims, ∃ json, WellFormed json ∧ fromDynamicJson json = .ok e.2 := by
      intro e he
      obtain ⟨json, hjson, hvalue⟩ := hread e he
      obtain ⟨entry, hentry, rfl⟩ := mem_map.mp hjson
      exact ⟨entry.2, hobj entry hentry, hvalue⟩
    clear hclaims hread
    induction claims with
    | nil => exact ⟨[], .nil⟩
    | cons e claims ih =>
      obtain ⟨⟨json, hjson⟩, hrest⟩ := forall_mem_cons.mp hexists
      obtain ⟨jsons, hjsons⟩ := ih hrest
      exact ⟨json :: jsons, .cons hjson hjsons⟩

namespace TicketExample

def payload (level : Value) : Bytes :=
  objectText [memberText (textOf "sub") (quoted (textOf "u")),
    memberText (textOf "exp") (integerText 9), memberText (textOf "level") (valueText level)]

lemma accepted {json : JsonValue} {level : Value} (hjson : WellFormed json)
    (hlevel : fromDynamicJson json = .ok level) : AcceptedByJwt (textOf "u") 9 [("level", level)] := by
  refine ⟨by decide, by decide, payload level,
    [("sub", .string (textOf "u")), ("exp", .integer 9), ("level", json)], "sub",
    [("level", "level")], ?_, ?_, rfl, ?_⟩
  · have hlength : 2 ≤ (payload level).length := by
      simp only [payload, objectText, length_cons, length_append]
      omega
    obtain ⟨depth, hdepth⟩ := Nat.exists_eq_add_of_le hlength
    refine parse_eq ?_
    rw [hdepth, show 2 + depth + 1 = depth + 3 by omega]
    exact object (.cons (member (text (isSome_readUtf8_textOf "u")))
      (.cons (member (integer (by decide) (by decide)))
        (.cons (member (readsValue_value hjson hlevel)) .nil)))
  · have hunique := hasUniqueKeys_of_claim hlevel
    simp [hasUniqueKeys, entriesHaveUniqueKeys, hunique]
  · change (fromDynamicJson json >>= fun _ => _) = _
    rw [hlevel]
    rfl

def large : Real64 := ⟨false, DoubleText.nearest (10 ^ 100) 1, by decide +kernel⟩

end TicketExample

/-- A session that a token opens is opened again by the ticket that is generated for it, as long as
the ticket has not expired and was not redeemed, exactly when the text of every double in its claims
fits the buffer of the writer. -/
theorem ticket_opens_session_iff (looseInt : JsonValue → Option ℤ) (hmac : Bytes → Bytes → Bytes)
    (hhmac : ∀ key bytes, (hmac key bytes).length = 32) {subject : Bytes} {expiresAt : ℤ}
    {claims : SessionClaims} (haccepted : AcceptedByJwt subject expiresAt claims)
    (ticketSecret jtiBytes : Bytes) (now ttlSeconds : ℤ)
    (hexp : -2 ^ 63 ≤ now + ttlSeconds ∧ now + ttlSeconds < 2 ^ 63) :
    (∃ ticket, generateTicket hmac ticketSecret jtiBytes now ttlSeconds subject false expiresAt
        claims = .ok ticket ∧
      ∀ (x : TicketExchange) (later : ℤ), x.ticketSecret = ticketSecret →
        find eqKey (hexOf jtiBytes) x.redeemedTickets = none → later < now + ttlSeconds →
        (x.verifyTicket (ticketLibrary looseInt hmac) {} later ticket).1 =
          .ok ⟨subject, false, expiresAt, claims⟩) ↔ ∀ e ∈ claims, e.2.FitsBuffer := by
  rw [generateTicket_eq]
  constructor
  · rintro ⟨ticket, hticket, -⟩
    by_contra hfits
    rw [if_neg hfits] at hticket
    cases hticket
  · intro hfits
    rw [if_pos hfits]
    refine ⟨_, rfl, fun x later hsecret hfresh hlater => ?_⟩
    obtain ⟨hsubject, hdistinct, jsons, htaken⟩ := exists_takenFrom haccepted
    have hparse : parse (payloadText jtiBytes (now + ttlSeconds) subject false expiresAt claims) = some _ :=
      parse_payloadText hsubject hexp ⟨haccepted.1, haccepted.2.1⟩ htaken
    have hread := readTicket_signed ticketSecret hhmac hparse
      (read_payload looseInt (hasUniqueKeys_claimEntries hdistinct htaken))
    have hclaims : extractClaims [] (claimEntries claims jsons) = .ok claims :=
      extractClaims_zip (htaken.imp fun _ _ h => h.2) hdistinct
    rw [TicketExchange.verifyTicket, hsecret, hread]
    dsimp only
    rw [if_neg (not_le.mpr hlater)]
    have hredeemed := redeemTicket_fresh (now + ttlSeconds) later hfresh
    generalize x.redeemTicket {} (hexOf jtiBytes) (now + ttlSeconds) later = redeemed at hredeemed ⊢
    obtain ⟨result, x'⟩ := redeemed
    cases hredeemed
    simp [TicketJson.openSession, ticketClaims, hclaims, Except.mapError]

namespace TicketExample

/-- A session whose level is a text is opened again. -/
theorem ticket_opens_session :
    ∃ ticket, generateTicket (fun _ _ => List.replicate 32 0) [1] [2, 3] 5 60 (textOf "u") false 9
        [("level", .scalar (.text (textOf "a")))] = .ok ticket ∧
      ∀ (x : TicketExchange) (later : ℤ), x.ticketSecret = [1] →
        find eqKey (hexOf [2, 3]) x.redeemedTickets = none → later < 5 + 60 →
        (x.verifyTicket (ticketLibrary (fun _ => none) fun _ _ => List.replicate 32 0) {} later
            ticket).1 = .ok ⟨textOf "u", false, 9, [("level", .scalar (.text (textOf "a")))]⟩ :=
  (ticket_opens_session_iff (fun _ => none) (fun _ _ => List.replicate 32 0)
    (fun _ _ => List.length_replicate) (accepted (.string (isSome_readUtf8_textOf "a")) rfl)
    [1] [2, 3] 5 60 (by decide)).mpr (by decide)

/-- No ticket is generated for a session whose level is `1e100`. -/
theorem large_level_refused : AcceptedByJwt (textOf "u") 9 [("level", .scalar (.real large))] ∧
    ¬ ∃ ticket, generateTicket (fun _ _ => List.replicate 32 0) [1] [2, 3] 5 60 (textOf "u") false 9
      [("level", .scalar (.real large))] = .ok ticket := by
  refine ⟨accepted (.float large) rfl, ?_⟩
  have hfits : ¬ (Value.scalar (.real large)).FitsBuffer := by decide +kernel
  rintro ⟨ticket, hticket⟩
  rw [generateTicket_eq, if_neg fun h => hfits (h _ List.mem_cons_self)] at hticket
  cases hticket

end TicketExample

end ZyncBase
