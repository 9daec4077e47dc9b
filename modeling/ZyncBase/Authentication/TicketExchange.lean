import ZyncBase.Authentication.Claims

/-! The verification of tickets. A ticket is signed, names the time when it expires and is redeemed
once: the ids of redeemed tickets are kept until they have expired. -/
namespace ZyncBase

open AssocMap Outcome

structure TicketSessionJson where
  externalId : Option Bytes := none
  isAnonymous : Bool := false
  tokenExpiresAt : Option ℤ := none
  claims : Option JsonValue := none

/-- The payload of a ticket. -/
structure TicketJson where
  sub : Bytes
  exp : ℤ
  jti : Bytes
  session : Option TicketSessionJson := none

/-- The session that a verified ticket opens. -/
structure TicketSession where
  externalId : Bytes
  isAnonymous : Bool
  tokenExpiresAt : ℤ
  claims : SessionClaims

inductive TicketError where
  | invalidTicket | invalidBase64 | authFailed | tokenExpired | outOfMemory
  | claim (e : ClaimError)
  deriving DecidableEq

/-- The functions of the standard library that tickets are read with. -/
structure TicketLibrary where
  hmac : Bytes → Bytes → Bytes
  urlDecode : Bytes → Option Bytes
  parseTicket : Bytes → Option TicketJson

/-- The allocations that fail during a verification. -/
structure Shortage where
  payload : Bool := false
  json : Bool := false
  jti : Bool := false
  redeemed : Bool := false
  externalId : Bool := false
  claims : Bool := false
  expiredKey : Bytes → Bool := fun _ => false

structure TicketExchange where
  ticketSecret : Bytes
  redeemedTickets : List (Bytes × ℤ) := []
  verificationsSinceCleanup : ℕ := 0
  cleanupInterval : ℕ := 100

def stripBase64Padding (input : Bytes) : Bytes := (input.reverse.dropWhile (· = 61)).reverse

def ticketPrefix : Bytes := [122, 121, 99, 95, 116, 107, 95]

/-- The payload and the signature, separated by the only dot. -/
def parseTicketParts (ticket : Bytes) : Except TicketError (Bytes × Bytes) :=
  if ticketPrefix.isPrefixOf ticket then
    match (ticket.drop ticketPrefix.length).splitOn 46 with
    | [payload, sig] => .ok (payload, sig)
    | _ => .error .invalidTicket
  else .error .invalidTicket

section Verify

variable (lib : TicketLibrary)

def verifyTicketHmac (ticketSecret payload sig : Bytes) : Except TicketError Unit :=
  match lib.urlDecode (stripBase64Padding sig) with
  | none => .error .invalidBase64
  | some bytes =>
    if bytes.length ≠ 32 then .error .invalidBase64
    else if lib.hmac ticketSecret payload = bytes then .ok ()
    else .error .authFailed

/-- The payload of a ticket with a valid signature. -/
def readTicket (ticketSecret : Bytes) (lack : Shortage) (ticket : Bytes) : Except TicketError TicketJson := do
  let (payload, sig) ← parseTicketParts ticket
  verifyTicketHmac lib ticketSecret payload sig
  match lib.urlDecode (stripBase64Padding payload) with
  | none => .error .invalidBase64
  | some json =>
    if lack.payload || lack.json then .error .outOfMemory
    else match lib.parseTicket json with
      | none => .error .invalidTicket
      | some t => .ok t

namespace TicketExchange

/-- A key that cannot be collected stays. -/
def cleanupExpiredTicketsLocked (lack : Shortage) (now : ℤ) (x : TicketExchange) : TicketExchange :=
  { x with redeemedTickets := x.redeemedTickets.filter fun e => now < e.2 || lack.expiredKey e.1 }

/-- Every so many verifications clean up. -/
def countVerification (lack : Shortage) (now : ℤ) (x : TicketExchange) : TicketExchange :=
  let counted := { x with verificationsSinceCleanup := x.verificationsSinceCleanup + 1 }
  if counted.cleanupInterval ≤ counted.verificationsSinceCleanup then
    { counted.cleanupExpiredTicketsLocked lack now with verificationsSinceCleanup := 0 }
  else counted

def redeemTicket (lack : Shortage) (jti : Bytes) (exp now : ℤ) (x : TicketExchange) :
    Except TicketError Unit × TicketExchange :=
  let x := x.countVerification lack now
  if (find eqKey jti x.redeemedTickets).isSome then (.error .authFailed, x)
  else if lack.jti || lack.redeemed then (.error .outOfMemory, x)
  else (.ok (), { x with redeemedTickets := put eqKey jti exp x.redeemedTickets })

end TicketExchange

/-- Claims that are no object, or an empty one, are none. -/
def ticketClaims (session : Option TicketSessionJson) : Except TicketError SessionClaims :=
  match session.bind TicketSessionJson.claims with
  | some (.object entries) => (extractClaims [] entries).mapError .claim
  | _ => .ok []

def TicketJson.openSession (lack : Shortage) (t : TicketJson) : Except TicketError TicketSession :=
  if lack.externalId || lack.claims then .error .outOfMemory
  else do
    let claims ← ticketClaims t.session
    match t.session.bind TicketSessionJson.tokenExpiresAt with
    | none => .error .invalidTicket
    | some tokenExpiresAt =>
      .ok { externalId := (t.session.bind TicketSessionJson.externalId).getD t.sub
            isAnonymous := (t.session.map TicketSessionJson.isAnonymous).getD false
            tokenExpiresAt
            claims }

namespace TicketExchange

def verifyTicket (lack : Shortage) (now : ℤ) (ticket : Bytes) (x : TicketExchange) :
    Except TicketError TicketSession × TicketExchange :=
  match readTicket lib x.ticketSecret lack ticket with
  | .error e => (.error e, x)
  | .ok t =>
    if t.exp ≤ now then (.error .tokenExpired, x)
    else match x.redeemTicket lack t.jti t.exp now with
      | (.error e, x) => (.error e, x)
      | (.ok (), x) => (t.openSession lack, x)

end TicketExchange

inductive TicketEvent where
  | verify (ticket : Bytes) (lack : Shortage)
  | cleanUp (lack : Shortage)

namespace TicketExchange

/-- The events with the time that the clock shows; the answers to the verifications, with their
tickets. -/
def answers : TicketExchange → List (ℤ × TicketEvent) → List (Bytes × Except TicketError TicketSession)
  | _, [] => []
  | x, (now, .verify ticket lack) :: events =>
    (ticket, (x.verifyTicket lib lack now ticket).1) :: answers (x.verifyTicket lib lack now ticket).2 events
  | x, (now, .cleanUp lack) :: events => answers (x.cleanupExpiredTicketsLocked lack now) events

/-- The ticket cannot be redeemed any more: its id is kept, or it has expired. -/
def Spent (jti : Bytes) (exp now : ℤ) (x : TicketExchange) : Prop :=
  find eqKey jti x.redeemedTickets = some exp ∨ exp ≤ now

section Redemption

variable {lib} {x : TicketExchange} {lack : Shortage} {jti jti' ticket : Bytes} {exp exp' now now' : ℤ}

lemma Spent.mono (h : x.Spent jti exp now) (hnow : now ≤ now') : x.Spent jti exp now' :=
  h.imp_right fun hexp => hexp.trans hnow

lemma Spent.cleanup (h : x.Spent jti exp now) : (x.cleanupExpiredTicketsLocked lack now).Spent jti exp now := by
  by_cases hexp : exp ≤ now
  · exact .inr hexp
  · have hkept := h.resolve_right hexp
    refine .inl (find_filter_of_find eqKey hkept fun k _ => ?_)
    rw [decide_eq_true (not_le.mp hexp), Bool.true_or]

lemma Spent.count (h : x.Spent jti exp now) : (x.countVerification lack now).Spent jti exp now := by
  unfold countVerification
  dsimp only
  split_ifs
  · exact h.cleanup
  · exact h

lemma Spent.redeem (h : x.Spent jti exp now) : (x.redeemTicket lack jti' exp' now).2.Spent jti exp now := by
  have hcounted : (x.countVerification lack now).Spent jti exp now := h.count
  unfold redeemTicket
  dsimp only
  split_ifs with hknown
  · exact hcounted
  · exact hcounted
  · refine hcounted.imp_left fun hkept => ?_
    rw [find_put, if_neg, hkept]
    intro hsame
    rw [(eqKey_iff _ _).mp hsame, hkept] at hknown
    exact hknown rfl

lemma Spent.verify (h : x.Spent jti exp now) : (x.verifyTicket lib lack now ticket).2.Spent jti exp now := by
  unfold verifyTicket
  cases readTicket lib x.ticketSecret lack ticket with
  | error e => exact h
  | ok t =>
    dsimp only
    have hredeemed : (x.redeemTicket lack t.jti t.exp now).2.Spent jti exp now := h.redeem
    split_ifs
    · exact h
    · split
      case h_1 heq =>
        rw [heq] at hredeemed
        exact hredeemed
      case h_2 heq =>
        rw [heq] at hredeemed
        exact hredeemed

lemma spent_of_redeem (h : (x.redeemTicket lack jti exp now).1 = .ok ()) :
    (x.redeemTicket lack jti exp now).2.Spent jti exp now := by
  unfold redeemTicket at h ⊢
  dsimp only at h ⊢
  split_ifs at h ⊢
  exact .inl (by rw [find_put, if_pos (KeyTest.self eqKey jti)])

lemma not_redeem_of_spent (h : x.Spent jti exp now) (hexp : ¬ exp ≤ now) :
    (x.redeemTicket lack jti exp' now).1 = .error .authFailed := by
  have hcounted : (x.countVerification lack now).Spent jti exp now := h.count
  have hkept := hcounted.resolve_right hexp
  unfold redeemTicket
  dsimp only
  rw [if_pos (by rw [hkept]; rfl)]

lemma spent_of_verify {session : TicketSession} (h : (x.verifyTicket lib lack now ticket).1 = .ok session) :
    ∃ t, readTicket lib x.ticketSecret lack ticket = .ok t ∧
      (x.verifyTicket lib lack now ticket).2.Spent t.jti t.exp now := by
  unfold verifyTicket at h ⊢
  cases hread : readTicket lib x.ticketSecret lack ticket with
  | error e =>
    rw [hread] at h
    cases h
  | ok t =>
    rw [hread] at h
    dsimp only at h ⊢
    refine ⟨t, rfl, ?_⟩
    split_ifs at h ⊢
    have hspent : (x.redeemTicket lack t.jti t.exp now).1 = .ok () →
      (x.redeemTicket lack t.jti t.exp now).2.Spent t.jti t.exp now := spent_of_redeem
    cases hredeem : x.redeemTicket lack t.jti t.exp now with
    | mk result x' =>
      rw [hredeem] at h hspent
      cases result with
      | error e => cases h
      | ok u => exact hspent rfl

lemma readTicket_unique {ticketSecret : Bytes} {lack' : Shortage} {t t' : TicketJson}
    (h : readTicket lib ticketSecret lack ticket = .ok t)
    (h' : readTicket lib ticketSecret lack' ticket = .ok t') : t = t' := by
  obtain ⟨parts, hparts, h⟩ := bind_eq_ok.mp h
  obtain ⟨parts', hparts', h'⟩ := bind_eq_ok.mp h'
  rw [hparts] at hparts'
  cases hparts'
  obtain ⟨_, _, h⟩ := bind_eq_ok.mp h
  obtain ⟨_, _, h'⟩ := bind_eq_ok.mp h'
  cases hjson : lib.urlDecode (stripBase64Padding parts.1) with
  | none =>
    rw [hjson] at h
    cases h
  | some json =>
    simp only [hjson] at h h'
    split_ifs at h h'
    cases hparse : lib.parseTicket json with
    | none =>
      rw [hparse] at h
      cases h
    | some payload =>
      rw [hparse] at h h'
      cases h
      cases h'
      rfl

lemma not_verify_of_spent {t : TicketJson} {lack' : Shortage} (h : x.Spent t.jti t.exp now)
    (hread : readTicket lib x.ticketSecret lack' ticket = .ok t) (session : TicketSession) :
    (x.verifyTicket lib lack now ticket).1 ≠ .ok session := by
  unfold verifyTicket
  cases hread' : readTicket lib x.ticketSecret lack ticket with
  | error e => exact fun h => nomatch h
  | ok t' =>
    obtain rfl := readTicket_unique hread hread'
    dsimp only
    split_ifs with hexp
    · exact fun h => nomatch h
    · have hredeem : (x.redeemTicket lack t.jti t.exp now).1 = .error .authFailed :=
        not_redeem_of_spent h hexp
      cases hpair : x.redeemTicket lack t.jti t.exp now with
      | mk result x' =>
        rw [hpair] at hredeem
        cases hredeem
        exact fun h => nomatch h

@[simp] lemma ticketSecret_redeem : (x.redeemTicket lack jti exp now).2.ticketSecret = x.ticketSecret := by
  unfold redeemTicket countVerification
  dsimp only
  split_ifs <;> rfl

@[simp] lemma ticketSecret_verify : (x.verifyTicket lib lack now ticket).2.ticketSecret = x.ticketSecret := by
  unfold verifyTicket
  cases readTicket lib x.ticketSecret lack ticket with
  | error e => rfl
  | ok t =>
    dsimp only
    split_ifs
    · rfl
    · have hsecret : (x.redeemTicket lack t.jti t.exp now).2.ticketSecret = x.ticketSecret :=
        ticketSecret_redeem
      split
      case h_1 heq =>
        rw [heq] at hsecret
        exact hsecret
      case h_2 heq =>
        rw [heq] at hsecret
        exact hsecret

lemma answers_of_spent {events : List (ℤ × TicketEvent)} {t : TicketJson}
    (hspent : x.Spent t.jti t.exp now) (hread : readTicket lib x.ticketSecret lack ticket = .ok t)
    (hnow : ∀ e ∈ events, now ≤ e.1) (hclock : events.Pairwise fun a b => a.1 ≤ b.1) :
    ∀ a ∈ answers lib x events, a.1 = ticket → ∀ session, a.2 ≠ .ok session := by
  induction events generalizing x now with
  | nil => exact fun a ha => absurd ha List.not_mem_nil
  | cons e events ih =>
    obtain ⟨later, event⟩ := e
    obtain ⟨hlater, hrest⟩ := List.pairwise_cons.mp hclock
    have hspent := hspent.mono (hnow _ List.mem_cons_self)
    cases event with
    | verify ticket' lack' =>
      rw [answers, List.forall_mem_cons]
      refine ⟨?_, ih hspent.verify (by rwa [ticketSecret_verify]) hlater hrest⟩
      rintro rfl session
      exact not_verify_of_spent hspent hread session
    | cleanUp lack' => exact ih hspent.cleanup hread hlater hrest

end Redemption

/-- Whatever tickets are verified and whenever the redeemed ones are cleaned up, a ticket that was
redeemed is not redeemed again, as long as the clock does not go back. -/
theorem redeemed_at_most_once (lib : TicketLibrary) (x : TicketExchange)
    (events : List (ℤ × TicketEvent)) (hclock : events.Pairwise fun a b => a.1 ≤ b.1) :
    (answers lib x events).Pairwise fun a b =>
      b.1 = a.1 → (∃ session, a.2 = .ok session) → ∀ session, b.2 ≠ .ok session := by
  induction events generalizing x with
  | nil => exact List.Pairwise.nil
  | cons e events ih =>
    obtain ⟨now, event⟩ := e
    obtain ⟨hnow, hrest⟩ := List.pairwise_cons.mp hclock
    cases event with
    | verify ticket lack =>
      rw [answers, List.pairwise_cons]
      refine ⟨fun b hb hticket ⟨session, hok⟩ => ?_, ih _ hrest⟩
      obtain ⟨t, hread, hspent⟩ := spent_of_verify hok
      exact answers_of_spent hspent (by rwa [ticketSecret_verify]) hnow hrest b hb hticket
    | cleanUp lack => exact ih _ hrest

end TicketExchange
end Verify

namespace TicketExchangeExample

open TicketExchange

/-- A library that signs everything with zeros and reads one payload, that of a ticket which expires
at 10. -/
def toyLibrary : TicketLibrary where
  hmac _ _ := List.replicate 32 0
  urlDecode text := if text = [65] then some [123, 125] else some (List.replicate 32 0)
  parseTicket _ :=
    some { sub := [97], exp := 10, jti := [49], session := some { tokenExpiresAt := some 99 } }

def toyTicket : Bytes := ticketPrefix ++ [65, 46, 66]

/-- The ticket is verified twice before it expires and once after the redeemed one is cleaned up. -/
def visits : List (ℤ × TicketEvent) :=
  [(5, .verify toyTicket {}), (6, .cleanUp {}), (7, .verify toyTicket {}), (10, .cleanUp {}),
    (10, .verify toyTicket {})]

theorem visits_redeem_once : (answers toyLibrary { ticketSecret := [] } visits).map (fun a => a.2.isOk) =
        [true, false, false] ∧
      (answers toyLibrary { ticketSecret := [] } visits).Pairwise fun a b =>
        b.1 = a.1 → (∃ session, a.2 = .ok session) → ∀ session, b.2 ≠ .ok session :=
  ⟨by decide, redeemed_at_most_once toyLibrary { ticketSecret := [] } visits (by decide)⟩

end TicketExchangeExample
end ZyncBase
