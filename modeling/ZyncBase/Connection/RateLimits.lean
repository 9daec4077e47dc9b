import ZyncBase.Lib.TokenBucket

/-! The two token buckets of a connection: one for its messages and one for its pings. Every arithmetic
step is checked in the integer type that the source gives it, and an overflow stops the server. -/
namespace ZyncBase.RateLimits

open TokenBucket
open Option (bind_eq_bind bind_some)

/-- An unsigned integer of a number of bits. -/
def unsigned (bits n : ℕ) : Option ℕ := if n < 2 ^ bits then some n else none

def i64 (n : ℤ) : Option ℤ := if -2 ^ 63 ≤ n ∧ n < 2 ^ 63 then some n else none

/-- One of the buckets of a connection: its tokens in millionths, and the clock reading, in microseconds,
of the last request. A connection is activated with no reading. -/
structure Tokens where
  tokens : ℕ := 0
  last_time : Option ℤ := none

inductive Verdict where
  | passed
  | limited (retry_after_ms : ℕ)
  deriving DecidableEq

def Verdict.isPassed : Verdict → Bool
  | passed => true
  | limited _ => false

/-- The time since the last request. -/
def elapsed (now_us last : ℤ) : Option ℕ := do
  let since ← i64 (now_us - last)
  return (max 0 since).toNat

/-- The tokens of the message bucket at a clock reading. -/
def messageTokens (rate : ℕ) (now_us : ℤ) (conn : Tokens) : Option ℕ := do
  let burst_capacity ← unsigned 64 (rate * 2000000)
  match conn.last_time with
  | none => return burst_capacity
  | some last => do
    let elapsed_us ← elapsed now_us last
    let capped_elapsed_us := min elapsed_us 2000000
    let tokens_to_add ← unsigned 64 (capped_elapsed_us * rate)
    let refilled ← unsigned 64 (conn.tokens + tokens_to_add)
    return min burst_capacity refilled

/-- A message other than a minimal ping. The line that is logged for a rejected one doubles the configured
rate in the type of the configuration, `u32`. -/
def handleMessage (max_messages_per_second : UInt32) (now_us : ℤ) (conn : Tokens) : Option (Tokens × Verdict) :=
  if max_messages_per_second = 0 then some (conn, .passed) else do
    let request_tokens ← messageTokens max_messages_per_second.toNat now_us conn
    if request_tokens < 1000000 then
      let _burst ← unsigned 32 (max_messages_per_second.toNat * 2)
      let rounded ← unsigned 64 (1000 + max_messages_per_second.toNat)
      return (⟨request_tokens, some now_us⟩,
        .limited ((rounded - 1) / max_messages_per_second.toNat))
    else return (⟨request_tokens - 1000000, some now_us⟩, .passed)

/-- The tokens of the ping bucket at a clock reading. The minimum with a constant has the smallest type
that holds the constant, which is of 20 bits for a million, and the elapsed time is doubled in that type. -/
def pingTokens (now_us : ℤ) (conn : Tokens) : Option ℕ :=
  match conn.last_time with
  | none => some 2000000
  | some last => do
    let elapsed_us ← elapsed now_us last
    let capped_elapsed_us ← unsigned 20 (min elapsed_us 1000000)
    let tokens_to_add ← unsigned 20 (capped_elapsed_us * 2)
    let refilled ← unsigned 64 (conn.tokens + tokens_to_add)
    return min 2000000 refilled

def handlePing (now_us : ℤ) (conn : Tokens) : Option (Tokens × Verdict) := do
  let ping_tokens ← pingTokens now_us conn
  if ping_tokens < 1000000 then
    return (⟨ping_tokens, some now_us⟩, .limited 500)
  else return (⟨ping_tokens - 1000000, some now_us⟩, .passed)

/-- What a sequence of requests is answered, unless a step overflows. -/
def run (handle : ℤ → Tokens → Option (Tokens × Verdict)) : Tokens → List ℤ → Option (List Verdict)
  | _, [] => some []
  | conn, now :: times => do
    let (conn, verdict) ← handle now conn
    let verdicts ← run handle conn times
    return verdict :: verdicts

/-- A bucket that takes a burst of two seconds. -/
def messageLimits (max_messages_per_second : UInt32) : Limits :=
  ⟨max_messages_per_second.toNat * 2000000, max_messages_per_second.toNat, 1000000⟩

def pingLimits : Limits := ⟨2000000, 2, 1000000⟩

/-- What a bucket is for: no step overflows, no window of time has more requests that pass than the burst
and what accrues in it, and a request passes once a token has accrued since the last one that did. -/
def Kept (p : Limits) (handle : ℤ → Tokens → Option (Tokens × Verdict)) (times : List ℤ) : Prop :=
  ∃ verdicts, run handle {} times = some verdicts ∧
    (∀ start stop, ((times.zip verdicts).filter fun e =>
        e.2.isPassed ∧ start ≤ e.1 ∧ e.1 ≤ stop).length * p.cost ≤
      p.capacity + (stop - start).toNat * p.rate) ∧
    ∀ before since mid now verdict rest,
      times.zip verdicts = before ++ (since, .passed) :: mid ++ (now, verdict) :: rest →
      (∀ e ∈ mid, e.2.isPassed = false) → p.cost ≤ (now - since).toNat * p.rate → verdict = .passed

/-- No two requests that follow each other are so far apart. -/
def Spaced (gap : ℤ) : Option ℤ → List ℤ → Prop
  | _, [] => True
  | last, now :: times => (∀ t ∈ last, now - t < gap) ∧ Spaced gap (some now) times

def Tokens.bucket (conn : Tokens) : Option Bucket := conn.last_time.map fun t => ⟨conn.tokens, t⟩

/-- A request neither finds more tokens than the capacity nor an earlier clock. -/
structure Ready (p : Limits) (now : ℤ) (conn : Tokens) : Prop where
  tokens : conn.tokens ≤ p.capacity
  later : ∀ t ∈ conn.last_time, t ≤ now

/-- The request can be computed: it does not come too late after the last one, and a rejection can be
logged. -/
def Computable (p : Limits) (gap : ℤ) (logs : Prop) (now : ℤ) (conn : Tokens) : Prop :=
  (∀ t ∈ conn.last_time, now - t < gap) ∧ (logs ∨ accepts p now conn.bucket = true)

/-- A handler that follows the token bucket as far as it can be computed. -/
structure Follows (p : Limits) (gap : ℤ) (logs : Prop)
    (handle : ℤ → Tokens → Option (Tokens × Verdict)) : Prop where
  computed : ∀ {now conn}, Ready p now conn → Computable p gap logs now conn →
    ∃ verdict, handle now conn = some (⟨(ask p now conn.bucket).tokens, some now⟩, verdict) ∧
      verdict.isPassed = accepts p now conn.bucket
  stopped : ∀ {now conn}, Ready p now conn → ¬Computable p gap logs now conn → handle now conn = none

section Arithmetic

variable {bits n : ℕ} {now last : ℤ}

lemma unsigned_eq (h : n < 2 ^ bits) : unsigned bits n = some n := if_pos h

lemma unsigned_eq_none (h : 2 ^ bits ≤ n) : unsigned bits n = none := if_neg (not_lt.mpr h)

lemma elapsed_eq (hlater : last ≤ now) (h : now - last < 2 ^ 63) :
    elapsed now last = some (now - last).toNat := by
  rw [elapsed, i64, if_pos ⟨by omega, h⟩]
  change some (max 0 (now - last)).toNat = _
  rw [max_eq_right (by omega)]

lemma elapsed_eq_none (h : ¬now - last < 2 ^ 63) : elapsed now last = none := by
  rw [elapsed, i64, if_neg fun hfits => h hfits.2]
  rfl

lemma min_capped (rate cap tokens elapsed : ℕ) :
    min (rate * cap) (tokens + min elapsed cap * rate) = min (rate * cap) (tokens + elapsed * rate) := by
  rcases le_total elapsed cap with h | h
  · rw [min_eq_left h]
  · rw [min_eq_right h, Nat.mul_comm cap rate]
    have hmore : rate * cap ≤ elapsed * rate := by
      rw [Nat.mul_comm elapsed]
      exact Nat.mul_le_mul_left rate h
    rw [min_eq_left (Nat.le_add_left _ _), min_eq_left (hmore.trans (Nat.le_add_left _ _))]

end Arithmetic

section Pings

variable {now : ℤ} {conn : Tokens}

lemma pingTokens_eq (hready : Ready pingLimits now conn) (hgap : ∀ t ∈ conn.last_time, now - t < 2 ^ 19) :
    pingTokens now conn = some (tokensAt pingLimits now conn.bucket) := by
  rw [pingTokens, Tokens.bucket]
  cases hlast : conn.last_time with
  | none => rfl
  | some last =>
    have hlater := hready.later last hlast
    have hless := hgap last hlast
    have htokens : conn.tokens ≤ 2000000 := hready.tokens
    have hmin : min (now - last).toNat 1000000 = (now - last).toNat := min_eq_left (by omega)
    simp only [elapsed_eq hlater (by omega), bind_eq_bind, bind_some, hmin]
    rw [unsigned_eq (by omega), bind_some, unsigned_eq (by omega), bind_some, unsigned_eq (by omega)]
    rfl

lemma pingTokens_eq_none {last : ℤ} (hlast : conn.last_time = some last) (hlater : last ≤ now)
    (hgap : ¬now - last < 2 ^ 19) : pingTokens now conn = none := by
  rw [pingTokens, hlast]
  by_cases hfits : now - last < 2 ^ 63
  · simp only [elapsed_eq hlater hfits, bind_eq_bind, bind_some]
    rw [unsigned_eq (by omega), bind_some, unsigned_eq_none (by omega)]
    rfl
  · simp only [elapsed_eq_none hfits]
    rfl

lemma follows_handlePing : Follows pingLimits (2 ^ 19) True handlePing where
  computed := by
    intro now conn hready hcomp
    rw [handlePing, pingTokens_eq hready hcomp.1]
    cases haccepts : accepts pingLimits now conn.bucket with
    | false =>
      have hcost : tokensAt pingLimits now conn.bucket < 1000000 := not_le.mp (of_decide_eq_false haccepts)
      refine ⟨.limited 500, ?_, rfl⟩
      rw [ask_rejected haccepts, bind_eq_bind, bind_some, if_pos hcost]
      rfl
    | true =>
      have hcost : 1000000 ≤ tokensAt pingLimits now conn.bucket := of_decide_eq_true haccepts
      refine ⟨.passed, ?_, rfl⟩
      rw [ask_accepted haccepts, bind_eq_bind, bind_some, if_neg (not_lt.mpr hcost)]
      rfl
  stopped := by
    intro now conn hready hcomp
    have hgap : ¬∀ t ∈ conn.last_time, now - t < 2 ^ 19 := fun h => hcomp ⟨h, Or.inl trivial⟩
    push Not at hgap
    obtain ⟨last, hlast, hlong⟩ := hgap
    rw [handlePing, pingTokens_eq_none hlast (hready.later last hlast) (not_lt.mpr hlong)]
    rfl

end Pings

section Messages

variable {now : ℤ} {conn : Tokens} {max_messages_per_second : UInt32}

lemma messageTokens_eq (hready : Ready (messageLimits max_messages_per_second) now conn)
    (hgap : ∀ t ∈ conn.last_time, now - t < 2 ^ 63) :
    messageTokens max_messages_per_second.toNat now conn =
      some (tokensAt (messageLimits max_messages_per_second) now conn.bucket) := by
  have hrate := max_messages_per_second.toNat_lt
  rw [messageTokens, unsigned_eq (by omega), bind_eq_bind, bind_some, Tokens.bucket]
  cases hlast : conn.last_time with
  | none => rfl
  | some last =>
    have htokens : conn.tokens ≤ max_messages_per_second.toNat * 2000000 := hready.tokens
    have hadd : min (now - last).toNat 2000000 * max_messages_per_second.toNat ≤
        2000000 * max_messages_per_second.toNat := Nat.mul_le_mul_right _ (min_le_right _ _)
    simp only [elapsed_eq (hready.later last hlast) (hgap last hlast), bind_some]
    rw [unsigned_eq (by omega), bind_some, unsigned_eq (by omega), bind_some, min_capped]
    rfl

lemma messageTokens_eq_none {last : ℤ} (hlast : conn.last_time = some last)
    (hgap : ¬now - last < 2 ^ 63) : messageTokens max_messages_per_second.toNat now conn = none := by
  have hrate := max_messages_per_second.toNat_lt
  rw [messageTokens, unsigned_eq (by omega), hlast]
  simp only [bind_eq_bind, bind_some, elapsed_eq_none hgap]
  rfl

lemma follows_handleMessage (hrate : max_messages_per_second ≠ 0) :
    Follows (messageLimits max_messages_per_second) (2 ^ 63) (max_messages_per_second.toNat < 2 ^ 31)
      (handleMessage max_messages_per_second) where
  computed := by
    intro now conn hready hcomp
    rw [handleMessage, if_neg hrate, messageTokens_eq hready hcomp.1]
    cases haccepts : accepts (messageLimits max_messages_per_second) now conn.bucket with
    | false =>
      have hcost : tokensAt (messageLimits max_messages_per_second) now conn.bucket < 1000000 :=
        not_le.mp (of_decide_eq_false haccepts)
      have hlogs : max_messages_per_second.toNat < 2 ^ 31 :=
        hcomp.2.resolve_right (by rw [haccepts]; exact Bool.false_ne_true)
      refine ⟨.limited ((1000 + max_messages_per_second.toNat - 1) / max_messages_per_second.toNat), ?_, rfl⟩
      rw [ask_rejected haccepts, bind_eq_bind, bind_some, if_pos hcost,
        unsigned_eq (by omega), bind_some, unsigned_eq (by omega), bind_some]
      rfl
    | true =>
      have hcost : 1000000 ≤ tokensAt (messageLimits max_messages_per_second) now conn.bucket :=
        of_decide_eq_true haccepts
      refine ⟨.passed, ?_, rfl⟩
      rw [ask_accepted haccepts, bind_eq_bind, bind_some, if_neg (not_lt.mpr hcost)]
      rfl
  stopped := by
    intro now conn hready hcomp
    rw [handleMessage, if_neg hrate]
    by_cases hgap : ∀ t ∈ conn.last_time, now - t < 2 ^ 63
    · obtain ⟨hlogs, hrejected⟩ := not_or.mp fun h => hcomp ⟨hgap, h⟩
      have hcost : tokensAt (messageLimits max_messages_per_second) now conn.bucket < 1000000 :=
        not_le.mp (of_decide_eq_false (Bool.eq_false_iff.mpr hrejected))
      rw [messageTokens_eq hready hgap, bind_eq_bind, bind_some, if_pos hcost, unsigned_eq_none (by omega)]
      rfl
    · push Not at hgap
      obtain ⟨last, hlast, hlong⟩ := hgap
      rw [messageTokens_eq_none hlast (not_lt.mpr hlong)]
      rfl

end Messages

section Runs

variable {p : Limits} {gap : ℤ} {logs : Prop} {handle : ℤ → Tokens → Option (Tokens × Verdict)}
  {conn : Tokens} {times : List ℤ}

lemma run_cons {now : ℤ} {conn' : Tokens} {verdict : Verdict} (h : handle now conn = some (conn', verdict)) :
    run handle conn (now :: times) = (run handle conn' times).map (verdict :: ·) := by
  rw [run, h]
  change ((run handle conn' times).bind fun verdicts => some (verdict :: verdicts)) = _
  cases run handle conn' times <;> rfl

lemma Follows.run_computed (h : Follows p gap logs handle) (htokens : conn.tokens ≤ p.capacity)
    (hlater : ∀ t ∈ conn.last_time, ∀ now ∈ times, t ≤ now) (hsorted : times.Pairwise (· ≤ ·))
    (hgap : Spaced gap conn.last_time times)
    (hlogs : logs ∨ ∀ answer ∈ answers p conn.bucket times, answer = true) :
    ∃ verdicts, run handle conn times = some verdicts ∧
      verdicts.map Verdict.isPassed = answers p conn.bucket times := by
  induction times generalizing conn with
  | nil => exact ⟨[], rfl, rfl⟩
  | cons now times ih =>
    obtain ⟨hfirst, hrest⟩ := List.pairwise_cons.mp hsorted
    rw [answers, List.forall_mem_cons] at hlogs
    obtain ⟨verdict, hhandle, hverdict⟩ := h.computed
      ⟨htokens, fun t ht => hlater t ht now List.mem_cons_self⟩ ⟨hgap.1, hlogs.imp_right And.left⟩
    obtain ⟨verdicts, hrun, hanswers⟩ := @ih ⟨(ask p now conn.bucket).tokens, some now⟩
      ((Nat.sub_le _ _).trans (tokensAt_le now _)) (by intro t ht; cases ht; exact hfirst) hrest hgap.2
      (hlogs.imp_right And.right)
    refine ⟨verdict :: verdicts, ?_, ?_⟩
    · rw [run_cons hhandle, hrun]
      rfl
    · rw [List.map_cons, hverdict, hanswers]
      rfl

lemma Follows.run_stopped (h : Follows p gap logs handle) (htokens : conn.tokens ≤ p.capacity)
    (hlater : ∀ t ∈ conn.last_time, ∀ now ∈ times, t ≤ now) (hsorted : times.Pairwise (· ≤ ·))
    (hstops : ¬(Spaced gap conn.last_time times ∧
      (logs ∨ ∀ answer ∈ answers p conn.bucket times, answer = true))) : run handle conn times = none := by
  induction times generalizing conn with
  | nil => exact absurd ⟨trivial, Or.inr fun _ h => absurd h List.not_mem_nil⟩ hstops
  | cons now times ih =>
    obtain ⟨hfirst, hrest⟩ := List.pairwise_cons.mp hsorted
    have hready : Ready p now conn := ⟨htokens, fun t ht => hlater t ht now List.mem_cons_self⟩
    by_cases hcomp : Computable p gap logs now conn
    · obtain ⟨verdict, hhandle, -⟩ := h.computed hready hcomp
      have hnone := @ih ⟨(ask p now conn.bucket).tokens, some now⟩
        ((Nat.sub_le _ _).trans (tokensAt_le now _)) (by intro t ht; cases ht; exact hfirst) hrest
        fun hgoes => hstops ⟨⟨hcomp.1, hgoes.1⟩, by
          rw [answers, List.forall_mem_cons]
          rcases hcomp.2 with hlogs | haccepts
          · exact Or.inl hlogs
          · exact hgoes.2.imp_right fun hall => ⟨haccepts, hall⟩⟩
      rw [run_cons hhandle, hnone]
      rfl
    · rw [run, h.stopped hready hcomp]
      rfl

lemma accepted_eq {verdicts : List Verdict} {b : Option Bucket}
    (h : verdicts.map Verdict.isPassed = answers p b times) :
    accepted p b times = ((times.zip verdicts).filter fun e => e.2.isPassed).map Prod.fst := by
  rw [accepted, ← h, List.zip_map_right, List.filter_map, List.map_map]
  rfl

lemma answers_split {verdicts : List Verdict} {b : Option Bucket} {before rest : List (ℤ × Verdict)}
    (h : verdicts.map Verdict.isPassed = answers p b times)
    (hzip : times.zip verdicts = before ++ rest) :
    times = before.map Prod.fst ++ rest.map Prod.fst ∧ rest.map (fun e => e.2.isPassed) =
        answers p (after p b (before.map Prod.fst)) (rest.map Prod.fst) := by
  have hlength : verdicts.length = times.length := by
    rw [← length_answers (p := p) (b := b) times, ← h, List.length_map]
  have htimes : times = before.map Prod.fst ++ rest.map Prod.fst := by
    rw [← List.map_append, ← hzip, List.map_fst_zip hlength.ge]
  have hanswers : before.map (fun e => e.2.isPassed) ++ rest.map (fun e => e.2.isPassed) =
      answers p b times := by
    rw [← List.map_append, ← hzip, ← h]
    conv_rhs => rw [← List.map_snd_zip hlength.le, List.map_map]
    rfl
  rw [htimes, answers_append] at hanswers
  refine ⟨htimes, (List.append_inj hanswers ?_).2⟩
  rw [length_answers, List.length_map, List.length_map]

lemma Follows.kept_iff (h : Follows p gap logs handle) (hcapacity : p.cost ≤ p.capacity)
    (hsorted : times.Pairwise (· ≤ ·)) :
    Kept p handle times ↔ Spaced gap none times ∧ (logs ∨ Within p times) := by
  rw [← answers_iff_within hsorted]
  constructor
  · rintro ⟨verdicts, hrun, -⟩
    by_contra hstops
    rw [h.run_stopped (Nat.zero_le _) (fun t ht => by cases ht) hsorted hstops] at hrun
    cases hrun
  rintro ⟨hgap, hlogs⟩
  obtain ⟨verdicts, hrun, hanswers⟩ : ∃ verdicts, run handle {} times = some verdicts ∧
      verdicts.map Verdict.isPassed = answers p none times :=
    h.run_computed (Nat.zero_le _) (fun t ht => by cases ht) hsorted hgap hlogs
  refine ⟨verdicts, hrun, fun start stop => ?_, ?_⟩
  · refine le_trans (le_of_eq ?_) (acceptedWithin_le hsorted start stop)
    rw [acceptedWithin, accepted_eq hanswers, List.filter_map, List.length_map, List.filter_filter]
    simp [and_comm]
  · intro before since mid now verdict rest hzip hmid haccrued
    have hsplit : times.zip verdicts = (before ++ [(since, .passed)]) ++ (mid ++ (now, verdict) :: rest) := by
      rw [hzip]
      simp
    obtain ⟨htimes, hafter⟩ := answers_split hanswers hsplit
    simp only [List.map_append, List.map_cons, List.map_nil, after_concat, answers_append] at hafter
    obtain ⟨hmids, hnow⟩ := List.append_inj hafter (by rw [length_answers, List.length_map, List.length_map])
    have hsince : before.map Prod.fst ++ since :: mid.map Prod.fst ++ [now] <+: times := by
      rw [htimes]
      exact ⟨rest.map Prod.fst, by simp⟩
    have haccepts := accepts_of_accrued (p := p) hcapacity (hsorted.sublist hsince.sublist)
      (fun answer hanswer => by
        rw [← hmids] at hanswer
        obtain ⟨e, he, rfl⟩ := List.mem_map.mp hanswer
        exact hmid e he) haccrued
    have hverdict : verdict.isPassed = true := by
      rw [after, List.foldl_append, List.foldl_cons] at haccepts
      rw [answers] at hnow
      exact (List.cons.inj hnow).1.trans haccepts
    cases verdict with
    | passed => rfl
    | limited retry_after_ms => cases hverdict

end Runs

section Buckets

variable {messages pings : List ℤ} {max_messages_per_second : UInt32}

/-- The message bucket does what it is for exactly when no message comes 2⁶³ microseconds after the last one
and, at a rate of 2³¹ or more, the messages leave nothing to reject; the ping bucket exactly when no ping
comes half a second, as rounded up to 2¹⁹ microseconds, after the last one. -/
theorem buckets_kept_iff (hrate : max_messages_per_second ≠ 0)
    (hmessages : messages.Pairwise (· ≤ ·)) (hpings : pings.Pairwise (· ≤ ·)) :
    (Kept (messageLimits max_messages_per_second) (handleMessage max_messages_per_second) messages ↔
      Spaced (2 ^ 63) none messages ∧
        (max_messages_per_second.toNat < 2 ^ 31 ∨
          Within (messageLimits max_messages_per_second) messages)) ∧
    (Kept pingLimits handlePing pings ↔ Spaced (2 ^ 19) none pings) := by
  constructor
  · refine (follows_handleMessage hrate).kept_iff ?_ hmessages
    have hpos : 0 < max_messages_per_second.toNat := UInt32.pos_iff_ne_zero.mpr hrate
    change 1000000 ≤ max_messages_per_second.toNat * 2000000
    omega
  · rw [follows_handlePing.kept_iff (by decide) hpings]
    exact ⟨And.left, fun h => ⟨h, Or.inl trivial⟩⟩

theorem buckets_kept_ten : Kept (messageLimits 10) (handleMessage 10) [0, 0, 1000000] ∧
    Kept pingLimits handlePing [0, 500000] := by
  have hmessages : ([0, 0, 1000000] : List ℤ).Pairwise (· ≤ ·) := by decide
  have hpings : ([0, 500000] : List ℤ).Pairwise (· ≤ ·) := by decide
  have h := @buckets_kept_iff [0, 0, 1000000] [0, 500000] 10 (by decide) hmessages hpings
  exact ⟨h.1.mpr ⟨by simp [Spaced], Or.inl (by decide)⟩, h.2.mpr (by simp [Spaced])⟩

/-- Two pings a second apart stop the server, and so does a message that is rejected at a rate of 2³¹. -/
theorem buckets_not_kept : ¬Kept pingLimits handlePing [0, 1000000] ∧
    ¬Kept (messageLimits 2147483648) (handleMessage 2147483648) (List.replicate (2 ^ 32 + 1) 0) := by
  constructor
  · rintro ⟨verdicts, hrun, -⟩
    cases hrun
  · intro h
    have hsorted : (List.replicate (2 ^ 32 + 1) (0 : ℤ)).Pairwise (· ≤ ·) :=
      List.pairwise_replicate.mpr (Or.inr le_rfl)
    have hcapacity : (messageLimits 2147483648).cost ≤ (messageLimits 2147483648).capacity := by decide
    obtain ⟨-, hlogs | hwithin⟩ :=
      ((follows_handleMessage (by decide)).kept_iff hcapacity hsorted).mp h
    · exact absurd hlogs (by decide)
    · have hall := hwithin [] (List.replicate (2 ^ 32 + 1) 0) [] (by rw [List.append_nil]; rfl) 0
        (by rw [List.head?_replicate]; rfl) 0 (by rw [List.getLast?_replicate]; rfl)
      rw [List.length_replicate] at hall
      exact absurd hall (by decide)

end Buckets

end ZyncBase.RateLimits
