import Mathlib.Data.List.Induction
import Mathlib.Order.Lattice
import Mathlib.Tactic.Linarith

/-! A token bucket: tokens accrue with the time up to a capacity, and a request takes some of them or is
rejected. What it accepts is bounded in every window of time, and a request for which enough tokens have
accrued is accepted. -/
namespace TokenBucket

open List

/-- How many tokens the bucket holds, how many accrue in a unit of time and how many a request takes. -/
structure Limits where
  capacity : ℕ
  rate : ℕ
  cost : ℕ

/-- The tokens after the last request, and its time. -/
structure Bucket where
  tokens : ℕ
  time : ℤ
  deriving DecidableEq, Repr

variable (p : Limits)

/-- The tokens at a time. A bucket that was never asked is full. -/
def tokensAt (now : ℤ) : Option Bucket → ℕ
  | none => p.capacity
  | some b => min p.capacity (b.tokens + (now - b.time).toNat * p.rate)

def accepts (now : ℤ) (b : Option Bucket) : Bool := p.cost ≤ tokensAt p now b

/-- A request that is rejected takes nothing. -/
def ask (now : ℤ) (b : Option Bucket) : Bucket :=
  ⟨tokensAt p now b - if accepts p now b then p.cost else 0, now⟩

/-- Which requests of a sequence are accepted. -/
def answers : Option Bucket → List ℤ → List Bool
  | _, [] => []
  | b, now :: times => accepts p now b :: answers (some (ask p now b)) times

/-- The bucket after a sequence of requests. -/
def after (b : Option Bucket) (times : List ℤ) : Option Bucket :=
  times.foldl (fun b now => some (ask p now b)) b

def accepted (b : Option Bucket) (times : List ℤ) : List ℤ :=
  ((times.zip (answers p b times)).filter Prod.snd).map Prod.fst

/-- How many requests are accepted from one time to another. -/
def acceptedWithin (b : Option Bucket) (times : List ℤ) (start stop : ℤ) : ℕ :=
  ((accepted p b times).filter fun now => start ≤ now ∧ now ≤ stop).length

/-- No stretch of the sequence has more requests than a full bucket and what accrues meanwhile. -/
def Within (times : List ℤ) : Prop :=
  ∀ before stretch rest : List ℤ, times = before ++ stretch ++ rest →
    ∀ first ∈ stretch.head?, ∀ last ∈ stretch.getLast?,
      stretch.length * p.cost ≤ p.capacity + (last - first).toNat * p.rate

section Tokens

variable {p} {now : ℤ} {b : Option Bucket} {times : List ℤ}

lemma tokensAt_le (now : ℤ) (b : Option Bucket) : tokensAt p now b ≤ p.capacity := by
  cases b with
  | none => exact le_rfl
  | some b => exact min_le_left _ _

lemma answers_append (times rest : List ℤ) :
    answers p b (times ++ rest) = answers p b times ++ answers p (after p b times) rest := by
  induction times generalizing b with
  | nil => rfl
  | cons now times ih =>
    rw [cons_append, answers, answers, ih]
    rfl

lemma length_answers (times : List ℤ) : (answers p b times).length = times.length := by
  induction times generalizing b with
  | nil => rfl
  | cons now times ih => rw [answers, length_cons, length_cons, ih]

lemma accepted_cons (now : ℤ) (times : List ℤ) : accepted p b (now :: times) =
    (if accepts p now b then [now] else []) ++ accepted p (some (ask p now b)) times := by
  rw [accepted, answers, zip_cons_cons, filter_cons, accepted]
  cases accepts p now b <;> rfl

lemma mem_of_accepted (h : now ∈ accepted p b times) : now ∈ times := by
  obtain ⟨e, he, rfl⟩ := mem_map.mp h
  exact (of_mem_zip (mem_filter.mp he).1).1

lemma ask_accepted (h : accepts p now b = true) : ask p now b = ⟨tokensAt p now b - p.cost, now⟩ := by
  rw [ask, if_pos h]

lemma ask_rejected (h : accepts p now b = false) : ask p now b = ⟨tokensAt p now b, now⟩ := by
  rw [ask, h]
  rfl

lemma ask_tokens (now : ℤ) (b : Option Bucket) :
    (ask p now b).tokens + (if accepts p now b then p.cost else 0) = tokensAt p now b := by
  rw [ask]
  cases h : accepts p now b with
  | false => rfl
  | true =>
    have hcost : p.cost ≤ tokensAt p now b := of_decide_eq_true h
    simp only [if_true]
    omega

end Tokens

section Windows

variable {p} {times : List ℤ} {start stop : ℤ}

/-- What a window may still take: what is in the bucket and accrues, or a full bucket where the window
has not begun. -/
def allowance (p : Limits) (start stop : ℤ) : Option Bucket → ℕ
  | none => p.capacity + (stop - start).toNat * p.rate
  | some b =>
    if start ≤ b.time then b.tokens + (stop - b.time).toNat * p.rate
    else p.capacity + (stop - start).toNat * p.rate

lemma acceptedWithin_cons (b : Option Bucket) (now : ℤ) : acceptedWithin p b (now :: times) start stop =
    (if accepts p now b ∧ start ≤ now ∧ now ≤ stop then 1 else 0) +
      acceptedWithin p (some (ask p now b)) times start stop := by
  rw [acceptedWithin, acceptedWithin, accepted_cons, filter_append, length_append]
  congr 1
  by_cases hin : start ≤ now ∧ now ≤ stop
  · cases accepts p now b <;> simp [hin]
  · cases accepts p now b <;> simp [hin]

lemma acceptedWithin_eq_zero {b : Option Bucket} (h : ∀ now ∈ times, stop < now) :
    acceptedWithin p b times start stop = 0 := by
  rw [acceptedWithin, length_eq_zero_iff, filter_eq_nil_iff]
  intro now hnow hin
  have hlater := h now (mem_of_accepted hnow)
  simp only [decide_eq_true_eq] at hin
  omega

/-- A bucket is asked later than it was asked before. -/
def Later (b : Option Bucket) (times : List ℤ) : Prop := ∀ c, b = some c → ∀ now ∈ times, c.time ≤ now

lemma acceptedWithin_le_allowance (hsorted : times.Pairwise (· ≤ ·)) {b : Option Bucket}
    (hlater : Later b times) : acceptedWithin p b times start stop * p.cost ≤ allowance p start stop b := by
  induction times generalizing b with
  | nil => simp [acceptedWithin, accepted]
  | cons now times ih =>
    obtain ⟨hfirst, hrest⟩ := pairwise_cons.mp hsorted
    have htokens := ask_tokens (p := p) now b
    have htime : (ask p now b).time = now := rfl
    have hnext := ih hrest (b := some (ask p now b)) fun c hc now' hnow' => by
      cases hc
      exact hfirst now' hnow'
    rw [acceptedWithin_cons]
    by_cases hpast : stop < now
    · have hzero : acceptedWithin p (some (ask p now b)) times start stop = 0 :=
        acceptedWithin_eq_zero fun now' hnow' => hpast.trans_le (hfirst now' hnow')
      rw [hzero, if_neg fun h => absurd h.2.2 (not_le.mpr hpast), Nat.zero_mul]
      exact Nat.zero_le _
    by_cases hearly : now < start
    · rw [if_neg fun h => absurd h.2.1 (not_le.mpr hearly), Nat.zero_add]
      refine hnext.trans_eq ?_
      rw [allowance, htime, if_neg (not_le.mpr hearly)]
      cases b with
      | none => rfl
      | some c => rw [allowance, if_neg (not_le.mpr ((hlater c rfl now mem_cons_self).trans_lt hearly))]
    -- the request takes its tokens from what is there now, and the rest of the window takes what is left
    have hwindow : start ≤ now ∧ now ≤ stop := ⟨not_lt.mp hearly, not_lt.mp hpast⟩
    rw [allowance, htime, if_pos hwindow.1] at hnext
    have htaken : ((if accepts p now b ∧ start ≤ now ∧ now ≤ stop then 1 else 0) +
        acceptedWithin p (some (ask p now b)) times start stop) * p.cost ≤
        tokensAt p now b + (stop - now).toNat * p.rate := by
      rw [Nat.add_mul, ← htokens]
      by_cases haccepts : accepts p now b = true
      · rw [if_pos ⟨haccepts, hwindow⟩, if_pos haccepts, Nat.one_mul]
        omega
      · rw [if_neg fun h => haccepts h.1, if_neg haccepts, Nat.zero_mul]
        omega
    refine htaken.trans ?_
    have hfull : tokensAt p now b + (stop - now).toNat * p.rate ≤ p.capacity + (stop - start).toNat * p.rate :=
      Nat.add_le_add (tokensAt_le now b) (Nat.mul_le_mul_right _ (by omega))
    cases b with
    | none => exact hfull
    | some c =>
      rw [allowance]
      split_ifs with hstart
      · have hsince := hlater c rfl now mem_cons_self
        have hspan : (stop - c.time).toNat = (now - c.time).toNat + (stop - now).toNat := by omega
        have hleft : tokensAt p now (some c) ≤ c.tokens + (now - c.time).toNat * p.rate :=
          min_le_right _ _
        rw [hspan, Nat.add_mul]
        omega
      · exact hfull

lemma acceptedWithin_le (hsorted : times.Pairwise (· ≤ ·)) (start stop : ℤ) :
    acceptedWithin p none times start stop * p.cost ≤ p.capacity + (stop - start).toNat * p.rate :=
  acceptedWithin_le_allowance hsorted fun _ hc => by cases hc

end Windows

section Promptness

variable {p} {times : List ℤ} {b : Bucket} {now : ℤ}

/-- What has accrued since a time is in the bucket, unless it is full. -/
def HoldsSince (p : Limits) (since : ℤ) (b : Bucket) : Prop :=
  since ≤ b.time ∧ min p.capacity ((b.time - since).toNat * p.rate) ≤ b.tokens

lemma HoldsSince.tokensAt {since : ℤ} (h : HoldsSince p since b) (hnow : b.time ≤ now) :
    min p.capacity ((now - since).toNat * p.rate) ≤ tokensAt p now (some b) := by
  have hspan : (now - since).toNat = (b.time - since).toNat + (now - b.time).toNat := by
    have hsince := h.1
    omega
  rw [TokenBucket.tokensAt, hspan, Nat.add_mul]
  have htokens := h.2
  omega

lemma HoldsSince.after {since : ℤ} (h : HoldsSince p since b) (hsorted : (b.time :: times).Pairwise (· ≤ ·))
    (hrejected : ∀ answer ∈ answers p (some b) times, answer = false) :
    ∃ c, TokenBucket.after p (some b) times = some c ∧ HoldsSince p since c ∧
      c.time = (b.time :: times).getLast (cons_ne_nil _ _) := by
  induction times generalizing b with
  | nil => exact ⟨b, rfl, h, rfl⟩
  | cons now times ih =>
    obtain ⟨hfirst, hrest⟩ := pairwise_cons.mp hsorted
    rw [answers, forall_mem_cons] at hrejected
    have hnow := hfirst now mem_cons_self
    have hasked := ask_rejected hrejected.1
    have hholds : HoldsSince p since (ask p now (some b)) := by
      rw [hasked]
      exact ⟨h.1.trans hnow, h.tokensAt hnow⟩
    have htime : (ask p now (some b)).time = now := rfl
    obtain ⟨c, hafter, hc, hlast⟩ := ih hholds (by rw [htime]; exact hrest) hrejected.2
    refine ⟨c, hafter, hc, ?_⟩
    rw [hlast, htime, getLast_cons (cons_ne_nil _ _)]

/-- A request is accepted once as many tokens as it takes have accrued since the last one that was. -/
lemma accepts_of_accrued {since : ℤ} {before mid : List ℤ} (hcapacity : p.cost ≤ p.capacity)
    (hsorted : (before ++ since :: mid ++ [now]).Pairwise (· ≤ ·))
    (hrejected : ∀ answer ∈ answers p (some (ask p since (TokenBucket.after p none before))) mid,
      answer = false) (haccrued : p.cost ≤ (now - since).toNat * p.rate) :
    accepts p now (TokenBucket.after p none (before ++ since :: mid)) = true := by
  have hsince : HoldsSince p since (ask p since (TokenBucket.after p none before)) := by
    refine ⟨le_rfl, ?_⟩
    change min p.capacity ((since - since).toNat * p.rate) ≤ _
    rw [sub_self, Int.toNat_zero, Nat.zero_mul]
    exact (min_le_right _ _).trans (Nat.zero_le _)
  rw [append_assoc, cons_append] at hsorted
  have hrest := (pairwise_append.mp hsorted).2.1
  have hmid : (since :: mid).Pairwise (· ≤ ·) :=
    hrest.sublist (sublist_append_left (since :: mid) [now])
  obtain ⟨c, hafter, hc, hlast⟩ := hsince.after hmid hrejected
  have hreached : TokenBucket.after p none (before ++ since :: mid) = some c := by
    rw [TokenBucket.after, foldl_append, foldl_cons]
    exact hafter
  have hnow : c.time ≤ now := by
    rw [hlast]
    have hall := pairwise_append.mp (show ((since :: mid) ++ [now]).Pairwise (· ≤ ·) from hrest)
    exact hall.2.2 _ (getLast_mem _) now mem_cons_self
  rw [accepts, hreached, decide_eq_true_eq]
  exact (le_min hcapacity haccrued).trans (hc.tokensAt hnow)

end Promptness

section AllAccepted

variable {p} {b : Option Bucket} {times before stretch : List ℤ} {first now : ℤ}

/-- Where the bucket stands when nothing was rejected: it was full at some request, and since then every
request took its tokens of what accrued. -/
def FullAt (p : Limits) (times : List ℤ) (b : Bucket) : Prop :=
  ∃ before stretch first, times = before ++ first :: stretch ∧ first ≤ b.time ∧
    (first :: stretch).getLast? = some b.time ∧
    b.tokens + (stretch.length + 1) * p.cost = p.capacity + (b.time - first).toNat * p.rate

lemma Within.accepts_full (h : Within p (times ++ [now])) (hfull : tokensAt p now b = p.capacity) :
    accepts p now b = true ∧ FullAt p (times ++ [now]) (ask p now b) := by
  have hcost : p.cost ≤ p.capacity := by
    have hone := h times [now] [] (by rw [append_nil]) now rfl now rfl
    rwa [length_singleton, Nat.one_mul, sub_self, Int.toNat_zero, Nat.zero_mul] at hone
  have haccepts : accepts p now b = true := by
    rw [accepts, hfull, decide_eq_true_eq]
    exact hcost
  refine ⟨haccepts, times, [], now, rfl, le_rfl, rfl, ?_⟩
  have htokens := ask_tokens (p := p) now b
  rw [if_pos haccepts, hfull] at htokens
  change _ + (0 + 1) * p.cost = p.capacity + (now - now).toNat * p.rate
  rw [sub_self, Int.toNat_zero, Nat.zero_mul, Nat.zero_add, Nat.one_mul, Nat.add_zero]
  exact htokens

lemma Within.accepts_next (h : Within p (times ++ [now])) {c : Bucket} (hfull : FullAt p times c)
    (hlater : c.time ≤ now) :
    accepts p now (some c) = true ∧ FullAt p (times ++ [now]) (ask p now (some c)) := by
  by_cases hcap : p.capacity ≤ c.tokens + (now - c.time).toNat * p.rate
  · exact h.accepts_full (min_eq_left hcap)
  obtain ⟨before, stretch, first, htimes, hfirst, -, htokens⟩ := hfull
  have hat : tokensAt p now (some c) = c.tokens + (now - c.time).toNat * p.rate :=
    min_eq_right (not_le.mp hcap).le
  have hstretch := h before (first :: stretch ++ [now]) [] (by rw [htimes]; simp) first rfl now
    (getLast?_concat ..)
  have hspan : (now - first).toNat = (c.time - first).toNat + (now - c.time).toNat := by omega
  have hlength : (first :: stretch ++ [now]).length = stretch.length + 1 + 1 := by simp
  rw [hlength, hspan, Nat.add_mul, Nat.add_mul _ _ p.rate] at hstretch
  have haccepts : accepts p now (some c) = true := by
    rw [accepts, hat, decide_eq_true_eq]
    linarith
  refine ⟨haccepts, before, stretch ++ [now], first, by rw [htimes]; simp, hfirst.trans hlater, ?_, ?_⟩
  · rw [← cons_append]
    exact getLast?_concat ..
  · have htaken := ask_tokens (p := p) now (some c)
    rw [if_pos haccepts, hat] at htaken
    change _ + ((stretch ++ [now]).length + 1) * p.cost = p.capacity + (now - first).toNat * p.rate
    rw [length_append, length_singleton, hspan, Nat.add_mul (_ + 1), Nat.add_mul _ _ p.rate]
    linarith

lemma Within.mono {rest : List ℤ} (h : Within p (times ++ rest)) : Within p times :=
  fun before stretch after htimes =>
    h before stretch (after ++ rest) (by rw [htimes, append_assoc])

lemma after_concat (b : Option Bucket) (times : List ℤ) (now : ℤ) :
    after p b (times ++ [now]) = some (ask p now (after p b times)) := by
  rw [after, foldl_append]
  rfl

lemma Within.answers (hsorted : times.Pairwise (· ≤ ·)) (h : Within p times) :
    (∀ answer ∈ TokenBucket.answers p none times, answer = true) ∧
      ∀ c, after p none times = some c → FullAt p times c ∧ times.getLast? = some c.time := by
  induction times using List.reverseRecOn with
  | nil => exact ⟨fun answer h => absurd h not_mem_nil, fun c hc => by cases hc⟩
  | append_singleton times now ih =>
    obtain ⟨hbefore, -, hlast⟩ := pairwise_append.mp hsorted
    obtain ⟨hall, hstate⟩ := ih hbefore h.mono
    have hnext : accepts p now (after p none times) = true ∧
        FullAt p (times ++ [now]) (ask p now (after p none times)) := by
      cases hafter : after p none times with
      | none => exact h.accepts_full rfl
      | some c =>
        obtain ⟨hfull, hc⟩ := hstate c hafter
        exact h.accepts_next hfull (hlast c.time (mem_of_getLast? hc) now mem_cons_self)
    refine ⟨fun answer hanswer => ?_, fun c hc => ?_⟩
    · rw [answers_append] at hanswer
      rcases mem_append.mp hanswer with hanswer | hanswer
      · exact hall answer hanswer
      · rw [mem_singleton.mp hanswer]
        exact hnext.1
    · rw [after_concat] at hc
      cases hc
      exact ⟨hnext.2, getLast?_concat ..⟩

lemma accepted_eq_self (h : ∀ answer ∈ answers p b times, answer = true) : accepted p b times = times := by
  induction times generalizing b with
  | nil => rfl
  | cons now times ih =>
    rw [answers, forall_mem_cons] at h
    rw [accepted_cons, ih h.2, if_pos h.1, singleton_append]

lemma within_stretch (hsorted : stretch.Pairwise (· ≤ ·)) {last : ℤ}
    (hfirst : first ∈ stretch.head?) (hlast : last ∈ stretch.getLast?) :
    ∀ t ∈ stretch, first ≤ t ∧ t ≤ last := by
  intro t ht
  obtain ⟨rest, rfl⟩ := head?_eq_some_iff.mp hfirst
  obtain ⟨init, hinit⟩ := getLast?_eq_some_iff.mp hlast
  constructor
  · rcases mem_cons.mp ht with rfl | hrest
    · exact le_rfl
    · exact (pairwise_cons.mp hsorted).1 t hrest
  · rw [hinit] at ht hsorted
    rcases mem_append.mp ht with ht | ht
    · exact (pairwise_append.mp hsorted).2.2 t ht last mem_cons_self
    · exact (mem_singleton.mp ht).le

/-- Nothing is rejected exactly when no stretch of requests asks for more than a full bucket and what
accrues meanwhile. -/
lemma answers_iff_within (hsorted : times.Pairwise (· ≤ ·)) :
    (∀ answer ∈ TokenBucket.answers p none times, answer = true) ↔ Within p times := by
  refine ⟨fun hall before stretch rest htimes first hfirst last hlast => ?_, fun h => (h.answers hsorted).1⟩
  have hbound := acceptedWithin_le (p := p) hsorted first last
  rw [acceptedWithin, accepted_eq_self hall] at hbound
  refine (Nat.mul_le_mul_right _ ?_).trans hbound
  rw [htimes] at hsorted
  have hstretch := within_stretch
    (hsorted.sublist ((sublist_append_right before stretch).trans (sublist_append_left _ rest)))
    hfirst hlast
  rw [htimes, filter_append, filter_append, length_append, length_append,
    filter_eq_self.mpr fun t ht => decide_eq_true (hstretch t ht)]
  omega

end AllAccepted

end TokenBucket
