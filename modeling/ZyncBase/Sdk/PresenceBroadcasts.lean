import ZyncBase.Lib.Machine
import ZyncBase.Sdk.PresenceTier

/-! The broadcasts of a presence subscription that reach the cache of the client: those that are
dispatched after the continuation of the subscribe. -/
namespace ZyncBase.Sdk

open AssocMap List Machine

/-- What the event loop of the client runs: the messages of a frame, or the continuation of an
establishment. -/
inductive Delivery (Snapshot Patch : Type) where
  | frame (messages : List (PresenceInbound Snapshot Patch))
  | resume (promise : ℕ)

/-- One message of a frame, or a continuation. -/
inductive Arrival (Snapshot Patch : Type) where
  | message (m : PresenceInbound Snapshot Patch)
  | resume (promise : ℕ)

namespace PresenceInbound

variable {Snapshot Patch : Type}

/-- The request that the message responds to. -/
def request : PresenceInbound Snapshot Patch → Option ℕ
  | .ok id _ | .error id => some id
  | _ => none

/-- What a broadcast of the subscription carries. -/
def broadcastOf (subId : ℕ) : PresenceInbound Snapshot Patch → Option Patch
  | .broadcast subId' patch => if subId' = subId then some patch else none
  | _ => none

end PresenceInbound

def Arrival.message? {Snapshot Patch : Type} : Arrival Snapshot Patch → Option (PresenceInbound Snapshot Patch)
  | .message m => some m
  | .resume _ => none

namespace Delivery

variable {Snapshot Patch : Type}

def arrivals : Delivery Snapshot Patch → List (Arrival Snapshot Patch)
  | .frame messages => messages.map .message
  | .resume promise => [.resume promise]

def messages : Delivery Snapshot Patch → List (PresenceInbound Snapshot Patch)
  | .frame messages => messages
  | .resume _ => []

end Delivery

open Delivery

variable {id promise subId : ℕ}

namespace PresenceClient

variable {Snapshot Patch Cache : Type} (tier : PresenceTier Snapshot Patch Cache)

def deliver (c : PresenceClient Snapshot Cache) : Delivery Snapshot Patch → PresenceClient Snapshot Cache
  | .frame messages => c.processInbound tier messages
  | .resume promise => c.resume tier promise

def arrive (c : PresenceClient Snapshot Cache) : Arrival Snapshot Patch → PresenceClient Snapshot Cache
  | .message m => c.dispatchInbound tier m
  | .resume promise => c.resume tier promise

lemma foldl_deliver (deliveries : List (Delivery Snapshot Patch)) (c : PresenceClient Snapshot Cache) :
    deliveries.foldl (deliver tier) c = (deliveries.flatMap arrivals).foldl (arrive tier) c := by
  induction deliveries generalizing c with
  | nil => rfl
  | cons d ds ih =>
    rw [foldl_cons, ih, flatMap_cons, foldl_append]
    congr 1
    cases d with
    | frame messages =>
      rw [arrivals, foldl_map]
      rfl
    | resume promise => rfl

/-- The response with the subscription has been dispatched, and its continuation has not run. -/
def AwaitsContinuation (subId : ℕ) (c : PresenceClient Snapshot Cache) : Prop :=
  ∃ e ∈ c.establishments, ∃ id response, e.suspension = .subscribing id ∧
    find eqKey id c.outcomes = some (some response) ∧ response.subId = some subId

/-- No broadcast is dispatched between the response with its subscription and the continuation. -/
def Unhurried (c : PresenceClient Snapshot Cache) : Arrival Snapshot Patch → Prop
  | .message (.broadcast subId _) => ¬ c.AwaitsContinuation subId
  | _ => True

/-- The current establishment of the client awaits the response to its subscribe, and some listener
will not be closed with one of the superseded establishments. -/
structure Awaits (promise id : ℕ) (c : PresenceClient Snapshot Cache) : Prop where
  unset : c.subId = none
  current : ⟨promise, c.subGen, .subscribing id⟩ ∈ c.establishments
  unique : ∀ e ∈ c.establishments, e.promise = promise → e = ⟨promise, c.subGen, .subscribing id⟩
  superseded : ∀ e ∈ c.establishments, e.promise ≠ promise → e.gen ≠ c.subGen
  listener : ∃ l ∈ c.callbacks, ∀ w ∈ c.waiting, w.1 = l → w.2 = promise
  sent : id < c.nextRequestId

/-- The response has not been dispatched. -/
structure Subscribing (promise id : ℕ) (c : PresenceClient Snapshot Cache) : Prop
    extends Awaits promise id c where
  pending : id ∈ c.pending
  unanswered : find eqKey id c.outcomes = none

/-- The response has been dispatched. -/
structure Answered (promise id : ℕ) (ok : PresenceOk Snapshot)
    (c : PresenceClient Snapshot Cache) : Prop extends Awaits promise id c where
  closed : id ∉ c.pending
  answer : find eqKey id c.outcomes = some (some ok)

/-- What stays when an establishment goes on that is superseded or over. -/
structure Passes (promise : ℕ) (c c' : PresenceClient Snapshot Cache) : Prop where
  cache : c'.cache = c.cache
  subId : c'.subId = c.subId
  subGen : c'.subGen = c.subGen
  sent : c.nextRequestId ≤ c'.nextRequestId
  outcomes : ∀ id < c.nextRequestId, find eqKey id c'.outcomes = find eqKey id c.outcomes
  pending : ∀ id < c.nextRequestId, id ∈ c'.pending ↔ id ∈ c.pending
  waiting : ∀ w ∈ c'.waiting, w ∈ c.waiting
  callbacks : ∀ l ∈ c.callbacks, (∀ w ∈ c.waiting, w.1 = l → w.2 ≠ promise) → l ∈ c'.callbacks
  others : ∀ e, e.promise ≠ promise → (e ∈ c'.establishments ↔ e ∈ c.establishments)
  own : ∀ e ∈ c'.establishments, e.promise = promise → e.gen ≠ c.subGen ∨ e ∈ c.establishments

lemma find_put_id (id id' : ℕ) (v : Option (PresenceOk Snapshot))
    (m : List (ℕ × Option (PresenceOk Snapshot))) :
    find eqKey id' (put eqKey id v m) = if id = id' then some v else find eqKey id' m := by
  simp only [find_put, eqKey_iff]

namespace Passes

variable {promise gen : ℕ} {c d : PresenceClient Snapshot Cache}

lemma refl (promise : ℕ) (c : PresenceClient Snapshot Cache) : Passes promise c c where
  cache := rfl
  subId := rfl
  subGen := rfl
  sent := le_rfl
  outcomes _ _ := rfl
  pending _ _ := Iff.rfl
  waiting _ hw := hw
  callbacks _ hl _ := hl
  others _ _ := Iff.rfl
  own _ he _ := .inr he

lemma removed (promise : ℕ) (c : PresenceClient Snapshot Cache) : Passes promise c (c.without promise) where
  cache := rfl
  subId := rfl
  subGen := rfl
  sent := le_rfl
  outcomes _ _ := rfl
  pending _ _ := Iff.rfl
  waiting _ hw := hw
  callbacks _ hl _ := hl
  others e he := by simp [without, he]
  own e he hp := by simp [without, hp] at he

lemma suspended (h : Passes promise c d) (s : Suspension) (hgen : gen ≠ c.subGen) :
    Passes promise c (d.suspend ⟨promise, gen, s⟩) where
  cache := h.cache
  subId := h.subId
  subGen := h.subGen
  sent := h.sent
  outcomes := h.outcomes
  pending := h.pending
  waiting := h.waiting
  callbacks := h.callbacks
  others e he := by
    have hne : e ≠ ⟨promise, gen, s⟩ := fun heq => he (congrArg Establishment.promise heq)
    simp only [suspend, mem_append, mem_singleton, hne, or_false]
    exact h.others e he
  own e he hp := by
    simp only [suspend, mem_append, mem_singleton] at he
    cases he with
    | inl he => exact h.own e he hp
    | inr he =>
      subst he
      exact .inl hgen

lemma sentOut (h : Passes promise c d) (request : PresenceRequest) : Passes promise c (d.dispatch request) := by
  have hsent := h.sent
  rw [dispatch]
  split_ifs
  · refine ⟨h.cache, h.subId, h.subGen, ?_, h.outcomes, fun id hid => ?_, h.waiting, h.callbacks,
      h.others, h.own⟩
    · change c.nextRequestId ≤ d.nextRequestId + 1
      omega
    · have hne : id ≠ d.nextRequestId := by omega
      simp only [mem_append, mem_singleton, hne, or_false]
      exact h.pending id hid
  · refine ⟨h.cache, h.subId, h.subGen, ?_, fun id hid => ?_, h.pending, h.waiting, h.callbacks,
      h.others, h.own⟩
    · change c.nextRequestId ≤ d.nextRequestId + 1
      omega
    · change find eqKey id (put eqKey d.nextRequestId none d.outcomes) = _
      rw [find_put_id, if_neg (by omega)]
      exact h.outcomes id hid

lemma handled (h : Passes promise c d) (gen : ℕ) (fulfilled : Bool) :
    Passes promise c (d.runHandlers promise gen fulfilled) where
  cache := h.cache
  subId := h.subId
  subGen := h.subGen
  sent := h.sent
  outcomes := h.outcomes
  pending := h.pending
  waiting w hw := h.waiting w (mem_filter.mp hw).1
  callbacks l hl hw := by
    have hmem := h.callbacks l hl hw
    cases fulfilled with
    | true => exact hmem
    | false =>
      refine mem_filter.mpr ⟨hmem, decide_eq_true fun hlisteners => ?_⟩
      obtain ⟨w, hw', rfl⟩ := mem_map.mp hlisteners
      obtain ⟨hwait, hpromise⟩ := mem_filter.mp hw'
      exact hw w (h.waiting w hwait) rfl (of_decide_eq_true hpromise)
  others := h.others
  own := h.own

lemma stale (h : Passes promise c d) (hgen : gen ≠ c.subGen) : d.hasCurrentSubscribers gen = false := by
  rw [hasCurrentSubscribers, h.subGen, decide_eq_false hgen, Bool.false_and]

lemma accepted (h : Passes promise c d) (hgen : gen ≠ c.subGen) (ok : PresenceOk Snapshot) :
    Passes promise c (d.acceptSubscription tier promise gen ok) := by
  rw [acceptSubscription]
  cases ok.subId with
  | none => exact h.suspended _ hgen
  | some subId =>
    simp only [h.stale hgen, Bool.false_eq_true, if_false]
    exact (h.sentOut _).suspended _ hgen

lemma unsubscribed (h : Passes promise c d) (hgen : gen ≠ c.subGen) :
    Passes promise c (d.unsubscribed promise gen) := by
  rw [PresenceClient.unsubscribed, h.stale hgen, if_neg Bool.false_ne_true]
  exact h.suspended _ hgen

end Passes

/-- An establishment of an older generation, or one whose loop is over, does not touch the
subscription. -/
lemma passes_resume {c : PresenceClient Snapshot Cache}
    (h : ∀ e ∈ c.establishments, e.promise = promise →
      e.gen ≠ c.subGen ∨ ∃ fulfilled, e.suspension = .settled fulfilled) :
    Passes promise c (c.resume tier promise) := by
  rw [resume]
  cases hfind : c.establishments.find? fun e => e.promise = promise with
  | none => exact Passes.refl promise c
  | some e =>
    have hremoved := Passes.removed promise c
    have hp : e.promise = promise := by simpa using find?_some hfind
    have he := h e (mem_of_find?_eq_some hfind) hp
    cases hs : e.suspension with
    | settled fulfilled =>
      simp only [hs]
      exact hremoved.handled e.gen fulfilled
    | subscribing id =>
      have hgen : e.gen ≠ c.subGen := he.resolve_right fun ⟨_, hf⟩ => by rw [hs] at hf; cases hf
      rcases hout : find eqKey id c.outcomes with _ | _ | ok
      · simp only [hs, hout]
        exact Passes.refl promise c
      · simp only [hs, hout]
        exact hremoved.suspended _ hgen
      · simp only [hs, hout]
        exact hremoved.accepted tier hgen ok
    | unsubscribing id =>
      have hgen : e.gen ≠ c.subGen := he.resolve_right fun ⟨_, hf⟩ => by rw [hs] at hf; cases hf
      rcases hout : find eqKey id c.outcomes with _ | _ | ok
      · simp only [hs, hout]
        exact Passes.refl promise c
      · simp only [hs, hout]
        exact hremoved.suspended _ hgen
      · simp only [hs, hout]
        exact hremoved.unsubscribed hgen

/-- The subscription is set, and no establishment goes on to set another one. -/
structure Established (subId : ℕ) (c : PresenceClient Snapshot Cache) : Prop where
  subId : c.subId = some subId
  settled : ∀ e ∈ c.establishments, e.gen = c.subGen → ∃ fulfilled, e.suspension = .settled fulfilled

lemma Awaits.passes {promise' : ℕ} {c d : PresenceClient Snapshot Cache}
    (h : c.Awaits promise id) (hne : promise' ≠ promise) (hp : Passes promise' c d) :
    d.Awaits promise id where
  unset := hp.subId.trans h.unset
  current := by
    rw [hp.subGen]
    exact (hp.others _ hne.symm).mpr h.current
  unique e he heq := by
    rw [hp.subGen]
    exact h.unique e ((hp.others e (by rw [heq]; exact hne.symm)).mp he) heq
  superseded e he hpromise := by
    rw [hp.subGen]
    by_cases heq : e.promise = promise'
    · exact (hp.own e he heq).elim (fun hgen => hgen) fun he => h.superseded e he hpromise
    · exact h.superseded e ((hp.others e heq).mp he) hpromise
  listener := by
    obtain ⟨l, hl, hw⟩ := h.listener
    exact ⟨l, hp.callbacks l hl fun w hmem hw' => by rw [hw w hmem hw']; exact hne.symm,
      fun w hmem => hw w (hp.waiting w hmem)⟩
  sent := h.sent.trans_le hp.sent

lemma Awaits.passes_resume {promise' : ℕ} {c : PresenceClient Snapshot Cache}
    (h : c.Awaits promise id) (hne : promise' ≠ promise) : Passes promise' c (c.resume tier promise') :=
  PresenceClient.passes_resume tier fun e he heq =>
    .inl (h.superseded e he (by rw [heq]; exact hne))

lemma Awaits.find_current {c : PresenceClient Snapshot Cache}
    (h : c.Awaits promise id) : (c.establishments.find? fun e => e.promise = promise) =
      some ⟨promise, c.subGen, .subscribing id⟩ := by
  cases hfind : c.establishments.find? fun e => e.promise = promise with
  | none => exact absurd (find?_eq_none.mp hfind _ h.current) (by simp)
  | some e =>
    have hp : e.promise = promise := by simpa using find?_some hfind
    rw [h.unique e (mem_of_find?_eq_some hfind) hp]

lemma cache_dispatchInbound (c : PresenceClient Snapshot Cache) (m : PresenceInbound Snapshot Patch) :
    (c.dispatchInbound tier m).cache =
      ((c.subId.bind fun subId => m.broadcastOf subId).map (tier.applyBroadcast · c.cache)).getD c.cache := by
  cases m with
  | broadcast subId patch =>
    rw [dispatchInbound, handleBroadcast]
    cases hsub : c.subId with
    | none => rfl
    | some subId' =>
      by_cases heq : subId = subId'
      · simp [PresenceInbound.broadcastOf, heq]
      · simp [PresenceInbound.broadcastOf, heq, Ne.symm heq]
  | ok id response =>
    rw [dispatchInbound, respond]
    cases c.subId <;> split_ifs <;> rfl
  | error id =>
    rw [dispatchInbound, respond]
    cases c.subId <;> split_ifs <;> rfl
  | other => cases c.subId <;> simp [dispatchInbound, PresenceInbound.broadcastOf]

lemma dispatchInbound_eq (c : PresenceClient Snapshot Cache)
    (m : PresenceInbound Snapshot Patch) : ∃ cache pending outcomes,
      c.dispatchInbound tier m = { c with cache := cache, pending := pending, outcomes := outcomes } ∧
      ∀ id, m.request ≠ some id →
        (id ∈ pending ↔ id ∈ c.pending) ∧ find eqKey id outcomes = find eqKey id c.outcomes := by
  have hrespond : ∀ id outcome, ∃ cache pending outcomes,
      c.respond id outcome = { c with cache := cache, pending := pending, outcomes := outcomes } ∧
      ∀ id', some id ≠ some id' →
        (id' ∈ pending ↔ id' ∈ c.pending) ∧ find eqKey id' outcomes = find eqKey id' c.outcomes := by
    intro id outcome
    rw [respond]
    split_ifs
    · refine ⟨_, _, _, rfl, fun id' hne => ?_⟩
      have hne' : id' ≠ id := fun heq => hne (congrArg some heq.symm)
      rw [find_put_id, if_neg hne'.symm]
      simp [hne']
    · exact ⟨_, _, _, rfl, fun _ _ => ⟨Iff.rfl, rfl⟩⟩
  cases m with
  | ok id response => exact hrespond id _
  | error id => exact hrespond id _
  | other => exact ⟨_, _, _, rfl, fun _ _ => ⟨Iff.rfl, rfl⟩⟩
  | broadcast subId patch =>
    rw [dispatchInbound, handleBroadcast]
    split_ifs
    · exact ⟨_, _, _, rfl, fun _ _ => ⟨Iff.rfl, rfl⟩⟩
    · exact ⟨_, _, _, rfl, fun _ _ => ⟨Iff.rfl, rfl⟩⟩

lemma Awaits.dispatchInbound {c : PresenceClient Snapshot Cache}
    (h : c.Awaits promise id) (m : PresenceInbound Snapshot Patch) :
    (c.dispatchInbound tier m).Awaits promise id := by
  obtain ⟨cache, pending, outcomes, heq, -⟩ := dispatchInbound_eq tier c m
  rw [heq]
  exact ⟨h.unset, h.current, h.unique, h.superseded, h.listener, h.sent⟩

lemma Subscribing.dispatchInbound {c : PresenceClient Snapshot Cache}
    (h : c.Subscribing promise id) {m : PresenceInbound Snapshot Patch} (hm : m.request ≠ some id) :
    (c.dispatchInbound tier m).Subscribing promise id := by
  refine ⟨h.toAwaits.dispatchInbound tier m, ?_, ?_⟩
  · obtain ⟨cache, pending, outcomes, heq, hreq⟩ := dispatchInbound_eq tier c m
    rw [heq]
    exact (hreq id hm).1.mpr h.pending
  · obtain ⟨cache, pending, outcomes, heq, hreq⟩ := dispatchInbound_eq tier c m
    rw [heq]
    exact (hreq id hm).2.trans h.unanswered

lemma Subscribing.answered {promise id : ℕ} {c : PresenceClient Snapshot Cache}
    (h : c.Subscribing promise id) (ok : PresenceOk Snapshot) :
    (c.dispatchInbound tier (.ok id ok)).Answered promise id ok := by
  refine ⟨h.toAwaits.dispatchInbound tier _, ?_, ?_⟩
  · simp [PresenceClient.dispatchInbound, respond, h.pending]
  · simp [PresenceClient.dispatchInbound, respond, h.pending, find_put_id]

variable {ok : PresenceOk Snapshot}

lemma Answered.dispatchInbound {c : PresenceClient Snapshot Cache} (h : c.Answered promise id ok)
    (m : PresenceInbound Snapshot Patch) : (c.dispatchInbound tier m).Answered promise id ok := by
  have hawaits := h.toAwaits.dispatchInbound tier m
  by_cases hm : m.request = some id
  · have heq : c.dispatchInbound tier m = c := by
      cases m with
      | ok id' response =>
        cases hm
        rw [PresenceClient.dispatchInbound, respond, if_neg h.closed]
      | error id' =>
        cases hm
        rw [PresenceClient.dispatchInbound, respond, if_neg h.closed]
      | broadcast subId patch => cases hm
      | other => cases hm
    rw [heq]
    exact h
  · obtain ⟨cache, pending, outcomes, heq, hreq⟩ := dispatchInbound_eq tier c m
    refine ⟨hawaits, ?_, ?_⟩
    · rw [heq]
      exact fun hmem => h.closed ((hreq id hm).1.mp hmem)
    · rw [heq]
      exact (hreq id hm).2.trans h.answer

lemma Answered.resume
    {c : PresenceClient Snapshot Cache} (h : c.Answered promise id ok) (hsub : ok.subId = some subId) :
    (c.resume tier promise).Established subId ∧ (c.resume tier promise).cache = tier.populate ok.snapshot := by
  obtain ⟨l, hl, -⟩ := h.listener
  have hsubscribers : (c.without promise).hasCurrentSubscribers c.subGen = true := by
    simp [hasCurrentSubscribers, without, ne_nil_of_mem hl]
  have heq : c.resume tier promise =
      { c.without promise with
        subId := some subId, cache := tier.populate ok.snapshot }.suspend
          ⟨promise, c.subGen, .settled true⟩ := by
    simp only [PresenceClient.resume, h.find_current, h.answer, acceptSubscription, hsub, hsubscribers, if_true]
  rw [heq]
  refine ⟨⟨rfl, fun e he hgen => ?_⟩, rfl⟩
  cases mem_append.mp he with
  | inl he =>
    obtain ⟨hmem, hne⟩ := mem_filter.mp he
    exact absurd hgen (h.superseded e hmem (of_decide_eq_true hne))
  | inr he =>
    rw [mem_singleton.mp he]
    exact ⟨true, rfl⟩

section Runs

variable {tier}

/-- The broadcasts of the subscription among the messages, applied in order. -/
def applyAll (tier : PresenceTier Snapshot Patch Cache) (subId : ℕ)
    (messages : List (PresenceInbound Snapshot Patch)) (cache : Cache) : Cache :=
  (messages.filterMap fun m => m.broadcastOf subId).foldl
    (fun cache patch => tier.applyBroadcast patch cache) cache

lemma applyAll_cons (subId : ℕ) (m : PresenceInbound Snapshot Patch)
    (messages : List (PresenceInbound Snapshot Patch)) (cache : Cache) :
    applyAll tier subId (m :: messages) cache = applyAll tier subId messages
        (((m.broadcastOf subId).map (tier.applyBroadcast · cache)).getD cache) := by
  rw [applyAll, filterMap_cons]
  cases m.broadcastOf subId <;> rfl

lemma applyAll_cons_of_none {m : PresenceInbound Snapshot Patch}
    (h : m.broadcastOf subId = none) (messages : List (PresenceInbound Snapshot Patch))
    (cache : Cache) : applyAll tier subId (m :: messages) cache = applyAll tier subId messages cache := by
  rw [applyAll_cons, h]
  rfl

variable {c : PresenceClient Snapshot Cache}

lemma Established.arrive
    (h : c.Established subId) (a : Arrival Snapshot Patch) : (c.arrive tier a).Established subId ∧
      (c.arrive tier a).cache = applyAll tier subId a.message?.toList c.cache := by
  cases a with
  | message m =>
    refine ⟨?_, ?_⟩
    · obtain ⟨cache, pending, outcomes, heq, -⟩ := dispatchInbound_eq tier c m
      rw [PresenceClient.arrive, heq]
      exact ⟨h.subId, h.settled⟩
    · rw [PresenceClient.arrive, cache_dispatchInbound, h.subId]
      exact (applyAll_cons subId m [] c.cache).symm
  | resume promise =>
    have hp : Passes promise c (c.resume tier promise) := passes_resume tier fun e he _ =>
      (em (e.gen = c.subGen)).elim (fun hgen => .inr (h.settled e he hgen)) .inl
    refine ⟨⟨hp.subId.trans h.subId, fun e he hgen => ?_⟩, hp.cache⟩
    rw [PresenceClient.arrive, hp.subGen] at hgen
    by_cases heq : e.promise = promise
    · exact h.settled e ((hp.own e he heq).resolve_left fun hne => hne hgen) hgen
    · exact h.settled e ((hp.others e heq).mp he) hgen

lemma Established.run (h : c.Established subId)
    (arrivals : List (Arrival Snapshot Patch)) : (arrivals.foldl (PresenceClient.arrive tier) c).cache =
      applyAll tier subId (arrivals.filterMap Arrival.message?) c.cache := by
  induction arrivals generalizing c with
  | nil => rfl
  | cons a as ih =>
    obtain ⟨hstep, hcache⟩ := h.arrive a
    rw [foldl_cons, ih hstep, hcache, filterMap_cons]
    cases a with
    | message m => rw [Arrival.message?, applyAll_cons, Option.toList_some, applyAll_cons]; rfl
    | resume promise => rfl

lemma Answered.run (h : c.Answered promise id ok)
    (hsub : ok.subId = some subId) {arrivals : List (Arrival Snapshot Patch)}
    (hrun : Along (PresenceClient.arrive tier) Unhurried c arrivals)
    (hdone : ∀ e ∈ (arrivals.foldl (PresenceClient.arrive tier) c).establishments,
      e.promise = promise → e.suspension ≠ .subscribing id) :
    (arrivals.foldl (PresenceClient.arrive tier) c).cache =
      applyAll tier subId (arrivals.filterMap Arrival.message?) (tier.populate ok.snapshot) := by
  induction arrivals generalizing c with
  | nil => exact absurd rfl (hdone _ h.current rfl)
  | cons a as ih =>
    rw [foldl_cons] at hdone ⊢
    cases a with
    | message m =>
      have hnone : m.broadcastOf subId = none := by
        cases m with
        | broadcast subId' patch =>
          refine if_neg fun heq => hrun.1 ⟨_, h.current, id, ok, rfl, h.answer, ?_⟩
          rw [hsub, heq]
        | _ => rfl
      refine (ih (h.dispatchInbound tier m) hrun.2 hdone).trans ?_
      rw [filterMap_cons, Arrival.message?, applyAll_cons_of_none hnone]
    | resume promise' =>
      by_cases hpromise : promise' = promise
      · subst hpromise
        obtain ⟨hestablished, hcache⟩ := h.resume tier hsub
        rw [PresenceClient.arrive, hestablished.run, hcache]
        rfl
      · have hp := h.toAwaits.passes_resume tier hpromise
        exact ih ⟨h.toAwaits.passes hpromise hp, fun hmem => h.closed ((hp.pending id h.sent).mp hmem),
          (hp.outcomes id h.sent).trans h.answer⟩ hrun.2 hdone

lemma Subscribing.run (h : c.Subscribing promise id)
    (hsub : ok.subId = some subId) {arrivals : List (Arrival Snapshot Patch)}
    {before after : List (PresenceInbound Snapshot Patch)}
    (hmessages : arrivals.filterMap Arrival.message? = before ++ .ok id ok :: after)
    (hbefore : ∀ m ∈ before, m.request ≠ some id)
    (hrun : Along (PresenceClient.arrive tier) Unhurried c arrivals)
    (hdone : ∀ e ∈ (arrivals.foldl (PresenceClient.arrive tier) c).establishments,
      e.promise = promise → e.suspension ≠ .subscribing id) :
    (arrivals.foldl (PresenceClient.arrive tier) c).cache =
      applyAll tier subId after (tier.populate ok.snapshot) := by
  induction arrivals generalizing c before with
  | nil => exact absurd hmessages.symm (by simp)
  | cons a as ih =>
    rw [foldl_cons] at hdone ⊢
    cases a with
    | message m =>
      rw [filterMap_cons, Arrival.message?] at hmessages
      cases before with
      | nil =>
        obtain ⟨rfl, rfl⟩ := List.cons.inj hmessages
        exact (h.answered tier ok).run hsub hrun.2 hdone
      | cons b bs =>
        obtain ⟨rfl, htail⟩ := List.cons.inj hmessages
        exact ih (h.dispatchInbound tier (hbefore _ mem_cons_self)) htail
          (fun m hm => hbefore m (mem_cons_of_mem _ hm)) hrun.2 hdone
    | resume promise' =>
      refine ih ?_ hmessages hbefore hrun.2 hdone
      by_cases hpromise : promise' = promise
      · have hsame : c.resume tier promise' = c := by
          subst hpromise
          simp only [PresenceClient.resume, h.find_current, h.unanswered]
        rw [PresenceClient.arrive, hsame]
        exact h
      · have hp := h.toAwaits.passes_resume tier hpromise
        exact ⟨h.toAwaits.passes hpromise hp, (hp.pending id h.sent).mpr h.pending,
          (hp.outcomes id h.sent).trans h.unanswered⟩

/-- The response with a subscription is delivered to a client that awaits it, with other messages before
and after it, and the continuation has run. -/
structure Delivered (tier : PresenceTier Snapshot Patch Cache) (promise id subId : ℕ)
    (ok : PresenceOk Snapshot) (after : List (PresenceInbound Snapshot Patch))
    (c : PresenceClient Snapshot Cache) (deliveries : List (Delivery Snapshot Patch)) : Prop where
  subscribing : c.Subscribing promise id
  subId : ok.subId = some subId
  messages : ∃ before, deliveries.flatMap messages = before ++ .ok id ok :: after ∧
    ∀ m ∈ before, m.request ≠ some id
  resumed : ∀ e ∈ (deliveries.foldl (deliver tier) c).establishments,
    e.promise = promise → e.suspension ≠ .subscribing id

lemma messages_arrivals (deliveries : List (Delivery Snapshot Patch)) :
    (deliveries.flatMap arrivals).filterMap Arrival.message? =
      deliveries.flatMap messages := by
  rw [filterMap_flatMap]
  refine flatMap_congr fun d _ => ?_
  cases d with
  | frame messages =>
    rw [Delivery.arrivals, Delivery.messages, filterMap_map]
    exact filterMap_some
  | resume promise => rfl

lemma cache_deliver {after : List (PresenceInbound Snapshot Patch)}
    {deliveries : List (Delivery Snapshot Patch)} (h : Delivered tier promise id subId ok after c deliveries)
    (hrun : Along (PresenceClient.arrive tier) Unhurried c (deliveries.flatMap arrivals)) :
    (deliveries.foldl (deliver tier) c).cache = applyAll tier subId after (tier.populate ok.snapshot) := by
  obtain ⟨before, hmessages, hbefore⟩ := h.messages
  have hresumed := h.resumed
  rw [foldl_deliver] at hresumed ⊢
  exact h.subscribing.run h.subId ((messages_arrivals deliveries).trans hmessages) hbefore hrun hresumed

lemma subscribing_subscribe (hconnected : c.connected = true)
    (hsub : c.subId = none) (hpromise : c.subPromise = none)
    (hpromises : ∀ e ∈ c.establishments, e.promise ≠ c.nextPromise ∧ e.gen ≠ c.subGen)
    (hlisteners : ∀ w ∈ c.waiting, w.1 ≠ c.nextListener)
    (hids : ∀ e ∈ c.outcomes, e.1 ≠ c.nextRequestId) :
    c.subscribe.Subscribing c.nextPromise c.nextRequestId := by
  have hfind : find eqKey c.nextRequestId c.outcomes = none := by
    refine Option.eq_none_iff_forall_not_mem.mpr fun outcome houtcome => ?_
    obtain ⟨id, hid, hmem⟩ := mem_of_find eqKey houtcome
    exact hids _ hmem ((eqKey_iff _ _).mp hid)
  have heq : c.subscribe =
      { c with
        callbacks := c.callbacks ++ [c.nextListener]
        nextListener := c.nextListener + 1
        nextPromise := c.nextPromise + 1
        subPromise := some c.nextPromise
        nextRequestId := c.nextRequestId + 1
        pending := c.pending ++ [c.nextRequestId]
        sent := c.sent ++ [(c.nextRequestId, .subscribe)]
        establishments := c.establishments ++ [⟨c.nextPromise, c.subGen, .subscribing c.nextRequestId⟩]
        waiting := c.waiting ++ [(c.nextListener, c.nextPromise)] } := by
    simp [subscribe, ensureSubscription, establish, dispatch, suspend, hsub, hpromise, hconnected]
  rw [heq]
  refine ⟨⟨hsub, ?_, ?_, ?_, ⟨c.nextListener, ?_, ?_⟩, Nat.lt_succ_self _⟩, ?_, hfind⟩
  · simp
  · intro e he hpromise
    cases mem_append.mp he with
    | inl he => exact absurd hpromise (hpromises e he).1
    | inr he => exact mem_singleton.mp he
  · intro e he hpromise
    cases mem_append.mp he with
    | inl he => exact (hpromises e he).2
    | inr he => exact absurd (congrArg Establishment.promise (mem_singleton.mp he)) hpromise
  · simp
  · intro w hw hlistener
    cases mem_append.mp hw with
    | inl hw => exact absurd hlistener (hlisteners w hw)
    | inr hw => rw [mem_singleton.mp hw]
  · simp

end Runs

end PresenceClient

open PresenceClient

abbrev UsersClient := PresenceClient (Option (List PresenceUserSnapshot)) UserCache

abbrev SharedClient := PresenceClient (Option Entries) (Option Entries)

/-- If no broadcast of the subscription is dispatched between its response and the continuation, then
the map of the users, and likewise the shared record, is the snapshot of the response with every
later broadcast applied in order. -/
theorem cache_eq_snapshot_with_broadcasts {promise id subId : ℕ} :
    (∀ {ok after deliveries} {c : UsersClient}, c.Delivered usersTier promise id subId ok after deliveries →
      Along (arrive usersTier) Unhurried c
        (deliveries.flatMap arrivals) →
      (deliveries.foldl (deliver usersTier) c).cache.get =
        (after.filterMap fun m => m.broadcastOf subId).flatten.foldl UserMap.apply
          (UserMap.ofSnapshot (ok.snapshot.getD []))) ∧
    (∀ {ok after deliveries} {c : SharedClient}, c.Delivered sharedTier promise id subId ok after deliveries →
      Along (arrive sharedTier) Unhurried c
        (deliveries.flatMap arrivals) →
      (deliveries.foldl (deliver sharedTier) c).cache =
        (after.filterMap fun m => m.broadcastOf subId).flatten.foldl
          (fun shared patch => some (spread (shared.getD []) patch)) ok.snapshot) := by
  refine ⟨fun h hrun => ?_, fun h hrun => ?_⟩
  · rw [cache_deliver h hrun, applyAll, foldl_flatten]
    rw [← UserCache.get_populateUserCacheFromSnapshot]
    exact (foldl_hom UserCache.get fun cache patch =>
      (UserCache.get_handlePresenceBroadcast patch cache).symm).symm
  · rw [cache_deliver h hrun, applyAll, foldl_flatten]
    rfl

namespace PresenceFrameExample

def idle : UsersClient := { cache := UserCache.clearUserCache, connected := true }

/-- The client subscribes to the users as the first thing on its connection. -/
def client : UsersClient := idle.subscribe

def ok : PresenceOk (Option (List PresenceUserSnapshot)) := ⟨some 7, some [⟨"ann", [], some 1⟩]⟩

def joined : PresenceInbound (Option (List PresenceUserSnapshot)) (List PresenceBroadcastEntry) :=
  .broadcast 7 [⟨"bob", .join, some [], some 2⟩]

lemma client_subscribing : client.Subscribing 0 1 :=
  subscribing_subscribe (c := idle) rfl rfl rfl
    (fun _ h => absurd h not_mem_nil) (fun _ h => absurd h not_mem_nil)
    fun _ h => absurd h not_mem_nil

/-- The broadcast comes in a frame of its own, after the continuation. -/
def apart : List (Delivery (Option (List PresenceUserSnapshot)) (List PresenceBroadcastEntry)) :=
  [.frame [.ok 1 ok], .resume 0, .resume 0, .frame [joined]]

/-- The broadcast is behind the response in its frame. -/
def concatenated : List (Delivery (Option (List PresenceUserSnapshot)) (List PresenceBroadcastEntry)) :=
  [.frame [.ok 1 ok, joined], .resume 0, .resume 0]

lemma delivered_apart : client.Delivered usersTier 0 1 7 ok [joined] apart where
  subscribing := client_subscribing
  subId := rfl
  messages := ⟨[], rfl, nofun⟩
  resumed _ h := absurd h not_mem_nil

lemma delivered_concatenated : client.Delivered usersTier 0 1 7 ok [joined] concatenated where
  subscribing := client_subscribing
  subId := rfl
  messages := ⟨[], rfl, nofun⟩
  resumed _ h := absurd h not_mem_nil

theorem users_apart : (apart.foldl (deliver usersTier) client).cache.get =
    [PresenceBroadcastEntry.mk "bob" .join (some []) (some 2)].foldl UserMap.apply
      (UserMap.ofSnapshot [⟨"ann", [], some 1⟩]) := by
  refine cache_eq_snapshot_with_broadcasts.1 delivered_apart ⟨trivial, trivial, trivial, ?_, trivial⟩
  rintro ⟨e, he, -⟩
  exact absurd he not_mem_nil

/-- The user that joins behind the response is not in the cache. -/
theorem users_concatenated_lost : client.Delivered usersTier 0 1 7 ok [joined] concatenated ∧
    (concatenated.foldl (deliver usersTier) client).cache.get ≠
      ([joined].filterMap fun m => m.broadcastOf 7).flatten.foldl UserMap.apply
        (UserMap.ofSnapshot (ok.snapshot.getD [])) := by
  refine ⟨delivered_concatenated, fun h => ?_⟩
  have hbob := congrFun h "bob"
  have hnone : ((concatenated.foldl (deliver usersTier) client).cache.get
      "bob").isNone := by decide
  rw [hbob] at hnone
  exact absurd hnone (by decide)

end PresenceFrameExample

end ZyncBase.Sdk
