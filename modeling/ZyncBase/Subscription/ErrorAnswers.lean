import ZyncBase.Storage.ReadWorker
import ZyncBase.Subscription.HeldIds

/-! Subscriptions whose request is answered with an error: the handler undoes what it registered, but the
worker that serves the read does not. -/
namespace ZyncBase

open AssocMap Function Machine Outcome List

namespace SubscriptionEngine

lemma Seated.active_of_match {e : SubscriptionEngine} (h : e.Seated) {change : RecordChange}
    {ms : List Match} (hms : e.handleRecordChange change = .ok ms) {m : Match} (hm : m ∈ ms) :
    (e.active m.key).isSome := by
  have hgroup {op : MatchOp} {id : ℕ} (hin : m ∈ e.subscriberMatches op id) : (e.active m.key).isSome := by
    rw [subscriberMatches_eq] at hin
    obtain ⟨key, hkey, rfl⟩ := mem_map.mp hin
    change (e.active key).isSome
    rw [(h.subscribed.active key id).mpr hkey]
    rfl
  rw [SubscriptionEngine.handleRecordChange] at hms
  cases hfound : find eqKey change.collection e.triesByCollection with
  | none =>
    rw [hfound] at hms
    cases hms
    cases hm
  | some trie =>
    rw [hfound] at hms
    obtain ⟨before, -, hms⟩ := bind_eq_ok.mp hms
    obtain ⟨after, -, hms⟩ := bind_eq_ok.mp hms
    cases hms
    rw [appendSubscriberMatches, mem_append, mem_flatMap, mem_flatMap] at hm
    rcases hm with ⟨id, -, hin⟩ | ⟨id, -, hin⟩
    · exact hgroup hin
    · exact hgroup hin

end SubscriptionEngine

/-- The deltas of a change that reach their clients. -/
def ChangeJob.sent (job : ChangeJob) (e : SubscriptionEngine) : List Match :=
  match e.handleRecordChange job.change with
  | .error _ => []
  | .ok ms => ms.filter job.delivered

/-- How a worker comes to answer the read of a request, when it serves it or when it stops. -/
structure ReadAttempt where
  enc : Encodings
  encodeToken : Payload → Bytes
  faults : ReadFaults
  size : ReadAnswer → ℕ
  maxSize : ℕ
  cache : ℤ → DocId → Option Record
  rows : List Record
  stopped : Bool := false

def ReadAttempt.answer (a : ReadAttempt) (s : Schema) (req : ReadRequest) : Option ReadAnswer :=
  if a.stopped then
    if a.faults.arena || a.faults.encode || a.faults.push then none else some (.error "STORE_QUERY" "shutdown")
  else ReadWorker.serve a.enc a.encodeToken a.faults s a.size a.maxSize a.cache a.rows req

structure SubscribeRequest where
  connId : ℕ
  parsed : Payload
  faults : SubscribeFaults := {}
  during : List ChangeJob := []
  read : ReadAttempt

namespace StoreServer

variable {Claims : Type}

def requested (r : SubscribeRequest) : StoreEvent Claims := .subscribe r.connId r.parsed r.faults r.during

section Answers

variable (cfg : StoreConfig Claims)

/-- The deltas that are sent during an event. While a request is handled, changes find what it has
registered, also when that is undone afterwards. -/
def deltas (st : StoreServer Claims) : StoreEvent Claims → List Match
  | .change job => job.sent st.engine
  | .subscribe connId parsed faults during =>
    match st.register cfg connId parsed faults with
    | .error _ => []
    | .ok (st, _, _) => during.flatMap fun job => job.sent st.engine
  | _ => []

def AnswersError (st : StoreServer Claims) (r : SubscribeRequest) : Prop :=
  match (st.handleStoreSubscribe cfg r.connId r.parsed r.faults).2 with
  | .refused | .undone _ => True
  | .queued req => ∃ code message, r.read.answer cfg.schema req = some (.error code message)

def Takes (st : StoreServer Claims) (r : SubscribeRequest) (id : ℕ) : Prop :=
  id = st.nextSubscriptionId r.connId ∧ (st.step cfg (requested r)).nextSubscriptionId r.connId ≠ id

/-- Whoever has the number of the connection is the connection of the opening. -/
def OfOpening (st : StoreServer Claims) (connId opening : ℕ) : Prop :=
  ∀ c, st.server.map connId = some c → c.opening = opening

/-- No delta of the run is for the subscription. -/
def Quiet (connId opening id : ℕ) : StoreServer Claims → List (StoreEvent Claims) → Prop :=
  Along (step cfg) fun st ev =>
    st.OfOpening connId opening → ∀ m ∈ st.deltas cfg ev, m.key ≠ ⟨connId, id⟩

/-- The connection closes, leaves its store namespace or unsubscribes the id that it has. -/
def Ends (st : StoreServer Claims) (connId opening id : ℕ) (ev : StoreEvent Claims) : Prop :=
  st.server.openings connId = some opening ∧ id ∈ st.subscriptionIds connId ∧
    match ev with
    | .connection ev _ => st.server.detaches cfg.scopes ev = some connId
    | .unsubscribe c i _ => c = connId ∧ i = id
    | _ => False

/-- What the handler had registered is not found by a change before it is undone, and what it has left
ends, by the client and before a change finds it, when the read is answered with an error. -/
def Spared (st : StoreServer Claims) (r : SubscribeRequest) (opening id : ℕ)
    (between : List (StoreEvent Claims)) : Prop :=
  match (st.handleStoreSubscribe cfg r.connId r.parsed r.faults).2 with
  | .refused => True
  | .undone _ => Quiet cfg r.connId opening id st [requested r]
  | .queued req => (∃ code message, r.read.answer cfg.schema req = some (.error code message)) →
      ∃ xs ev ys, between = xs ++ ev :: ys ∧ Quiet cfg r.connId opening id st (requested r :: xs) ∧
        Ends cfg (xs.foldl (step cfg) (st.step cfg (requested r))) r.connId opening id ev

/-- After the events up to the answer and any more, nothing is left of the subscription, and no delta has
been sent for it. -/
structure Cleared (st : StoreServer Claims) (r : SubscribeRequest) (opening id : ℕ)
    (between after : List (StoreEvent Claims)) : Prop where
  removed : OfOpening ((requested r :: (between ++ after)).foldl (step cfg) st) r.connId opening →
    ((requested r :: (between ++ after)).foldl (step cfg) st).engine.active ⟨r.connId, id⟩ = none ∧
      id ∉ ((requested r :: (between ++ after)).foldl (step cfg) st).subscriptionIds r.connId
  quiet : Quiet cfg r.connId opening id st (requested r :: (between ++ after))

end Answers

variable {cfg : StoreConfig Claims} {st st' : StoreServer Claims} {connId opening id : ℕ}

lemma ne_key_of_sent {e : SubscriptionEngine} (he : e.Seated) {key : SubscriberKey}
    (hkey : e.active key = none) {job : ChangeJob} {m : Match} (hm : m ∈ job.sent e) : m.key ≠ key := by
  unfold ChangeJob.sent at hm
  cases hms : e.handleRecordChange job.change with
  | error err =>
    rw [hms] at hm
    cases hm
  | ok ms =>
    rw [hms] at hm
    rintro rfl
    have hactive := he.active_of_match hms (mem_of_mem_filter hm)
    rw [hkey] at hactive
    cases hactive

lemma Gone.deltas (h : st.Gone connId opening id) (hst : st.Agrees) (hsame : st.OfOpening connId opening)
    (ev : StoreEvent Claims) : ∀ m ∈ st.deltas cfg ev, m.key ≠ ⟨connId, id⟩ := by
  intro m hm
  have habsent := h.absent hst hsame
  cases ev with
  | change job => exact ne_key_of_sent hst.seated habsent hm
  | subscribe c parsed faults during =>
    have hspec := register_spec cfg hst c parsed faults
    unfold StoreServer.deltas at hm
    dsimp only at hm
    cases hr : st.register cfg c parsed faults with
    | error st₁ =>
      rw [hr] at hm
      cases hm
    | ok p =>
      rw [hr] at hm hspec
      obtain ⟨hreg, -, -, -⟩ := hspec
      obtain ⟨job, -, hm⟩ := mem_flatMap.mp hm
      obtain ⟨groupId, hactive⟩ := hreg.active
      refine ne_key_of_sent hreg.seated ?_ hm
      rw [hactive, update_of_ne, habsent]
      intro hkey
      cases hkey
      obtain ⟨conn, hconn⟩ := Option.isSome_iff_exists.mp hreg.open_
      have hissued := (h.inactive (by rw [Server.openings, hconn, Option.map_some, hsame conn hconn])).1
      exact hissued.elim hreg.next (lt_irrefl _)
  | _ => cases hm

lemma Gone.quiet (h : st.Gone connId opening id) (hst : st.Agrees) (events : List (StoreEvent Claims)) :
    Quiet cfg connId opening id st events := by
  unfold Quiet
  induction events generalizing st with
  | nil => trivial
  | cons ev events ih => exact ⟨fun hsame => h.deltas hst hsame ev, ih (h.step hst ev) (hst.step ev)⟩

/-- A request that leaves nothing behind has lost the id that it took. -/
lemma Idle.gone (hidle : Idle st st') (hst : st.Agrees) (hopened : Opened st.server)
    (hopen : st.server.openings connId = some opening) (hid : id = st.nextSubscriptionId connId)
    (htaken : st'.nextSubscriptionId connId ≠ id) : st'.Gone connId opening id := by
  subst hid
  refine ⟨?_, fun _ => ?_⟩
  · rw [hidle.server]
    exact hopened connId opening hopen
  rcases hidle.counted with hsame | ⟨c, hnext, hcount⟩
  · exact absurd (congrFun hsame connId) htaken
  have hc : connId = c := by
    by_contra hc
    exact htaken (by rw [hcount, update_of_ne hc])
  subst hc
  rw [Issued, hcount, update_self, hidle.active]
  refine ⟨?_, ?_⟩
  · have hbound := hst.bounded connId
    omega
  · rw [← Option.not_isSome_iff_eq_none, hst.agree]
    intro hmem
    exact (hst.issued connId _ hmem).elim hnext (lt_irrefl _)

lemma Agrees.unsubscribed (hst : st.Agrees) (hopened : Opened st.server)
    (hopen : st.server.openings connId = some opening) (hid : st.Issued connId id) (oom : Bool) :
    (st.step cfg (.unsubscribe connId id oom)).Gone connId opening id := by
  obtain ⟨c, hc, rfl⟩ := Option.map_eq_some_iff.mp hopen
  have hstep : st.step cfg (.unsubscribe connId id oom) =
      { st with engine := st.engine.removeSubscriberOr oom ⟨connId, id⟩ }.removeSubscription connId id := by
    rw [StoreServer.step, StoreServer.handleStoreUnsubscribe, hc]
  rw [hstep]
  refine ⟨hopened connId _ hopen, fun _ => ⟨hid, ?_⟩⟩
  change (st.engine.removeSubscriberOr oom ⟨connId, id⟩).active _ = none
  rw [(hst.seated.removeSubscriberOr oom ⟨connId, id⟩).2, update_self]

lemma Ends.gone {ev : StoreEvent Claims} (h : Ends cfg st connId opening id ev) (hst : st.Agrees)
    (hopened : Opened st.server) : (st.step cfg ev).Gone connId opening id := by
  obtain ⟨hopen, hmem, hev⟩ := h
  have hid := hst.issued connId id hmem
  cases ev with
  | connection ev oom =>
    obtain ⟨c, hc, rfl⟩ := Option.map_eq_some_iff.mp hopen
    exact hst.detached hopened oom hc hev hid
  | unsubscribe c i oom =>
    obtain ⟨rfl, rfl⟩ := hev
    exact hst.unsubscribed hopened hopen hid oom
  | _ => cases hev

lemma Ends.quiet {ev : StoreEvent Claims} (h : Ends cfg st connId opening id ev) :
    Quiet cfg connId opening id st [ev] := by
  refine ⟨fun _ m hm => ?_, trivial⟩
  obtain ⟨-, -, hev⟩ := h
  cases ev with
  | connection => cases hm
  | unsubscribe => cases hm
  | _ => cases hev

/-- What was lost at some point before the answer, without a delta until then, is cleared. -/
lemma cleared_of_lost {r : SubscribeRequest} {between : List (StoreEvent Claims)}
    (lost rest after : List (StoreEvent Claims)) (hsplit : requested r :: between = lost ++ rest)
    (hst : st.Agrees) (hquiet : Quiet cfg r.connId opening id st lost)
    (hgone : Gone (lost.foldl (step cfg) st) r.connId opening id) : Cleared cfg st r opening id between after := by
  have hevents : requested r :: (between ++ after) = lost ++ (rest ++ after) := by
    rw [← cons_append, hsplit, List.append_assoc]
  have hlost : (lost.foldl (step cfg) st).Agrees := Machine.invariant (fun _ ev h => h.step ev) hst lost
  have hend : ((requested r :: (between ++ after)).foldl (step cfg) st).Agrees :=
    Machine.invariant (fun _ ev h => h.step ev) hst _
  refine ⟨fun hsame => ?_, ?_⟩
  · have habsent : ((requested r :: (between ++ after)).foldl (step cfg) st).engine.active ⟨r.connId, id⟩ =
        none := by
      refine Gone.absent ?_ hend hsame
      rw [hevents, foldl_append]
      exact hgone.run cfg hlost _
    refine ⟨habsent, ?_⟩
    rw [← hend.agree, habsent]
    exact Bool.false_ne_true
  · rw [hevents]
    exact along_append.mpr ⟨hquiet, hgone.quiet hlost _⟩

/-- A request that is refused before it registers anything is not found by a change. -/
lemma deltas_refused {r : SubscribeRequest}
    (h : (st.handleStoreSubscribe cfg r.connId r.parsed r.faults).2 = .refused) :
    st.deltas cfg (requested r) = [] := by
  unfold StoreServer.handleStoreSubscribe at h
  unfold requested StoreServer.deltas
  dsimp only
  cases hr : st.register cfg r.connId r.parsed r.faults with
  | error st₁ => rfl
  | ok p =>
    rw [hr] at h
    dsimp only at h
    cases ht : p.1.track r.connId p.2.1 r.faults with
    | error st₂ =>
      rw [ht] at h
      cases h
    | ok st₂ =>
      rw [ht] at h
      cases h

/-- In any run, a request that is answered with an error has nothing left of its subscription from then
on, and no delta sent for it, when the error is that of the handler or the subscription has ended by then,
each before a change finds it. -/
theorem error_answer_clears (cfg : StoreConfig Claims) (before between after : List (StoreEvent Claims))
    (r : SubscribeRequest) (opening id : ℕ) (hopen : (run cfg before).server.openings r.connId = some opening)
    (hid : (run cfg before).Takes cfg r id) (herror : (run cfg before).AnswersError cfg r)
    (hspared : Spared cfg (run cfg before) r opening id between) :
    Cleared cfg (run cfg before) r opening id between after := by
  have hst := agrees_run cfg before
  have hopened := opened_run cfg before
  have hspec := handleStoreSubscribe_spec cfg hst r.connId r.parsed r.faults
  have htaken := hid.2
  change ((run cfg before).handleStoreSubscribe cfg r.connId r.parsed r.faults).1.nextSubscriptionId _ ≠ _
    at htaken
  unfold AnswersError at herror
  unfold Spared at hspared
  cases houtcome : (run cfg before).handleStoreSubscribe cfg r.connId r.parsed r.faults with
  | mk st₁ outcome =>
    have hstep : (run cfg before).step cfg (requested r) = st₁ := congrArg Prod.fst houtcome
    have hlost (hidle : Idle (run cfg before) st₁) :
        Gone (List.foldl (step cfg) (run cfg before) [requested r]) r.connId opening id := by
      rw [houtcome] at htaken
      rw [foldl_cons, hstep]
      exact hidle.gone hst hopened hopen hid.1 htaken
    rw [houtcome] at hspec herror hspared
    cases outcome with
    | refused =>
      refine cleared_of_lost [requested r] between after rfl hst ⟨fun _ m hm => ?_, trivial⟩ (hlost hspec)
      rw [deltas_refused (congrArg Prod.snd houtcome)] at hm
      cases hm
    | undone subId =>
      exact cleared_of_lost [requested r] between after rfl hst hspared (hlost hspec.1)
    | queued req =>
      obtain ⟨xs, ev, ys, rfl, hquiet, hends⟩ := hspared herror
      have hmid : run cfg (before ++ requested r :: xs) =
          xs.foldl (step cfg) ((run cfg before).step cfg (requested r)) := by
        rw [run, run, foldl_append, foldl_cons]
      rw [← hmid] at hends
      have hgone := hends.gone (agrees_run cfg _) (opened_run cfg _)
      refine cleared_of_lost (requested r :: xs ++ [ev]) ys after (by simp) hst
        (along_append.mpr ⟨hquiet, ?_⟩) ?_
      · have hafter := hends.quiet
        rw [hmid] at hafter
        exact hafter
      · rw [hmid] at hgone
        rw [foldl_append]
        exact hgone

namespace AnswerExample

open PkSetsExample RegistrationExample SwitchExample

/-- A response of two bytes where one is the limit. -/
def tooLarge : ReadAttempt where
  enc := ⟨fun _ => [], fun _ => [], fun bytes => bytes⟩
  encodeToken _ := []
  faults := {}
  size _ := 2
  maxSize := 1
  cache _ _ := none
  rows := []

def entering : List (StoreEvent Unit) :=
  [.connection (.open 4 ⟨[117], ()⟩ 0) fun _ => false,
    .connection (.setNamespace 4 false [115] (.hit ⟨1, 7⟩)) fun _ => false]

/-- The read cannot be queued. -/
def unqueued : SubscribeRequest := ⟨4, subscribeUsers, { enqueue := true }, [], tooLarge⟩

theorem error_answer_clears_unqueued : Cleared openStore (run openStore entering) unqueued 0 1 [] [] :=
  error_answer_clears openStore entering [] [] unqueued 0 1 rfl ⟨rfl, by decide⟩ trivial
    ⟨fun _ m hm => (nomatch hm), trivial⟩

/-- The subscription stays when the page of its read is too large. -/
theorem too_large_stays : ¬ ∀ (before between after : List (StoreEvent Unit)) (r : SubscribeRequest)
    (opening id : ℕ), (run openStore before).server.openings r.connId = some opening →
      (run openStore before).Takes openStore r id → (run openStore before).AnswersError openStore r →
      Cleared openStore (run openStore before) r opening id between after := by
  intro h
  have hcleared := h entering [] [] ⟨4, subscribeUsers, {}, [], tooLarge⟩ 0 1 rfl ⟨rfl, by decide⟩ ⟨_, _, rfl⟩
  refine (hcleared.removed fun c hc => ?_).2 (mem_singleton_self 1)
  cases hc
  rfl

end AnswerExample
end StoreServer
end ZyncBase
