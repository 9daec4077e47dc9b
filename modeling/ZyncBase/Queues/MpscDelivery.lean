import Mathlib.Tactic.FinCases
import ZyncBase.Lib.Machine
import ZyncBase.Queues.MpscShape

/-! What the consumer of the queue receives, and when it finds nothing. -/
namespace ZyncBase

open Function List

namespace MpscQueue

variable {P T : Type} (owner : T → ℕ)

section Steps

variable {owner} {q : MpscQueue P T} {rest : List ℕ} {items : List T}

lemma Shape.empty_or_window (h : q.Shape owner rest items) (hnull : q.nextOf q.head = none) :
    items = [] ∨ ∃ p node, q.producers p = .exchanged q.head node := by
  cases rest with
  | nil =>
    have hstored := h.stored
    rw [map_nil, eq_comm, map_eq_nil_iff] at hstored
    exact .inl hstored
  | cons n rest =>
    obtain hnext | ⟨_, p, hp⟩ := h.linked 0 q.head n rfl rfl
    · rw [hnull] at hnext
      cases hnext
    · exact .inr ⟨p, n, hp⟩

lemma received_dropRef (o : ℕ) : (q.dropRef owner o).received = q.received := by
  unfold dropRef
  split_ifs <;> rfl

lemma received_addRef (o : ℕ) : (q.addRef o).received = q.received := by
  unfold addRef
  split_ifs <;> rfl

lemma received_retainHead : q.retainHead.received = q.received := by
  unfold retainHead
  split
  · exact received_addRef _
  · rfl

lemma received_releasePrev : (q.releasePrev owner).received = q.received := by
  unfold releasePrev
  split
  · rfl
  · exact received_dropRef _
  · rfl

end Steps

variable [DecidableEq P]

def after (stub : ℕ) (events : List (MpscEvent P T)) : MpscQueue P T :=
  events.foldl (step owner) (init stub)

def pop (q : MpscQueue P T) : MpscQueue P T :=
  [.load, .advance, .retainHead, .releasePrev].foldl (step owner) q

def ofProducer (p : P) (log : List (P × T)) : List T :=
  (log.filter fun e => e.1 = p).map Prod.snd

/-- What a producer exchanged is what it pushed, but for an item that it is about to exchange. -/
def InPushOrder (q : MpscQueue P T) : Prop :=
  ∀ p, ofProducer p q.pushes = ofProducer p q.exchanges ++ (q.producers p).waiting

section Order

variable {owner} {q : MpscQueue P T} {p p' : P} {item : T}

lemma ofProducer_concat_self (log : List (P × T)) :
    ofProducer p (log ++ [(p, item)]) = ofProducer p log ++ [item] := by
  simp [ofProducer]

lemma ofProducer_concat_of_ne (log : List (P × T)) (h : p' ≠ p) :
    ofProducer p' (log ++ [(p, item)]) = ofProducer p' log := by
  simp [ofProducer, Ne.symm h]

lemma InPushOrder.create (h : q.InPushOrder) (p : P) (item : T) (node : ℕ) :
    (q.create owner p item node).InPushOrder := by
  unfold MpscQueue.create
  cases hidle : q.producers p with
  | created _ _ => exact h
  | exchanged _ _ => exact h
  | idle =>
    dsimp only
    split_ifs
    · exact h
    · intro p'
      have hp' := h p'
      change ofProducer p' (q.pushes ++ [(p, item)]) =
        _ ++ (update q.producers p (.created node item) p').waiting
      by_cases heq : p' = p
      · subst heq
        rw [ofProducer_concat_self, hp', hidle, PushState.waiting_idle, append_nil,
          update_self, PushState.waiting_created]
      · rw [ofProducer_concat_of_ne _ heq, hp', update_of_ne heq]

lemma InPushOrder.exchange (h : q.InPushOrder) (p : P) : (q.exchange p).InPushOrder := by
  unfold MpscQueue.exchange
  cases hcreated : q.producers p with
  | idle => exact h
  | exchanged _ _ => exact h
  | created node item =>
    intro p'
    have hp' := h p'
    change ofProducer p' q.pushes = ofProducer p' (q.exchanges ++ [(p, item)]) ++
      (update q.producers p (.exchanged q.tail node) p').waiting
    by_cases heq : p' = p
    · subst heq
      rw [ofProducer_concat_self, hp', hcreated, PushState.waiting_created, update_self,
        PushState.waiting_exchanged, append_nil]
    · rw [ofProducer_concat_of_ne _ heq, hp', update_of_ne heq]

lemma InPushOrder.link (h : q.InPushOrder) (p : P) : (q.link p).InPushOrder := by
  unfold MpscQueue.link
  cases hwindow : q.producers p with
  | idle => exact h
  | created _ _ => exact h
  | exchanged prev node =>
    dsimp only
    split
    · exact h
    · intro p'
      have hp' := h p'
      change _ = _ ++ (update q.producers p .idle p').waiting
      by_cases heq : p' = p
      · subst heq
        rw [hp', hwindow, update_self, PushState.waiting_exchanged, PushState.waiting_idle]
      · rw [hp', update_of_ne heq]

lemma InPushOrder.step (h : q.InPushOrder) (event : MpscEvent P T) : (q.step owner event).InPushOrder := by
  cases event with
  | create p item node => exact h.create p item node
  | exchange p => exact h.exchange p
  | link p => exact h.link p
  | acquire o =>
    change (q.acquire o).InPushOrder
    unfold acquire
    split_ifs <;> exact h
  | retain o =>
    change (q.retain o).InPushOrder
    unfold retain addRef
    split_ifs <;> exact h
  | release o =>
    change (q.release owner o).InPushOrder
    unfold release dropRef
    split_ifs <;> exact h
  | load =>
    change q.load.InPushOrder
    unfold load
    split
    · split
      · exact h
      · split <;> exact h
    · exact h
  | advance =>
    change (q.advance owner).InPushOrder
    unfold advance
    split
    · split <;> exact h
    · exact h
  | retainHead =>
    change q.retainHead.InPushOrder
    unfold retainHead addRef
    split
    · split_ifs <;> exact h
    · exact h
  | releasePrev =>
    change (q.releasePrev owner).InPushOrder
    unfold releasePrev dropRef
    split
    · exact h
    · split_ifs <;> exact h
    · exact h
  | finish i =>
    change (q.finish owner i).InPushOrder
    unfold finish dropRef
    split
    · split_ifs <;> exact h
    · exact h

end Order

section Delivery

variable {owner} [Fintype P] {q : MpscQueue P T} {rest : List ℕ} {items : List T}

lemma Sound.pop (h : q.Sound owner rest items) (hidle : q.consumer = .idle) {item : T}
    {items' : List T} (hitems : items = item :: items')
    (hwindow : ∀ p node, q.producers p ≠ .exchanged q.head node) :
    (q.pop owner).received = q.received ++ [item] := by
  have hshape := h.shape
  cases hnext : q.nextOf q.head with
  | none =>
    obtain hnone | ⟨p, node, hp⟩ := hshape.empty_or_window hnext
    · rw [hitems] at hnone
      cases hnone
    · exact absurd hp (hwindow p node)
  | some n =>
    obtain ⟨c, hc, hcnext⟩ := Option.bind_eq_some_iff.mp hnext
    have hload : q.load = { q with consumer := .loaded n } := by
      simp only [MpscQueue.load, hidle, hc, hcnext]
    obtain ⟨rest', x, xs, -, hxs, hx⟩ := hshape.rest_eq hnext
    rw [hitems] at hxs
    obtain ⟨rfl, -⟩ := cons_eq_cons.mp hxs
    have hx' : itemOf { q with consumer := .loaded n } n = some item := hx
    have hadvance : (q.load.advance owner).received = q.received ++ [item] := by
      rw [hload]
      simp only [MpscQueue.advance, hx']
    change ((q.load.advance owner).retainHead.releasePrev owner).received = _
    rw [received_releasePrev, received_retainHead, hadvance]

end Delivery

section Runs

lemma after_inPushOrder (stub : ℕ) (events : List (MpscEvent P T)) : (after owner stub events).InPushOrder :=
  Machine.invariant (I := fun q : MpscQueue P T => q.InPushOrder) (fun _ event h => h.step event)
    (fun _ => rfl) events

variable [Fintype P]

lemma after_sound (stub : ℕ) (events : List (MpscEvent P T)) :
    ∃ rest items, (after owner stub events).Sound owner rest items :=
  Machine.invariant (I := fun q : MpscQueue P T => ∃ rest items, q.Sound owner rest items)
    (fun _ event ⟨_, _, h⟩ => h.step event) ⟨[], [], sound_init stub⟩ events

/-- In every interleaving no step accesses storage that is released, the nodes of head and tail
included; what is received is what was exchanged, each item once and in this order, so that the items
of a producer come in the order of its pushes; a pop finds nothing only when everything is received
or the producer behind the head has not linked its node, and receives the next item otherwise. -/
theorem receives_every_push (stub : ℕ) (events : List (MpscEvent P T)) :
    (after owner stub events).fault = false ∧
    ((after owner stub events).heap (after owner stub events).head).isSome ∧
    ((after owner stub events).heap (after owner stub events).tail).isSome ∧
    (after owner stub events).received <+: (after owner stub events).exchanges.map Prod.snd ∧
    (∀ p, ofProducer p (after owner stub events).pushes = ofProducer p (after owner stub events).exchanges ++
        ((after owner stub events).producers p).waiting) ∧
    ((after owner stub events).nextOf (after owner stub events).head = none →
      (after owner stub events).received = (after owner stub events).exchanges.map Prod.snd ∨
      ∃ p node, (after owner stub events).producers p =
        .exchanged (after owner stub events).head node) ∧
    ((after owner stub events).consumer = .idle →
      (∀ p node, (after owner stub events).producers p ≠
        .exchanged (after owner stub events).head node) →
      ∀ item later, (after owner stub events).exchanges.map Prod.snd =
        (after owner stub events).received ++ item :: later →
      ((after owner stub events).pop owner).received = (after owner stub events).received ++ [item]) := by
  obtain ⟨rest, items, hsound⟩ := after_sound owner stub events
  have hshape := hsound.shape
  refine ⟨hsound.fault, ?_, ?_, ?_, after_inPushOrder owner stub events, fun hnull => ?_,
    fun hidle hwindow item later hnext => ?_⟩
  · obtain ⟨c, hc, _⟩ := hshape.headNode
    rw [hc, Option.isSome_some]
  · obtain htail | hrest := mem_cons.mp (mem_of_getLast? hshape.tail)
    · obtain ⟨c, hc, _⟩ := hshape.headNode
      rw [htail, hc, Option.isSome_some]
    · obtain ⟨x, _, hx⟩ := hshape.item_of_mem hrest
      obtain ⟨c, hc, _⟩ := Option.bind_eq_some_iff.mp hx
      rw [hc, Option.isSome_some]
  · rw [hshape.delivered]
    exact prefix_append _ _
  · refine (hshape.empty_or_window hnull).imp_left fun hitems => ?_
    rw [hshape.delivered, hitems, append_nil]
  · rw [hshape.delivered, append_cancel_left_eq] at hnext
    exact hsound.pop hidle hnext hwindow

end Runs
end MpscQueue

namespace MpscExample

open MpscQueue

/-- Two producers push an item each in storage of their own. The second one exchanges last and links
first: it waits behind the node that the first one has not linked. Items are their owners. -/
def crossing : List (MpscEvent (Fin 2) ℕ) :=
  [.acquire 7, .acquire 8, .create 0 7 1, .create 1 8 2, .exchange 0, .exchange 1, .link 1, .load,
    .link 0, .load, .advance, .retainHead, .releasePrev, .finish 0]

theorem crossing_receives :
    (after id 0 crossing).received = [7] ∧ (after id 0 crossing).exchanges = [(0, 7), (1, 8)] ∧
      ((after id 0 crossing).pop id).received = [7, 8] := by
  have hreceived : (after id 0 crossing).received = [7] := by decide
  have hexchanges : (after id 0 crossing).exchanges = [(0, 7), (1, 8)] := by decide
  refine ⟨hreceived, hexchanges, ?_⟩
  have hpop := (receives_every_push id 0 crossing).2.2.2.2.2.2 (by decide)
    (fun p node => by fin_cases p <;> exact fun h => nomatch h) 8 []
    (by rw [hexchanges, hreceived]; rfl)
  rw [hpop, hreceived]
  rfl

end MpscExample
end ZyncBase
