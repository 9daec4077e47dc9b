import Mathlib.Algebra.BigOperators.Group.Finset.Piecewise
import ZyncBase.Queues.MpscQueue

/-! What every atomic step of the queue keeps: the nodes from the head to the tail, with the gaps that
producers still have to close, and the references that keep their storage. -/
namespace ZyncBase

open Function List Option

namespace PushState

variable {T : Type}

/-- The item of a node that is not in the queue yet. -/
def waiting : PushState T → List T
  | created _ item => [item]
  | _ => []

@[simp] lemma waiting_idle : (idle : PushState T).waiting = [] := rfl

@[simp] lemma waiting_created (node : ℕ) (item : T) : (created node item).waiting = [item] := rfl

@[simp] lemma waiting_exchanged (prev node : ℕ) : (exchanged prev node : PushState T).waiting = [] := rfl

end PushState

namespace MpscQueue

variable {P T : Type} (owner : T → ℕ)

/-- The second node follows the first one, or its producer is about to link it. -/
def Linked (q : MpscQueue P T) (a b : ℕ) : Prop :=
  q.nextOf a = some b ∨ q.nextOf a = none ∧ ∃ p, q.producers p = .exchanged a b

/-- The nodes that are in the queue, the head first, or about to be. -/
def Reachable (q : MpscQueue P T) (rest : List ℕ) (a : ℕ) : Prop :=
  a ∈ q.head :: rest ∨ ∃ p item, q.producers p = .created a item

/-- The nodes behind the head hold the items that are exchanged and not received, in order. -/
structure Shape (q : MpscQueue P T) (rest : List ℕ) (items : List T) : Prop where
  tail : (q.head :: rest).getLast? = some q.tail
  nodup : (q.head :: rest).Nodup
  linked : ∀ i a b, (q.head :: rest)[i]? = some a → (q.head :: rest)[i + 1]? = some b → q.Linked a b
  last : q.nextOf q.tail = none
  window : ∀ p a b, q.producers p = .exchanged a b → q.nextOf a = none ∧
    ∃ i, (q.head :: rest)[i]? = some a ∧ (q.head :: rest)[i + 1]? = some b
  windowOne : ∀ p p' a b, q.producers p = .exchanged a b → q.producers p' = .exchanged a b → p = p'
  created : ∀ p a item, q.producers p = .created a item → q.heap a = some ⟨some item, none⟩ ∧ a ∉ q.head :: rest
  createdOne : ∀ p p' a item item', q.producers p = .created a item → q.producers p' = .created a item' → p = p'
  stored : rest.map q.itemOf = items.map some
  headNode : ∃ c, q.heap q.head = some c ∧ c.data.map owner = q.headOwner
  loaded : ∀ n, q.consumer = .loaded n → q.nextOf q.head = some n
  advanced : ∀ prevOwner, q.consumer = .advanced prevOwner → ∃ item ∈ q.holding, q.headOwner = some (owner item)
  delivered : q.exchanges.map Prod.snd = q.received ++ items

/-- The references that the consumer holds for the head and for the one before it. -/
def popRefs (consumer : PopState) (headOwner : Option ℕ) (o : ℕ) : ℕ :=
  match consumer with
  | .idle | .loaded _ => if headOwner = some o then 1 else 0
  | .advanced prevOwner => if prevOwner = some o then 1 else 0
  | .retained prevOwner => (if prevOwner = some o then 1 else 0) + if headOwner = some o then 1 else 0

def waitingRefs [Fintype P] (producers : P → PushState T) (o : ℕ) : ℕ :=
  ∑ p, (producers p).waiting.countP fun item => owner item = o

/-- The references that others, the items from their push until the consumer releases them, and the
head hold. -/
def heldRefs [Fintype P] (q : MpscQueue P T) (items : List T) (o : ℕ) : ℕ :=
  q.others o + waitingRefs owner q.producers o + items.countP (fun item => owner item = o) +
    q.holding.countP (fun item => owner item = o) + popRefs q.consumer q.headOwner o

def Counted [Fintype P] (q : MpscQueue P T) (items : List T) : Prop :=
  ∀ o, q.refs o = q.heldRefs owner items o

section Heap

variable {owner} {q : MpscQueue P T} {rest : List ℕ} {items : List T}

lemma Shape.congr_heap (h : q.Shape owner rest items) {heap : ℕ → Option (MpscNode T)}
    (hheap : ∀ a, q.Reachable rest a → heap a = q.heap a) : Shape owner { q with heap } rest items := by
  have hchain {a : ℕ} (ha : a ∈ q.head :: rest) : heap a = q.heap a := hheap a (.inl ha)
  have hnext {a : ℕ} (ha : a ∈ q.head :: rest) : nextOf { q with heap } a = q.nextOf a := by
    change (heap a).bind MpscNode.next = _
    rw [hchain ha, nextOf]
  have htail : q.tail ∈ q.head :: rest := mem_of_getLast? h.tail
  refine ⟨h.tail, h.nodup, fun i a b ha hb => ?_, (hnext htail).trans h.last, fun p a b hp => ?_,
    h.windowOne, fun p a item hp => ?_, h.createdOne, ?_, ?_, fun n hn => ?_, h.advanced, h.delivered⟩
  · have hlinked := h.linked i a b ha hb
    rw [Linked, ← hnext (mem_of_getElem? ha)] at hlinked
    exact hlinked
  · obtain ⟨hnone, i, ha, hb⟩ := h.window p a b hp
    exact ⟨(hnext (mem_of_getElem? ha)).trans hnone, i, ha, hb⟩
  · obtain ⟨hcell, hnew⟩ := h.created p a item hp
    exact ⟨(hheap a (.inr ⟨p, item, hp⟩)).trans hcell, hnew⟩
  · rw [← h.stored]
    refine map_congr_left fun a ha => ?_
    change (heap a).bind MpscNode.data = _
    rw [hchain (mem_cons_of_mem _ ha), itemOf]
  · obtain ⟨c, hc, ho⟩ := h.headNode
    exact ⟨c, (hchain mem_cons_self).trans hc, ho⟩
  · exact (hnext mem_cons_self).trans (h.loaded n hn)

lemma Shape.item_of_mem (h : q.Shape owner rest items) {a : ℕ} (ha : a ∈ rest) :
    ∃ item ∈ items, q.itemOf a = some item := by
  have hmem := mem_map_of_mem (f := q.itemOf) ha
  rw [h.stored] at hmem
  obtain ⟨item, hitem, heq⟩ := mem_map.mp hmem
  exact ⟨item, hitem, heq.symm⟩

lemma Shape.counters (h : q.Shape owner rest items) (refs others : ℕ → ℕ) :
    Shape owner { q with refs, others } rest items :=
  ⟨h.tail, h.nodup, h.linked, h.last, h.window, h.windowOne, h.created, h.createdOne, h.stored,
    h.headNode, h.loaded, h.advanced, h.delivered⟩

variable [Fintype P]

lemma ne_of_countP {o : ℕ} {xs : List T} (h : xs.countP (fun item => owner item = o) = 0) {x : T}
    (hx : x ∈ xs) : owner x ≠ o := by
  have hnot := countP_eq_zero.mp h x hx
  rwa [decide_eq_true_eq] at hnot

lemma Shape.not_owned (h : q.Shape owner rest items) (hcount : q.Counted owner items) {o a : ℕ}
    (ho : q.refs o = 0) (ha : q.Reachable rest a) {c : MpscNode T} (hc : q.heap a = some c) :
    c.data.map owner ≠ some o := by
  have hzero := hcount o
  rw [ho, heldRefs] at hzero
  obtain ⟨⟨⟨⟨-, hwaiting⟩, hitems⟩, hholding⟩, hpop⟩ : (((q.others o = 0 ∧
      waitingRefs owner q.producers o = 0) ∧ items.countP (fun item => owner item = o) = 0) ∧
      q.holding.countP (fun item => owner item = o) = 0) ∧ popRefs q.consumer q.headOwner o = 0 := by omega
  obtain hchain | ⟨p, item, hp⟩ := ha
  · obtain rfl | hrest := mem_cons.mp hchain
    · obtain ⟨c', hc', howner⟩ := h.headNode
      rw [hc] at hc'
      cases hc'
      rw [howner]
      unfold popRefs at hpop
      cases hconsumer : q.consumer with
      | idle =>
        rw [hconsumer] at hpop
        exact fun heq => by simp [heq] at hpop
      | loaded n =>
        rw [hconsumer] at hpop
        exact fun heq => by simp [heq] at hpop
      | advanced prevOwner =>
        obtain ⟨item, hitem, heq⟩ := h.advanced prevOwner hconsumer
        rw [heq, Ne, Option.some.injEq]
        exact ne_of_countP hholding hitem
      | retained prevOwner =>
        rw [hconsumer] at hpop
        exact fun heq => by simp [heq] at hpop
    · obtain ⟨item, hitem, heq⟩ := h.item_of_mem hrest
      rw [itemOf, hc, bind_some] at heq
      rw [heq, map_some, Ne, Option.some.injEq]
      exact ne_of_countP hitems hitem
  · rw [(h.created p a item hp).1] at hc
    cases hc
    have hwait : (q.producers p).waiting.countP (fun item => owner item = o) = 0 :=
      Finset.sum_eq_zero_iff.mp hwaiting p (Finset.mem_univ p)
    rw [hp] at hwait
    rw [map_some, Ne, Option.some.injEq]
    exact ne_of_countP hwait (mem_singleton_self item)

lemma Shape.free (h : q.Shape owner rest items) (hcount : q.Counted owner items) {o : ℕ}
    (ho : q.refs o = 0) : Shape owner { q with heap := withoutOwner owner o q.heap } rest items := by
  refine h.congr_heap fun a ha => ?_
  rw [withoutOwner]
  cases hc : q.heap a with
  | none => rfl
  | some c =>
    rw [filter_some, if_pos]
    exact decide_eq_true (h.not_owned hcount ho ha hc)

end Heap

section References

variable {owner} [Fintype P] {q : MpscQueue P T} {rest : List ℕ} {items : List T}

lemma waitingRefs_update (owner : T → ℕ) [DecidableEq P] (producers : P → PushState T) (p : P)
    (s : PushState T) (o : ℕ) : waitingRefs owner (update producers p s) o +
      (producers p).waiting.countP (fun item => owner item = o) =
    waitingRefs owner producers o + s.waiting.countP fun item => owner item = o := by
  have hrest : ∑ p' ∈ Finset.univ.erase p,
      (update producers p s p').waiting.countP (fun item => owner item = o) =
      ∑ p' ∈ Finset.univ.erase p, (producers p').waiting.countP fun item => owner item = o := by
    refine Finset.sum_congr rfl fun p' hp' => ?_
    rw [update_of_ne (Finset.ne_of_mem_erase hp')]
  rw [waitingRefs, waitingRefs, ← Finset.add_sum_erase _ _ (Finset.mem_univ p), hrest,
    update_self, ← Finset.add_sum_erase _ _ (Finset.mem_univ p)]
  omega

/-- The queue without faults, in its shape and with its references counted. -/
structure Sound (owner : T → ℕ) (q : MpscQueue P T) (rest : List ℕ) (items : List T) : Prop where
  shape : q.Shape owner rest items
  counted : q.Counted owner items
  fault : q.fault = false

lemma Sound.drop {o : ℕ} (hshape : q.Shape owner rest items)
    (hcount : ∀ o', q.heldRefs owner items o' + (if o' = o then 1 else 0) = q.refs o')
    (hfault : q.fault = false) : Sound owner (q.dropRef owner o) rest items := by
  have hpos : q.refs o ≠ 0 := by
    have ho := hcount o
    rw [if_pos rfl] at ho
    omega
  have hshape' : Shape owner { q with refs := update q.refs o (q.refs o - 1) } rest items :=
    hshape.counters _ _
  have hcount' : Counted owner { q with refs := update q.refs o (q.refs o - 1) } items := by
    intro o'
    have ho' := hcount o'
    change update q.refs o (q.refs o - 1) o' = q.heldRefs owner items o'
    rw [update_apply]
    split_ifs at ho' ⊢ with heq
    · subst heq
      omega
    · omega
  unfold dropRef
  rw [if_neg hpos]
  by_cases hlast : q.refs o = 1
  · rw [if_pos hlast]
    have hzero : update q.refs o (q.refs o - 1) o = 0 := by
      rw [update_self, hlast]
    exact ⟨hshape'.free hcount' hzero, hcount', hfault⟩
  · rw [if_neg hlast]
    exact ⟨hshape', hcount', hfault⟩

lemma Sound.add {o : ℕ} (hshape : q.Shape owner rest items)
    (hcount : ∀ o', q.heldRefs owner items o' = q.refs o' + (if o' = o then 1 else 0))
    (hpos : q.refs o ≠ 0) (hfault : q.fault = false) : Sound owner (q.addRef o) rest items := by
  unfold addRef
  rw [if_neg hpos]
  refine ⟨hshape.counters _ _, fun o' => ?_, hfault⟩
  have ho' := hcount o'
  change update q.refs o (q.refs o + 1) o' = q.heldRefs owner items o'
  rw [update_apply]
  split_ifs at ho' ⊢ with heq
  · subst heq
    exact ho'.symm
  · exact ho'.symm

end References

section Owners

variable {owner} [Fintype P] {q : MpscQueue P T} {rest : List ℕ} {items : List T}

lemma Sound.acquire (h : q.Sound owner rest items) (o : ℕ) : (q.acquire o).Sound owner rest items := by
  unfold MpscQueue.acquire
  split_ifs with hfree
  · refine ⟨h.shape.counters _ _, fun o' => ?_, h.fault⟩
    have ho' := h.counted o'
    simp only [heldRefs, update_apply] at ho' ⊢
    split_ifs with heq
    · subst heq
      omega
    · exact ho'
  · exact h

lemma Sound.retain (h : q.Sound owner rest items) (o : ℕ) : (q.retain o).Sound owner rest items := by
  unfold MpscQueue.retain
  split_ifs with hnone
  · exact h
  · have hswap : { q.addRef o with others := update q.others o (q.others o + 1) } =
        addRef o { q with others := update q.others o (q.others o + 1) } := by
      unfold addRef
      dsimp only
      split_ifs <;> rfl
    rw [hswap]
    refine Sound.add (h.shape.counters _ _) (fun o' => ?_) ?_ h.fault
    · have ho' := h.counted o'
      simp only [heldRefs, update_apply] at ho' ⊢
      split_ifs with heq
      · subst heq
        omega
      · omega
    · have ho := h.counted o
      rw [heldRefs] at ho
      change q.refs o ≠ 0
      omega

lemma Sound.release (h : q.Sound owner rest items) (o : ℕ) : (q.release owner o).Sound owner rest items := by
  unfold MpscQueue.release
  split_ifs with hnone
  · exact h
  · have hswap : { q.dropRef owner o with others := update q.others o (q.others o - 1) } =
        dropRef owner o { q with others := update q.others o (q.others o - 1) } := by
      unfold dropRef
      dsimp only
      split_ifs <;> rfl
    rw [hswap]
    refine Sound.drop (h.shape.counters _ _) (fun o' => ?_) h.fault
    have ho' := h.counted o'
    simp only [heldRefs, update_apply] at ho' ⊢
    split_ifs with heq
    · subst heq
      omega
    · omega

end Owners

section Push

variable {owner} [DecidableEq P] {q : MpscQueue P T} {rest : List ℕ} {items : List T} {p p' : P}
  {a : ℕ}

lemma producers_of_ne {s : PushState T} {t : PushState T}
    (h : update q.producers p s p' = t) (hs : s ≠ t) : p' ≠ p ∧ q.producers p' = t := by
  by_cases heq : p' = p
  · subst heq
    rw [update_self] at h
    exact absurd h hs
  · rw [update_of_ne heq] at h
    exact ⟨heq, h⟩

variable [Fintype P]

lemma Sound.create (h : q.Sound owner rest items) (p : P) (item : T) (node : ℕ) :
    (q.create owner p item node).Sound owner rest items := by
  unfold MpscQueue.create
  cases hidle : q.producers p with
  | created _ _ => exact h
  | exchanged _ _ => exact h
  | idle =>
    dsimp only
    split_ifs with hrefused
    · exact h
    · rw [not_or, not_isSome_iff_eq_none] at hrefused
      obtain ⟨hothers, hfree⟩ := hrefused
      have hshape := h.shape
      have hnew : ∀ a, q.Reachable rest a → a ≠ node := by
        rintro a ha rfl
        obtain hchain | ⟨p', item', hp'⟩ := ha
        · obtain rfl | hrest := mem_cons.mp hchain
          · obtain ⟨c, hc, _⟩ := hshape.headNode
            rw [hfree] at hc
            cases hc
          · obtain ⟨x, _, hx⟩ := hshape.item_of_mem hrest
            rw [itemOf, hfree] at hx
            cases hx
        · have hcell := (hshape.created p' a item' hp').1
          rw [hfree] at hcell
          cases hcell
      have hgrown : Shape owner { q with heap := update q.heap node (some ⟨some item, none⟩) } rest items :=
        hshape.congr_heap fun a ha => update_of_ne (hnew a ha) _ _
      have hnode : node ∉ q.head :: rest := fun hmem => hnew node (.inl hmem) rfl
      refine ⟨⟨hgrown.tail, hgrown.nodup, fun i a b ha hb => ?_, hgrown.last, fun p' a b hp' => ?_,
        fun p₁ p₂ a b h₁ h₂ => ?_, fun p' a item' hp' => ?_, fun p₁ p₂ a x₁ x₂ h₁ h₂ => ?_,
        hgrown.stored, hgrown.headNode, hgrown.loaded, hgrown.advanced, hgrown.delivered⟩,
        fun o => ?_, h.fault⟩
      · obtain hnext | ⟨hnone, p', hp'⟩ := hgrown.linked i a b ha hb
        · exact .inl hnext
        · refine .inr ⟨hnone, p', ?_⟩
          change update q.producers p _ p' = _
          rw [update_of_ne, hp']
          rintro rfl
          rw [hidle] at hp'
          cases hp'
      · exact hgrown.window p' a b (producers_of_ne hp' nofun).2
      · exact hshape.windowOne p₁ p₂ a b (producers_of_ne h₁ nofun).2
          (producers_of_ne h₂ nofun).2
      · by_cases heq : p' = p
        · subst heq
          change update q.producers p' _ p' = _ at hp'
          rw [update_self] at hp'
          cases hp'
          exact ⟨update_self _ _ _, hnode⟩
        · change update q.producers p _ p' = _ at hp'
          rw [update_of_ne heq] at hp'
          exact hgrown.created p' a item' hp'
      · change update q.producers p _ p₁ = _ at h₁
        change update q.producers p _ p₂ = _ at h₂
        rw [update_apply] at h₁ h₂
        split_ifs at h₁ h₂ with hp₁ hp₂ hp₂
        · rw [hp₁, hp₂]
        · cases h₁
          exact absurd rfl (hnew node (.inr ⟨p₂, x₂, h₂⟩))
        · cases h₂
          exact absurd rfl (hnew node (.inr ⟨p₁, x₁, h₁⟩))
        · exact hshape.createdOne p₁ p₂ a x₁ x₂ h₁ h₂
      · have ho := h.counted o
        have hwait := waitingRefs_update owner q.producers p (.created node item) o
        rw [hidle, PushState.waiting_idle, PushState.waiting_created, countP_nil, countP_singleton] at hwait
        simp only [heldRefs, update_apply] at ho ⊢
        by_cases heq : o = owner item
        · subst heq
          rw [if_pos (by simp)] at hwait
          rw [if_pos rfl]
          omega
        · rw [if_neg (by simpa using Ne.symm heq)] at hwait
          rw [if_neg heq]
          omega

lemma Sound.exchange (h : q.Sound owner rest items) (p : P) :
    ∃ rest' items', (q.exchange p).Sound owner rest' items' := by
  unfold MpscQueue.exchange
  cases hcreated : q.producers p with
  | idle => exact ⟨rest, items, h⟩
  | exchanged _ _ => exact ⟨rest, items, h⟩
  | created node item =>
    have hshape := h.shape
    obtain ⟨hcell, hnode⟩ := hshape.created p node item hcreated
    have hnext : q.nextOf node = none := by rw [nextOf, hcell, bind_some]
    have hitem : q.itemOf node = some item := by rw [itemOf, hcell, bind_some]
    have hchain : q.head :: (rest ++ [node]) = (q.head :: rest) ++ [node] := rfl
    have htail : (q.head :: rest)[rest.length]? = some q.tail := by
      rw [← hshape.tail, getLast?_eq_getElem?, length_cons, Nat.add_sub_cancel]
    have hold {i : ℕ} {a : ℕ} (ha : (q.head :: rest)[i]? = some a) :
        ((q.head :: rest) ++ [node])[i]? = some a := by
      rw [getElem?_append_left (List.getElem?_eq_some_iff.mp ha).1, ha]
    refine ⟨rest ++ [node], items ++ [item], ⟨?_, ?_, fun i a b ha hb => ?_, hnext,
      fun p' a b hp' => ?_, fun p₁ p₂ a b h₁ h₂ => ?_, fun p' a item' hp' => ?_,
      fun p₁ p₂ a x₁ x₂ h₁ h₂ => ?_, ?_, hshape.headNode, hshape.loaded, hshape.advanced, ?_⟩,
      fun o => ?_, h.fault⟩
    · change (q.head :: (rest ++ [node])).getLast? = some node
      rw [hchain, getLast?_concat]
    · change (q.head :: (rest ++ [node])).Nodup
      rw [hchain, nodup_append']
      exact ⟨hshape.nodup, nodup_singleton _, by simpa using hnode⟩
    · change (q.head :: (rest ++ [node]))[i]? = some a at ha
      change (q.head :: (rest ++ [node]))[i + 1]? = some b at hb
      rw [hchain] at ha hb
      obtain hi | hi := lt_or_ge (i + 1) (q.head :: rest).length
      · rw [getElem?_append_left (Nat.lt_of_succ_lt hi)] at ha
        rw [getElem?_append_left hi] at hb
        refine (hshape.linked i a b ha hb).imp_right fun ⟨hnone, p', hp'⟩ => ⟨hnone, p', ?_⟩
        change update q.producers p _ p' = _
        rw [update_of_ne, hp']
        rintro rfl
        rw [hcreated] at hp'
        cases hp'
      · obtain rfl : i = rest.length := by
          have hlen := (List.getElem?_eq_some_iff.mp hb).1
          simp only [length_append, length_cons, length_nil] at hlen hi
          omega
        rw [getElem?_append_left (by simp), htail] at ha
        rw [getElem?_append_right hi] at hb
        cases ha
        obtain rfl : node = b := by simpa using hb
        exact .inr ⟨hshape.last, p, update_self _ _ _⟩
    · by_cases heq : p' = p
      · subst heq
        change update q.producers p' _ p' = _ at hp'
        rw [update_self] at hp'
        cases hp'
        refine ⟨hshape.last, rest.length, hold htail, ?_⟩
        change ((q.head :: rest) ++ [node])[rest.length + 1]? = some node
        rw [getElem?_append_right (by simp)]
        simp
      · change update q.producers p _ p' = _ at hp'
        rw [update_of_ne heq] at hp'
        obtain ⟨hnone, i, ha, hb⟩ := hshape.window p' a b hp'
        exact ⟨hnone, i, hold ha, hold hb⟩
    · change update q.producers p _ p₁ = _ at h₁
      change update q.producers p _ p₂ = _ at h₂
      rw [update_apply] at h₁ h₂
      split_ifs at h₁ h₂ with hp₁ hp₂ hp₂
      · rw [hp₁, hp₂]
      · cases h₁
        obtain ⟨_, i, _, hb⟩ := hshape.window p₂ _ _ h₂
        exact absurd (mem_of_getElem? hb) hnode
      · cases h₂
        obtain ⟨_, i, _, hb⟩ := hshape.window p₁ _ _ h₁
        exact absurd (mem_of_getElem? hb) hnode
      · exact hshape.windowOne p₁ p₂ a b h₁ h₂
    · obtain ⟨hne, hother⟩ := producers_of_ne hp' nofun
      obtain ⟨hcell', hnode'⟩ := hshape.created p' a item' hother
      refine ⟨hcell', ?_⟩
      change a ∉ (q.head :: rest) ++ [node]
      rw [mem_append, not_or, mem_singleton]
      refine ⟨hnode', ?_⟩
      rintro rfl
      exact hne (hshape.createdOne p' p a item' item hother hcreated)
    · exact hshape.createdOne p₁ p₂ a x₁ x₂ (producers_of_ne h₁ nofun).2
        (producers_of_ne h₂ nofun).2
    · change (rest ++ [node]).map q.itemOf = _
      rw [map_append, map_append, hshape.stored, map_singleton, hitem]
      rfl
    · change (q.exchanges ++ [(p, item)]).map Prod.snd = _
      rw [map_append, hshape.delivered, append_assoc]
      rfl
    · have ho := h.counted o
      have hwait := waitingRefs_update owner q.producers p (.exchanged q.tail node) o
      rw [hcreated, PushState.waiting_exchanged, PushState.waiting_created, countP_nil] at hwait
      simp only [heldRefs, countP_append] at ho ⊢
      omega

lemma Sound.link (h : q.Sound owner rest items) (p : P) : (q.link p).Sound owner rest items := by
  unfold MpscQueue.link
  cases hwindow : q.producers p with
  | idle => exact h
  | created _ _ => exact h
  | exchanged prev node =>
    have hshape := h.shape
    obtain ⟨hnone, i, hprev, hnode⟩ := hshape.window p prev node hwindow
    obtain ⟨c, hc⟩ : ∃ c, q.heap prev = some c := by
      obtain rfl | hrest := mem_cons.mp (mem_of_getElem? hprev)
      · exact hshape.headNode.imp fun c hc => hc.1
      · obtain ⟨x, _, hx⟩ := hshape.item_of_mem hrest
        exact (bind_eq_some_iff.mp hx).imp fun c hc => hc.1
    dsimp only
    rw [hc]
    dsimp only
    set heap := update q.heap prev (some { c with next := some node }) with hheap
    have hother {a : ℕ} (ha : a ≠ prev) : heap a = q.heap a := update_of_ne ha _ _
    have hself : heap prev = some { c with next := some node } := update_self _ _ _
    have hdata (a : ℕ) : (heap a).bind MpscNode.data = q.itemOf a := by
      by_cases ha : a = prev
      · rw [ha, hself, itemOf, hc, bind_some, bind_some]
      · rw [hother ha, itemOf]
    have hnext {a : ℕ} (ha : a ≠ prev) : (heap a).bind MpscNode.next = q.nextOf a := by
      rw [hother ha, nextOf]
    have hpos {j : ℕ} {a : ℕ} (ha : (q.head :: rest)[j]? = some a) : a = prev ↔ j = i := by
      constructor
      · rintro rfl
        exact (List.Nodup.getElem_inj_iff hshape.nodup).mp (by
          rw [(List.getElem?_eq_some_iff.mp ha).2, (List.getElem?_eq_some_iff.mp hprev).2])
      · rintro rfl
        rw [ha] at hprev
        exact Option.some.inj hprev
    refine ⟨⟨hshape.tail, hshape.nodup, fun j a b ha hb => ?_, ?_, fun p' a b hp' => ?_,
      fun p₁ p₂ a b h₁ h₂ => ?_, fun p' a item hp' => ?_, fun p₁ p₂ a x₁ x₂ h₁ h₂ => ?_, ?_, ?_,
      fun n hn => ?_, hshape.advanced, hshape.delivered⟩, fun o => ?_, h.fault⟩
    · by_cases heq : a = prev
      · obtain rfl := (hpos ha).mp heq
        rw [hnode] at hb
        cases hb
        left
        change (heap a).bind MpscNode.next = _
        rw [heq, hself, bind_some]
      · obtain hlinked | ⟨hopen, p', hp'⟩ := hshape.linked j a b ha hb
        · exact .inl ((hnext heq).trans hlinked)
        · refine .inr ⟨(hnext heq).trans hopen, p', ?_⟩
          change update q.producers p _ p' = _
          rw [update_of_ne, hp']
          rintro rfl
          rw [hwindow] at hp'
          cases hp'
          exact heq rfl
    · refine (hnext fun heq => ?_).trans hshape.last
      have htail : (q.head :: rest)[rest.length]? = some q.tail := by
        rw [← hshape.tail, getLast?_eq_getElem?, length_cons, Nat.add_sub_cancel]
      have hi := (hpos htail).mp heq
      have hlen := (List.getElem?_eq_some_iff.mp hnode).1
      rw [length_cons] at hlen
      omega
    · obtain ⟨hne, hold⟩ : p' ≠ p ∧ q.producers p' = .exchanged a b := by
        refine producers_of_ne hp' nofun
      obtain ⟨hopen, j, ha, hb⟩ := hshape.window p' a b hold
      refine ⟨(hnext fun heq => hne ?_).trans hopen, j, ha, hb⟩
      obtain rfl := (hpos ha).mp heq
      rw [hnode] at hb
      cases hb
      exact hshape.windowOne p' p a node hold (heq ▸ hwindow)
    · exact hshape.windowOne p₁ p₂ a b (producers_of_ne h₁ nofun).2
        (producers_of_ne h₂ nofun).2
    · obtain ⟨hcell, hnew⟩ := hshape.created p' a item (producers_of_ne hp' nofun).2
      refine ⟨(hother ?_).trans hcell, hnew⟩
      rintro rfl
      exact hnew (mem_of_getElem? hprev)
    · exact hshape.createdOne p₁ p₂ a x₁ x₂ (producers_of_ne h₁ nofun).2
        (producers_of_ne h₂ nofun).2
    · exact (map_congr_left fun a _ => hdata a).trans hshape.stored
    · obtain ⟨c', hc', howner⟩ := hshape.headNode
      by_cases heq : q.head = prev
      · rw [heq, hc] at hc'
        cases hc'
        exact ⟨{ c with next := some node }, heq ▸ hself, howner⟩
      · exact ⟨c', (hother heq).trans hc', howner⟩
    · have hloaded := hshape.loaded n hn
      refine (hnext ?_).trans hloaded
      intro heq
      rw [heq, hnone] at hloaded
      cases hloaded
    · have ho := h.counted o
      have hwait := waitingRefs_update owner q.producers p .idle o
      rw [hwindow, PushState.waiting_exchanged, PushState.waiting_idle, countP_nil] at hwait
      simp only [heldRefs] at ho ⊢
      omega

end Push

section Pop

variable {owner} {q : MpscQueue P T} {rest : List ℕ} {items : List T}

lemma Shape.popped (h : q.Shape owner rest items) (holding : List T) {consumer : PopState}
    (hloaded : ∀ n, consumer = .loaded n → q.nextOf q.head = some n)
    (hadvanced : ∀ prevOwner, consumer ≠ .advanced prevOwner) :
    Shape owner { q with consumer, holding } rest items :=
  ⟨h.tail, h.nodup, h.linked, h.last, h.window, h.windowOne, h.created, h.createdOne, h.stored,
    h.headNode, hloaded, fun prevOwner hp => absurd hp (hadvanced prevOwner), h.delivered⟩

lemma Shape.rest_eq {next : ℕ} (h : q.Shape owner rest items)
    (hnext : q.nextOf q.head = some next) : ∃ rest' item items', rest = next :: rest' ∧
      items = item :: items' ∧ q.itemOf next = some item := by
  cases rest with
  | nil =>
    have htail : q.tail = q.head := by simpa using h.tail.symm
    have hlast := h.last
    rw [htail, hnext] at hlast
    cases hlast
  | cons n rest' =>
    obtain hlinked | ⟨hnone, _⟩ := h.linked 0 q.head n rfl rfl
    · rw [hnext] at hlinked
      cases hlinked
      have hstored := h.stored
      cases items with
      | nil => cases hstored
      | cons item items' =>
        rw [map_cons, map_cons] at hstored
        exact ⟨rest', item, items', rfl, rfl, (cons_eq_cons.mp hstored).1⟩
    · rw [hnext] at hnone
      cases hnone

variable [Fintype P]

lemma Sound.load (h : q.Sound owner rest items) : q.load.Sound owner rest items := by
  unfold MpscQueue.load
  have hshape := h.shape
  obtain ⟨c, hc, _⟩ := hshape.headNode
  cases hidle : q.consumer with
  | loaded _ => exact h
  | advanced _ => exact h
  | retained _ => exact h
  | idle =>
    dsimp only
    rw [hc]
    dsimp only
    cases hnext : c.next with
    | none => exact h
    | some next =>
      refine ⟨hshape.popped q.holding (fun n hn => ?_) nofun, fun o => ?_, h.fault⟩
      · cases hn
        rw [nextOf, hc, bind_some, hnext]
      · have ho := h.counted o
        rw [heldRefs, hidle] at ho
        exact ho

lemma Sound.advance (h : q.Sound owner rest items) :
    ∃ rest' items', (q.advance owner).Sound owner rest' items' := by
  unfold MpscQueue.advance
  have hshape := h.shape
  cases hloaded : q.consumer with
  | idle => exact ⟨rest, items, h⟩
  | advanced _ => exact ⟨rest, items, h⟩
  | retained _ => exact ⟨rest, items, h⟩
  | loaded next =>
    have hnext := hshape.loaded next hloaded
    obtain ⟨rest', item, items', rfl, rfl, hitem⟩ := hshape.rest_eq hnext
    dsimp only
    rw [hitem]
    dsimp only
    refine ⟨rest', items', ⟨?_, (nodup_cons.mp hshape.nodup).2, fun i a b ha hb => ?_,
      hshape.last, fun p a b hp => ?_, hshape.windowOne, fun p a x hp => ?_, hshape.createdOne, ?_,
      ?_, nofun, fun prevOwner _ => ⟨item, by simp, rfl⟩, ?_⟩, fun o => ?_,
      h.fault⟩
    · have htail := hshape.tail
      rwa [getLast?_cons_cons] at htail
    · exact hshape.linked (i + 1) a b ha hb
    · obtain ⟨hnone, i, ha, hb⟩ := hshape.window p a b hp
      cases i with
      | zero =>
        cases ha
        rw [hnext] at hnone
        cases hnone
      | succ i => exact ⟨hnone, i, ha, hb⟩
    · obtain ⟨hcell, hnew⟩ := hshape.created p a x hp
      exact ⟨hcell, fun hmem => hnew (mem_cons_of_mem _ hmem)⟩
    · exact (cons_eq_cons.mp hshape.stored).2
    · obtain ⟨c, hc, hdata⟩ := bind_eq_some_iff.mp hitem
      exact ⟨c, hc, by rw [hdata, map_some]⟩
    · change _ = (q.received ++ [item]) ++ items'
      rw [hshape.delivered, append_assoc]
      rfl
    · have ho := h.counted o
      simp only [heldRefs, popRefs, hloaded, countP_cons, countP_append, countP_nil] at ho ⊢
      omega

lemma Sound.retainHead (h : q.Sound owner rest items) : q.retainHead.Sound owner rest items := by
  unfold MpscQueue.retainHead
  have hshape := h.shape
  cases hadvanced : q.consumer with
  | idle => exact h
  | loaded _ => exact h
  | retained _ => exact h
  | advanced prevOwner =>
    cases hhead : q.headOwner with
    | none => exact h
    | some o =>
      dsimp only
      have hswap : { q.addRef o with consumer := .retained prevOwner } =
          addRef o { q with consumer := .retained prevOwner } := by
        unfold addRef
        dsimp only
        split_ifs <;> rfl
      rw [hswap]
      refine Sound.add (hshape.popped q.holding nofun nofun) (fun o' => ?_) ?_ h.fault
      · have ho' := h.counted o'
        have hhead' : (if q.headOwner = some o' then 1 else 0) = if o' = o then 1 else 0 := by
          rw [hhead]
          by_cases heq : o' = o
          · simp [heq]
          · simp [heq, Ne.symm heq]
        simp only [heldRefs, popRefs, hadvanced, hhead'] at ho' ⊢
        omega
      · obtain ⟨item, hitem, hitemOwner⟩ := hshape.advanced prevOwner hadvanced
        rw [hhead] at hitemOwner
        cases hitemOwner
        have hpos : 0 < q.holding.countP fun x => owner x = owner item :=
          countP_pos_iff.mpr ⟨item, hitem, by simp⟩
        have ho := h.counted (owner item)
        rw [heldRefs] at ho
        change q.refs (owner item) ≠ 0
        omega

lemma Sound.releasePrev (h : q.Sound owner rest items) : (q.releasePrev owner).Sound owner rest items := by
  unfold MpscQueue.releasePrev
  have hidle : Shape owner { q with consumer := .idle } rest items := h.shape.popped q.holding nofun nofun
  cases hretained : q.consumer with
  | idle => exact h
  | loaded _ => exact h
  | advanced _ => exact h
  | retained prevOwner =>
    cases prevOwner with
    | none =>
      refine ⟨hidle, fun o' => ?_, h.fault⟩
      have ho' := h.counted o'
      simpa [heldRefs, popRefs, hretained] using ho'
    | some o =>
      dsimp only
      have hswap : { q.dropRef owner o with consumer := .idle } =
          dropRef owner o { q with consumer := .idle } := by
        unfold dropRef
        dsimp only
        split_ifs <;> rfl
      rw [hswap]
      refine Sound.drop hidle (fun o' => ?_) h.fault
      have ho' := h.counted o'
      have hcomm : (if some o = some o' then 1 else 0) = if o' = o then 1 else 0 := by
        simp only [Option.some.injEq, eq_comm]
      simp only [heldRefs, popRefs, hretained, hcomm] at ho' ⊢
      omega

lemma Sound.finish (h : q.Sound owner rest items) (i : ℕ) : (q.finish owner i).Sound owner rest items := by
  unfold MpscQueue.finish
  cases hidle : q.consumer with
  | loaded _ => exact h
  | advanced _ => exact h
  | retained _ => exact h
  | idle =>
    cases hitem : q.holding[i]? with
    | none => exact h
    | some item =>
      dsimp only
      have hswap : { q.dropRef owner (owner item) with holding := q.holding.eraseIdx i } =
          dropRef owner (owner item) { q with holding := q.holding.eraseIdx i } := by
        unfold dropRef
        dsimp only
        split_ifs <;> rfl
      rw [hswap]
      refine Sound.drop (h.shape.popped _ h.shape.loaded ?_) (fun o' => ?_) h.fault
      · intro prevOwner
        rw [hidle]
        exact nofun
      · have ho' := h.counted o'
        obtain ⟨hi, hget⟩ := List.getElem?_eq_some_iff.mp hitem
        have hcount : (q.holding.eraseIdx i).countP (fun x => owner x = o') +
            (if o' = owner item then 1 else 0) = q.holding.countP fun x => owner x = o' := by
          have hperm := getElem_cons_eraseIdx_perm hi
          rw [← hperm.countP_eq, countP_cons, hget]
          by_cases heq : owner item = o'
          · simp [heq]
          · simp [heq, Ne.symm heq]
        simp only [heldRefs] at ho' ⊢
        omega

end Pop

section Run

variable {owner} [Fintype P] {q : MpscQueue P T} {rest : List ℕ} {items : List T}

lemma sound_init (stub : ℕ) : (init stub : MpscQueue P T).Sound owner [] [] := by
  have hstub : (init stub : MpscQueue P T).heap stub = some ⟨none, none⟩ := if_pos rfl
  refine ⟨⟨rfl, nodup_singleton _, fun i a b _ hb => ?_, ?_, fun p a b hp => (nomatch hp),
    fun p p' a b hp => (nomatch hp), fun p a item hp => (nomatch hp),
    fun p p' a item item' hp => (nomatch hp), rfl, ⟨_, hstub, rfl⟩, nofun,
    nofun, rfl⟩, fun o => ?_, rfl⟩
  · simp at hb
  · change ((init stub : MpscQueue P T).heap stub).bind _ = _
    rw [hstub, bind_some]
  · simp [init, heldRefs, waitingRefs, popRefs]

variable [DecidableEq P]

lemma Sound.step (h : q.Sound owner rest items) (event : MpscEvent P T) :
    ∃ rest' items', (q.step owner event).Sound owner rest' items' := by
  cases event with
  | acquire o => exact ⟨rest, items, h.acquire o⟩
  | retain o => exact ⟨rest, items, h.retain o⟩
  | release o => exact ⟨rest, items, h.release o⟩
  | create p item node => exact ⟨rest, items, h.create p item node⟩
  | exchange p => exact h.exchange p
  | link p => exact ⟨rest, items, h.link p⟩
  | load => exact ⟨rest, items, h.load⟩
  | advance => exact h.advance
  | retainHead => exact ⟨rest, items, h.retainHead⟩
  | releasePrev => exact ⟨rest, items, h.releasePrev⟩
  | finish i => exact ⟨rest, items, h.finish i⟩

end Run
end MpscQueue
end ZyncBase
