import Mathlib.Data.Fintype.BigOperators
import Mathlib.Data.List.Forall2

/-! The queue of many producers and one consumer, in the atomic steps of its threads. Its nodes lie in
the storage of the owners of the items: storage is released with the last reference to its owner, and
owners and addresses are used again. -/
namespace ZyncBase

open Function

/-- A node of the queue. Only the stub has no data. -/
structure MpscNode (T : Type) where
  data : Option T
  next : Option ℕ

/-- Where a producer is in `push`: it has made the node, or it has exchanged the tail and is to link
the predecessor. -/
inductive PushState (T : Type) where
  | idle
  | created (node : ℕ) (item : T)
  | exchanged (prev node : ℕ)

/-- Where the consumer is in `pop`: it has loaded the next node, advanced the head to it, retained the
owner of the new head; the owner of the previous one is to be released. -/
inductive PopState where
  | idle
  | loaded (next : ℕ)
  | advanced (prevOwner : Option ℕ)
  | retained (prevOwner : Option ℕ)
  deriving DecidableEq

/-- The queue with its memory. References other than those of items and of the queue, the items that
the consumer has popped and not released, and what was pushed, exchanged and received are kept for
reference. A fault is an access to storage that is released. -/
structure MpscQueue (P T : Type) where
  heap : ℕ → Option (MpscNode T)
  refs : ℕ → ℕ := fun _ => 0
  head : ℕ
  tail : ℕ
  headOwner : Option ℕ := none
  producers : P → PushState T := fun _ => .idle
  consumer : PopState := .idle
  others : ℕ → ℕ := fun _ => 0
  holding : List T := []
  pushes : List (P × T) := []
  exchanges : List (P × T) := []
  received : List T := []
  fault : Bool := false

/-- The atomic steps. An owner is acquired from the pool, retained and released by whoever holds a
reference; a node is made at any free address, with a reference that the pusher holds; the consumer
is done with one of the items that it holds. -/
inductive MpscEvent (P T : Type) where
  | acquire (owner : ℕ)
  | retain (owner : ℕ)
  | release (owner : ℕ)
  | create (p : P) (item : T) (node : ℕ)
  | exchange (p : P)
  | link (p : P)
  | load
  | advance
  | retainHead
  | releasePrev
  | finish (i : ℕ)

namespace MpscQueue

variable {P T : Type} (owner : T → ℕ)

def init (stub : ℕ) : MpscQueue P T where
  heap := fun a => if a = stub then some ⟨none, none⟩ else none
  head := stub
  tail := stub

def nextOf (q : MpscQueue P T) (a : ℕ) : Option ℕ := (q.heap a).bind MpscNode.next

def itemOf (q : MpscQueue P T) (a : ℕ) : Option T := (q.heap a).bind MpscNode.data

/-- The nodes that are left when the storage of an owner is released. -/
def withoutOwner (o : ℕ) (heap : ℕ → Option (MpscNode T)) (a : ℕ) : Option (MpscNode T) :=
  (heap a).filter fun c => c.data.map owner ≠ some o

/-- The last reference releases the storage. -/
def dropRef (o : ℕ) (q : MpscQueue P T) : MpscQueue P T :=
  if q.refs o = 0 then { q with fault := true }
  else
    { q with
      refs := update q.refs o (q.refs o - 1)
      heap := if q.refs o = 1 then withoutOwner owner o q.heap else q.heap }

def addRef (o : ℕ) (q : MpscQueue P T) : MpscQueue P T :=
  if q.refs o = 0 then { q with fault := true }
  else { q with refs := update q.refs o (q.refs o + 1) }

section Owners

/-- An arena that nobody refers to is handed out with one reference. -/
def acquire (o : ℕ) (q : MpscQueue P T) : MpscQueue P T :=
  if q.refs o = 0 then
    { q with refs := update q.refs o 1, others := update q.others o 1 }
  else q

def retain (o : ℕ) (q : MpscQueue P T) : MpscQueue P T :=
  if q.others o = 0 then q
  else { q.addRef o with others := update q.others o (q.others o + 1) }

def release (o : ℕ) (q : MpscQueue P T) : MpscQueue P T :=
  if q.others o = 0 then q
  else { q.dropRef owner o with others := update q.others o (q.others o - 1) }

end Owners

section Push

variable [DecidableEq P]

/-- The item takes over a reference of the pusher. -/
def create (p : P) (item : T) (node : ℕ) (q : MpscQueue P T) : MpscQueue P T :=
  match q.producers p with
  | .idle =>
    if q.others (owner item) = 0 ∨ (q.heap node).isSome then q
    else
      { q with
        heap := update q.heap node (some ⟨some item, none⟩)
        producers := update q.producers p (.created node item)
        others := update q.others (owner item) (q.others (owner item) - 1)
        pushes := q.pushes ++ [(p, item)] }
  | _ => q

def exchange (p : P) (q : MpscQueue P T) : MpscQueue P T :=
  match q.producers p with
  | .created node item =>
    { q with
      tail := node
      producers := update q.producers p (.exchanged q.tail node)
      exchanges := q.exchanges ++ [(p, item)] }
  | _ => q

def link (p : P) (q : MpscQueue P T) : MpscQueue P T :=
  match q.producers p with
  | .exchanged prev node =>
    match q.heap prev with
    | none => { q with fault := true }
    | some c =>
      { q with
        heap := update q.heap prev (some { c with next := some node })
        producers := update q.producers p .idle }
  | _ => q

end Push

section Pop

/-- Without a next node, `pop` returns null. -/
def load (q : MpscQueue P T) : MpscQueue P T :=
  match q.consumer with
  | .idle =>
    match q.heap q.head with
    | none => { q with fault := true }
    | some c =>
      match c.next with
      | none => q
      | some next => { q with consumer := .loaded next }
  | _ => q

def advance (q : MpscQueue P T) : MpscQueue P T :=
  match q.consumer with
  | .loaded next =>
    match q.itemOf next with
    | none => { q with fault := true }
    | some item =>
      { q with
        head := next
        headOwner := some (owner item)
        consumer := .advanced q.headOwner
        holding := q.holding ++ [item]
        received := q.received ++ [item] }
  | _ => q

def retainHead (q : MpscQueue P T) : MpscQueue P T :=
  match q.consumer, q.headOwner with
  | .advanced prevOwner, some o => { q.addRef o with consumer := .retained prevOwner }
  | _, _ => q

def releasePrev (q : MpscQueue P T) : MpscQueue P T :=
  match q.consumer with
  | .retained none => { q with consumer := .idle }
  | .retained (some o) => { q.dropRef owner o with consumer := .idle }
  | _ => q

/-- The consumer releases an item between two pops. -/
def finish (i : ℕ) (q : MpscQueue P T) : MpscQueue P T :=
  match q.consumer, q.holding[i]? with
  | .idle, some item => { q.dropRef owner (owner item) with holding := q.holding.eraseIdx i }
  | _, _ => q

end Pop

variable [DecidableEq P]

def step (q : MpscQueue P T) : MpscEvent P T → MpscQueue P T
  | .acquire o => q.acquire o
  | .retain o => q.retain o
  | .release o => q.release owner o
  | .create p item node => q.create owner p item node
  | .exchange p => q.exchange p
  | .link p => q.link p
  | .load => q.load
  | .advance => q.advance owner
  | .retainHead => q.retainHead
  | .releasePrev => q.releasePrev owner
  | .finish i => q.finish owner i

end MpscQueue
end ZyncBase
