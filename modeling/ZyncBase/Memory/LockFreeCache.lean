import ZyncBase.Lib.AssocMap
import ZyncBase.Lib.EpochReclamation

/-! The lock-free cache of the server: readers, one writer at a time, and the threads that reclaim what the
writer has replaced, each going on by one atomic operation. -/
namespace ZyncBase

open AssocMap

/-- What is allocated for the cache and freed again. -/
inductive CacheResource where
  | map (id : ℕ)
  | entry (id : ℕ)
  deriving DecidableEq

abbrev DeferNode := EpochReclamation.Node CacheResource

inductive CacheMutation (K V : Type) where
  | update (key : K) (data : V)
  | evict (key : K)

/-- What the writer is called for. A batch with one mutation is that mutation. -/
inductive CacheOperation (K V : Type) where
  | update (key : K) (data : V)
  | evict (key : K)
  | applyBatch (mutations : List (CacheMutation K V))
  | clear

/-- What is to be swapped in: the new map, the entries made for it, those of them that the batch has
replaced itself, and what is no longer in use after the swap. The nodes for that may be reserved. -/
structure CachePlan (K V : Type) where
  entries : List (K × ℕ)
  created : List V
  superseded : List ℕ := []
  dropped : List CacheResource
  reserved : Bool := false

/-- The next atomic operation of a lookup. The handle of an entry keeps the slot. -/
inductive CacheReader (K : Type) where
  | idle
  | checking (key : K)
  | entering (key : K)
  | claiming (key : K) (epoch : ℕ)
  | loading (key : K) (slot : Fin 128)
  | looking (key : K) (slot : Fin 128) (map : ℕ)
  | counting (key : K) (slot : Fin 128) (entry : ℕ)
  | holding (slot : Fin 128) (entry : ℕ)
  | missing (slot : Fin 128)
  | notFound

/-- The next atomic operation of the writer. -/
inductive CacheWriter (K V : Type) where
  | idle
  | entering (op : CacheOperation K V)
  | claiming (op : CacheOperation K V) (epoch : ℕ)
  | loading (op : CacheOperation K V) (slot : Fin 128)
  | preparing (op : CacheOperation K V) (slot : Fin 128) (old : ℕ)
  | swapping (op : CacheOperation K V) (slot : Fin 128) (old : ℕ) (plan : CachePlan K V)
  | deferring (slot : Fin 128) (dropped : List CacheResource) (reserved restore : Bool)
  | pushing (slot : Fin 128) (node : DeferNode) (dropped : List CacheResource) (reserved restore : Bool)
  | bumping (slot : Fin 128) (restore : Bool)
  | restoring (slot : Fin 128)
  | exiting (slot : Fin 128) (again : Option (CacheOperation K V))

/-- The next atomic operation of a thread that reclaims. -/
inductive CacheReclaimer where
  | idle
  | scanning (min next : ℕ)
  | swapping (min : ℕ)
  | freeing (min : ℕ) (nodes : List DeferNode)

/-- A slot without a reader has no epoch. Maps and entries are known by their number, and are not changed
once they are published. The epoch is not taken to wrap. -/
structure LockFreeCache (K V : Type) where
  epoch : ℕ := 0
  slots : Fin 128 → Option ℕ := fun _ => none
  maps : List (List (K × ℕ)) := [[]]
  values : List V := []
  current : ℕ := 0
  deferStack : List DeferNode := []
  leaked : List CacheResource := []
  freed : List CacheResource := []
  readable : Bool := true
  readers : ℕ → CacheReader K := fun _ => .idle
  writer : CacheWriter K V := .idle
  reclaimers : ℕ → CacheReclaimer := fun _ => .idle
  completed : List (CacheOperation K V) := []

inductive CacheEvent (K V : Type) where
  | get (reader : ℕ) (key : K)
  | reader (reader : ℕ) (slot : Fin 128)
  | release (reader : ℕ)
  | write (op : CacheOperation K V)
  | writer (slot : Fin 128) (acquired : Bool)
  | outOfMemory
  | reclaim (thread : ℕ)
  | reclaimer (thread : ℕ)
  | setReadable (readable : Bool)

section Plans

variable {K V : Type} [DecidableEq K]

def CacheOperation.start : CacheOperation K V → Option (CacheOperation K V)
  | .applyBatch [] => none
  | .applyBatch [.update key data] => some (.update key data)
  | .applyBatch [.evict key] => some (.evict key)
  | op => some op

/-- One mutation of a batch, on the new map and the entries that are made for it. -/
def CacheMutation.apply (base : ℕ) (acc : List (K × ℕ) × List (K × V)) :
    CacheMutation K V → List (K × ℕ) × List (K × V)
  | .update key data => (put eqKey key (base + acc.2.length) acc.1, acc.2 ++ [(key, data)])
  | .evict key => (remove eqKey key acc.1, acc.2)

def CacheMutation.changes (old : List (K × ℕ)) : CacheMutation K V → Bool
  | .update _ _ => true
  | .evict key => (find eqKey key old).isSome

/-- There is nothing to swap in where nothing would be evicted. -/
def CacheOperation.plan (old : List (K × ℕ)) (base : ℕ) : CacheOperation K V → Option (CachePlan K V)
  | .update key data =>
    some { entries := put eqKey key base old, created := [data],
           dropped := (find eqKey key old).toList.map .entry }
  | .evict key =>
    (find eqKey key old).map fun entry =>
      { entries := remove eqKey key old, created := [], dropped := [.entry entry] }
  | .applyBatch mutations =>
    if mutations.any fun m => m.changes old then
      let new := mutations.foldl (CacheMutation.apply base) (old, [])
      some
        { entries := new.1
          created := new.2.map Prod.snd
          superseded := (new.2.zipIdx base).filterMap fun e =>
            if find eqKey e.1.1 new.1 = some e.2 then none else some e.2
          dropped := old.filterMap fun e =>
            if find eqKey e.1 new.1 = some e.2 then none else some (.entry e.2)
          reserved := true }
    else none
  | .clear =>
    if old.isEmpty then none
    else some { entries := [], created := [], dropped := old.map fun e => .entry e.2, reserved := true }

def CacheOperation.isClear : CacheOperation K V → Bool
  | .clear => true
  | _ => false

end Plans

namespace LockFreeCache

variable {K V : Type} [DecidableEq K]

def entries (c : LockFreeCache K V) (map : ℕ) : List (K × ℕ) := c.maps[map]?.getD []

/-- What a lookup finds if all of it takes place now. -/
def contents (c : LockFreeCache K V) (key : K) : Option V :=
  (find eqKey key (c.entries c.current)).bind fun entry => c.values[entry]?

def setReader (r : ℕ) (reader : CacheReader K) (c : LockFreeCache K V) : LockFreeCache K V :=
  { c with readers := Function.update c.readers r reader }

def setReclaimer (t : ℕ) (reclaimer : CacheReclaimer) (c : LockFreeCache K V) : LockFreeCache K V :=
  { c with reclaimers := Function.update c.reclaimers t reclaimer }

def setSlot (slot : Fin 128) (epoch : Option ℕ) (c : LockFreeCache K V) : LockFreeCache K V :=
  { c with slots := Function.update c.slots slot epoch }

/-- A thread that finds the slot taken tries again. -/
def stepReader (r : ℕ) (free : Fin 128) (c : LockFreeCache K V) : LockFreeCache K V :=
  match c.readers r with
  | .checking key => c.setReader r (if c.readable then .entering key else .notFound)
  | .entering key => c.setReader r (.claiming key c.epoch)
  | .claiming key epoch =>
    if c.slots free = none then (c.setSlot free (some epoch)).setReader r (.loading key free) else c
  | .loading key slot => c.setReader r (.looking key slot c.current)
  | .looking key slot map =>
    match find eqKey key (c.entries map) with
    | some entry => c.setReader r (.counting key slot entry)
    | none => c.setReader r (.missing slot)
  | .counting _ slot entry => c.setReader r (if c.readable then .holding slot entry else .missing slot)
  | .missing slot => (c.setSlot slot none).setReader r .notFound
  | .idle | .holding _ _ | .notFound => c

def releaseHandle (r : ℕ) (c : LockFreeCache K V) : LockFreeCache K V :=
  match c.readers r with
  | .holding slot _ => (c.setSlot slot none).setReader r .idle
  | _ => c

/-- The new map is published. What a batch has superseded itself is not in it. -/
def publish (op : CacheOperation K V) (slot : Fin 128) (old : ℕ) (plan : CachePlan K V)
    (c : LockFreeCache K V) : LockFreeCache K V :=
  { c with
    maps := c.maps ++ [plan.entries]
    values := c.values ++ plan.created
    current := c.maps.length
    completed := c.completed ++ [op]
    freed := c.freed ++ plan.superseded.map .entry
    writer := .deferring slot (plan.dropped ++ [.map old]) plan.reserved op.isClear }

def swap (op : CacheOperation K V) (slot : Fin 128) (old : ℕ) (plan : CachePlan K V)
    (c : LockFreeCache K V) : LockFreeCache K V :=
  if c.current = old then c.publish op slot old plan else { c with writer := .exiting slot (some op) }

def stepWriter (free : Fin 128) (acquired : Bool) (c : LockFreeCache K V) : LockFreeCache K V :=
  match c.writer with
  | .idle => c
  | .entering op => { c with writer := .claiming op c.epoch }
  | .claiming op epoch =>
    if c.slots free = none then { c.setSlot free (some epoch) with writer := .loading op free } else c
  | .loading op slot => { c with writer := .preparing op slot c.current }
  | .preparing op slot old =>
    match op.plan (c.entries old) c.values.length with
    | some plan => { c with writer := .swapping op slot old plan }
    | none => { c with writer := if op.isClear then .restoring slot else .exiting slot none }
  | .swapping op slot old plan => c.swap op slot old plan
  | .deferring slot [] _ restore => { c with writer := .bumping slot restore }
  | .deferring slot (x :: dropped) reserved restore =>
    if acquired || reserved then
      { c with writer := .pushing slot ⟨x, c.epoch⟩ dropped reserved restore }
    else { c with leaked := c.leaked ++ [x], writer := .deferring slot dropped reserved restore }
  | .pushing slot node dropped reserved restore =>
    { c with deferStack := node :: c.deferStack, writer := .deferring slot dropped reserved restore }
  | .bumping slot restore =>
    { c with epoch := c.epoch + 1, writer := if restore then .restoring slot else .exiting slot none }
  | .restoring slot => { c with readable := true, writer := .exiting slot none }
  | .exiting slot again => { c.setSlot slot none with writer := again.elim .idle .entering }

/-- The epochs in the slots are read one after the other, and then the whole stack is taken. -/
def stepReclaimer (t : ℕ) (c : LockFreeCache K V) : LockFreeCache K V :=
  match c.reclaimers t with
  | .idle => c
  | .scanning oldest next =>
    if h : next < 128 then
      let epoch := c.slots ⟨next, h⟩
      c.setReclaimer t (.scanning ((epoch.map (min · oldest)).getD oldest) (next + 1))
    else c.setReclaimer t (.swapping oldest)
  | .swapping oldest => { c with deferStack := [] }.setReclaimer t (.freeing oldest c.deferStack)
  | .freeing _ [] => c.setReclaimer t .idle
  | .freeing oldest (node :: nodes) =>
    if node.epoch < oldest then
      { c with freed := c.freed ++ [node.resource] }.setReclaimer t (.freeing oldest nodes)
    else { c with deferStack := node :: c.deferStack }.setReclaimer t (.freeing oldest nodes)

def step (c : LockFreeCache K V) : CacheEvent K V → LockFreeCache K V
  | .get r key =>
    match c.readers r with
    | .idle | .notFound => c.setReader r (.checking key)
    | _ => c
  | .reader r slot => c.stepReader r slot
  | .release r => c.releaseHandle r
  | .write op =>
    match c.writer, op.start with
    | .idle, some op => { c with writer := .entering op }
    | _, _ => c
  | .writer slot acquired => c.stepWriter slot acquired
  | .outOfMemory =>
    match c.writer with
    | .preparing _ slot _ => { c with writer := .exiting slot none }
    | _ => c
  | .reclaim t =>
    match c.reclaimers t with
    | .idle => c.setReclaimer t (.scanning c.epoch 0)
    | _ => c
  | .reclaimer t => c.stepReclaimer t
  | .setReadable readable => { c with readable := readable }

end LockFreeCache

end ZyncBase
