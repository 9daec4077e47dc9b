import Mathlib.Data.List.Induction
import Mathlib.Data.List.Perm.Basic
import ZyncBase.Lib.AssocMap
import ZyncBase.Typed.Types

/-! One pass over the send queue: the popped entries are grouped by connection, and each group goes out
as one frame. Every allocation may fail, and so may every send. -/
namespace ZyncBase

open List
namespace SendDrain

open AssocMap

structure Entry where
  connId : ℕ
  data : Bytes
  deriving DecidableEq, Repr

structure Group where
  entries : List Entry := []
  bytes : ℕ := 0
  dropped : ℕ := 0
  isOver : Bool := false

def maxPendingGroupBytes : ℕ := 4 * 1024 * 1024

/-- The allocations that fail: for a new group and for a longer one by the number of the pop, and for
the frame of a connection. -/
structure Faults where
  getOrPut : ℕ → Bool := fun _ => false
  append : ℕ → Bool := fun _ => false
  alloc : ℕ → Bool := fun _ => false

inductive Event where
  | released (e : Entry)
  | sent (connId : ℕ) (data : Bytes)
  | closed (connId : ℕ)
  deriving DecidableEq, Repr

/-- A single entry may be longer than the limit of a group. -/
def Group.append (g : Group) (e : Entry) : Group :=
  let entries := g.entries ++ [e]
  let bytes := g.bytes + e.data.length
  let loneOversized := entries.length = 1 && maxPendingGroupBytes < e.data.length
  { g with entries, bytes, isOver := !loneOversized && maxPendingGroupBytes < bytes }

structure Drain where
  pops : ℕ := 0
  groups : List (ℕ × Group) := []
  events : List Event := []

namespace Drain

def group (st : Drain) (connId : ℕ) : Group := (find eqKey connId st.groups).getD {}

def setGroup (st : Drain) (connId : ℕ) (g : Group) : Drain :=
  { st with groups := put eqKey connId g st.groups }

def release (st : Drain) (e : Entry) : Drain :=
  { st with pops := st.pops + 1, events := st.events ++ [.released e] }

/-- A map that cannot grow still finds the groups it has. -/
def pop (faults : Faults) (st : Drain) (e : Entry) : Drain :=
  if (find eqKey e.connId st.groups).isNone ∧ faults.getOrPut st.pops then st.release e
  else
    let g := st.group e.connId
    if g.isOver then (st.setGroup e.connId { g with dropped := g.dropped + 1 }).release e
    else if faults.append st.pops then (st.setGroup e.connId g).release e
    else { st.setGroup e.connId (g.append e) with pops := st.pops + 1 }

end Drain

def collect (faults : Faults) (queue : List Entry) : Drain := queue.foldl (Drain.pop faults) {}

def sendOrClose (accepts : ℕ → Bool) (connId attempt : ℕ) (data : Bytes) : Event :=
  if accepts attempt then .sent connId data else .closed connId

/-- Without memory for the frame the entries are sent one by one. -/
def sendConcatenatedOrClose (oom : Bool) (accepts : ℕ → Bool) (connId : ℕ) (entries : List Entry) :
    List Event :=
  if entries.length = 1 ∨ oom then
    entries.zipIdx.flatMap fun e => [sendOrClose accepts connId e.2 e.1.data, .released e.1]
  else sendOrClose accepts connId 0 (entries.flatMap Entry.data) :: entries.map .released

variable (faults : Faults) (accepts : ℕ → ℕ → Bool) (live : List ℕ)

def sendGroup (connId : ℕ) (g : Group) : List Event :=
  if g.entries = [] then []
  else if connId ∉ live then g.entries.map .released
  else if g.isOver then g.entries.map .released ++ [.closed connId]
  else sendConcatenatedOrClose (faults.alloc connId) (accepts connId) connId g.entries

/-- What a pass does. The groups come in any order. -/
def Drains (queue : List Entry) (events : List Event) : Prop :=
  ∃ groups : List (ℕ × Group), groups.Perm (collect faults queue).groups ∧
    events = (collect faults queue).events ++ groups.flatMap fun g => sendGroup faults accepts live g.1 g.2

/-- The frames that a connection is sent. -/
def sentTo (connId : ℕ) (events : List Event) : List Bytes :=
  events.filterMap fun
    | .sent id data => if id = connId then some data else none
    | _ => none

def released (events : List Event) : List Entry :=
  events.filterMap fun
    | .released e => some e
    | _ => none

/-- The entries of a connection, in the order of the queue. -/
def own (connId : ℕ) (queue : List Entry) : List Entry := queue.filter fun e => e.connId = connId

def frames (oom : Bool) (entries : List Entry) : List Bytes :=
  if oom then entries.map Entry.data
  else if entries = [] then [] else [entries.flatMap Entry.data]

/-- No allocation for a group fails at an entry of the connection. -/
def Faults.Spares (connId : ℕ) (queue : List Entry) : Prop :=
  ∀ i e, queue[i]? = some e → e.connId = connId → faults.getOrPut i = false ∧ faults.append i = false

section Collecting

variable {faults} {queue : List Entry} {st : Drain} {e : Entry} {id : ℕ}

lemma own_append (id : ℕ) (queue : List Entry) (e : Entry) :
    own id (queue ++ [e]) = own id queue ++ if e.connId = id then [e] else [] := by
  rw [own, filter_append]
  by_cases he : e.connId = id
  · rw [if_pos he, filter_cons_of_pos (by simpa using he)]
    rfl
  · rw [if_neg he, filter_cons_of_neg (by simpa using he)]
    rfl

lemma Faults.Spares.append (h : faults.Spares id (queue ++ [e])) :
    faults.Spares id queue ∧ (e.connId = id →
      faults.getOrPut queue.length = false ∧ faults.append queue.length = false) := by
  constructor
  · intro i d hi hd
    refine h i d ?_ hd
    rw [List.getElem?_append_left (List.getElem?_eq_some_iff.mp hi).1, hi]
  · exact fun he => h queue.length e List.getElem?_concat_length he

namespace Drain

@[simp] lemma group_release (st : Drain) (e : Entry) : (st.release e).group = st.group := rfl

lemma group_setGroup (st : Drain) (connId : ℕ) (g : Group) (id : ℕ) :
    (st.setGroup connId g).group id = if connId = id then g else st.group id := by
  rw [group, setGroup, find_put]
  by_cases h : connId = id
  · rw [if_pos h, if_pos ((eqKey_iff _ _).mpr h)]
    rfl
  · rw [if_neg h, if_neg (by simpa using h)]
    rfl

lemma perm_group (hd : Distinct eqKey st.groups) (id : ℕ) : (st.groups.flatMap fun g => g.2.entries).Perm
    ((st.group id).entries ++ (remove eqKey id st.groups).flatMap fun g => g.2.entries) := by
  cases hfind : find eqKey id st.groups with
  | none =>
    have hremove : remove eqKey id st.groups = st.groups := by
      refine remove_eq_self fun g hg hid => ?_
      obtain ⟨k, v⟩ := g
      rw [find_of_mem eqKey hd hg ((eqKey_iff _ _).mpr hid)] at hfind
      cases hfind
    rw [hremove, group, hfind]
    exact .refl _
  | some g =>
    have hperm := (perm_remove hd hfind).flatMap_right fun g => g.2.entries
    rw [flatMap_cons] at hperm
    rw [group, hfind]
    exact hperm

lemma perm_setGroup (hd : Distinct eqKey st.groups) (id : ℕ) (g : Group) :
    ((st.setGroup id g).groups.flatMap fun g => g.2.entries).Perm
      (g.entries ++ (remove eqKey id st.groups).flatMap fun g => g.2.entries) := by
  have hperm := (perm_put (k := id) (v := g) hd).flatMap_right fun g => g.2.entries
  rwa [flatMap_cons] at hperm

/-- A popped entry is released, when memory is short or its group is over the limit, or it is added
to its group. -/
lemma pop_cases (faults : Faults) (st : Drain) (e : Entry) :
    (st.pop faults e = st.release e ∧ faults.getOrPut st.pops = true) ∨
    (∃ g, st.pop faults e = (st.setGroup e.connId g).release e ∧
      g.entries = (st.group e.connId).entries ∧ g.isOver = (st.group e.connId).isOver ∧
      (g.isOver = true ∨ faults.append st.pops = true)) ∨
    (st.pop faults e = { st.setGroup e.connId ((st.group e.connId).append e) with pops := st.pops + 1 } ∧
      (st.group e.connId).isOver = false) := by
  by_cases hput : (find eqKey e.connId st.groups).isNone ∧ faults.getOrPut st.pops
  · rw [pop, if_pos hput]
    exact .inl ⟨rfl, hput.2⟩
  rw [pop, if_neg hput]
  dsimp only
  by_cases hover : (st.group e.connId).isOver
  · rw [if_pos hover]
    exact .inr (.inl ⟨_, rfl, rfl, rfl, .inl hover⟩)
  rw [if_neg hover]
  by_cases happend : faults.append st.pops
  · rw [if_pos happend]
    exact .inr (.inl ⟨_, rfl, rfl, rfl, .inr happend⟩)
  · rw [if_neg happend]
    exact .inr (.inr ⟨rfl, Bool.not_eq_true _ ▸ hover⟩)

/-- What the pops of a queue leave behind. -/
structure Collected (faults : Faults) (queue : List Entry) (st : Drain) : Prop where
  pops : st.pops = queue.length
  distinct : Distinct eqKey st.groups
  own : ∀ id, (st.group id).entries.Sublist (own id queue)
  spared : ∀ id, faults.Spares id queue →
    (st.group id).isOver = true ∨ (st.group id).entries = SendDrain.own id queue
  filled : ∀ id, (st.group id).isOver = true → (st.group id).entries ≠ []
  perm : ((st.groups.flatMap fun g => g.2.entries) ++ released st.events).Perm queue
  silent : ∀ id, sentTo id st.events = []

lemma released_release (st : Drain) (e : Entry) :
    released (st.release e).events = released st.events ++ [e] := by
  rw [release, released, filterMap_append]
  rfl

lemma sentTo_release (st : Drain) (e : Entry) (id : ℕ) :
    sentTo id (st.release e).events = sentTo id st.events := by
  rw [release, sentTo, filterMap_append]
  exact append_nil _

lemma Collected.pop (h : st.Collected faults queue) (e : Entry) :
    (st.pop faults e).Collected faults (queue ++ [e]) := by
  have hpops (n : ℕ) (hn : n = st.pops + 1) : n = (queue ++ [e]).length := by
    rw [hn, h.pops, length_append, length_singleton]
  have hkept (id : ℕ) : (st.group id).entries.Sublist (SendDrain.own id (queue ++ [e])) := by
    rw [own_append]
    exact (h.own id).trans (sublist_append_left _ _)
  have hother {id : ℕ} (hid : e.connId ≠ id) (hspares : faults.Spares id (queue ++ [e])) :
      (st.group id).isOver = true ∨ (st.group id).entries = SendDrain.own id (queue ++ [e]) := by
    rw [own_append, if_neg hid, append_nil]
    exact h.spared id hspares.append.1
  rcases pop_cases faults st e with ⟨hpop, hfault⟩ | ⟨g, hpop, hentries, hover, hreason⟩ |
    ⟨hpop, hover⟩
  · rw [hpop]
    refine ⟨hpops _ rfl, h.distinct, hkept, fun id hspares => ?_, h.filled, ?_, fun id => ?_⟩
    · by_cases hid : e.connId = id
      · have hspared := (hspares.append.2 hid).1
        rw [← h.pops, hfault] at hspared
        cases hspared
      · exact hother hid hspares
    · rw [released_release, ← append_assoc]
      exact h.perm.append_right [e]
    · rw [sentTo_release, h.silent]
  · rw [hpop]
    refine ⟨hpops _ rfl, distinct_put eqKey h.distinct, fun id => ?_, fun id hspares => ?_,
      fun id => ?_, ?_, fun id => ?_⟩
    · rw [group_release, group_setGroup]
      split_ifs with hid
      · rw [hentries, hid]
        exact hkept id
      · exact hkept id
    · rw [group_release, group_setGroup]
      split_ifs with hid
      · rcases hreason with hreason | hreason
        · exact .inl hreason
        · have hspared := (hspares.append.2 hid).2
          rw [← h.pops, hreason] at hspared
          cases hspared
      · exact hother hid hspares
    · rw [group_release, group_setGroup]
      split_ifs with hid
      · rw [hentries, hover]
        exact h.filled e.connId
      · exact h.filled id
    · have hsame := (perm_setGroup h.distinct e.connId g).trans
        (hentries ▸ (perm_group h.distinct e.connId).symm)
      rw [released_release, ← append_assoc]
      exact ((hsame.append_right _).trans h.perm).append_right [e]
    · rw [sentTo_release]
      exact h.silent id
  · rw [hpop]
    refine ⟨hpops _ rfl, distinct_put eqKey h.distinct, fun id => ?_, fun id hspares => ?_,
      fun id => ?_, ?_, h.silent⟩
    · change ((st.setGroup e.connId _).group id).entries.Sublist _
      rw [group_setGroup, own_append]
      split_ifs with hid
      · rw [hid]
        exact (h.own id).append_right [e]
      · rw [append_nil]
        exact h.own id
    · change ((st.setGroup e.connId _).group id).isOver = true ∨ ((st.setGroup e.connId _).group id).entries = _
      rw [group_setGroup]
      split_ifs with hid
      · refine .inr ?_
        subst hid
        rw [own_append, if_pos rfl]
        rcases h.spared e.connId hspares.append.1 with hfull | hall
        · rw [hover] at hfull
          cases hfull
        · exact congrArg (· ++ [e]) hall
      · exact hother hid hspares
    · change ((st.setGroup e.connId _).group id).isOver = true →
        ((st.setGroup e.connId _).group id).entries ≠ []
      rw [group_setGroup]
      split_ifs with hid
      · exact fun _ => append_ne_nil_of_right_ne_nil _ (cons_ne_nil e [])
      · exact h.filled id
    · have hadded := (perm_setGroup h.distinct e.connId ((st.group e.connId).append e)).trans
        ((perm_append_comm.append_right _).trans
          ((perm_group h.distinct e.connId).symm.cons e))
      refine (hadded.append_right (released st.events)).trans ?_
      exact (h.perm.cons e).trans (perm_append_singleton e queue).symm

end Drain

lemma collected (faults : Faults) (queue : List Entry) : (collect faults queue).Collected faults queue := by
  induction queue using List.reverseRecOn with
  | nil => exact ⟨rfl, .nil, fun _ => .slnil, fun _ _ => .inr rfl, nofun, .refl _, fun _ => rfl⟩
  | append_singleton queue e ih =>
    rw [collect, foldl_append]
    exact ih.pop e

end Collecting

section Sending

variable {faults accepts live} {queue : List Entry} {events : List Event} {id connId : ℕ} {g : Group}
  {entries : List Entry}

lemma sentTo_append (id : ℕ) (as bs : List Event) : sentTo id (as ++ bs) = sentTo id as ++ sentTo id bs :=
  filterMap_append

lemma sentTo_map_released (id : ℕ) (entries : List Entry) : sentTo id (entries.map .released) = [] := by
  rw [sentTo, filterMap_map, filterMap_eq_nil_iff]
  exact fun _ _ => rfl

lemma released_map_released (entries : List Entry) : released (entries.map .released) = entries := by
  rw [released, filterMap_map]
  exact filterMap_some

lemma released_sendOrClose (accepts : ℕ → Bool) (connId attempt : ℕ) (data : Bytes) (events : List Event) :
    released (sendOrClose accepts connId attempt data :: events) = released events := by
  rw [sendOrClose]
  split_ifs <;> rfl

lemma sentTo_sendOrClose (accepts : ℕ → Bool) (attempt : ℕ) (data : Bytes) (events : List Event) :
    sentTo id (sendOrClose accepts connId attempt data :: events) =
      (if accepts attempt ∧ connId = id then [data] else []) ++ sentTo id events := by
  rw [sendOrClose]
  by_cases haccepts : accepts attempt
  · by_cases hid : connId = id
    · rw [if_pos haccepts, if_pos ⟨haccepts, hid⟩]
      simp [sentTo, hid]
    · rw [if_pos haccepts, if_neg fun h => hid h.2]
      simp [sentTo, hid]
  · rw [if_neg haccepts, if_neg fun h => haccepts h.1]
    rfl

lemma sendEach (accepts : ℕ → Bool) (connId : ℕ) (entries : List Entry) (attempt : ℕ) :
    ∃ events, ((entries.zipIdx attempt).flatMap fun e =>
        [sendOrClose accepts connId e.2 e.1.data, .released e.1]) = events ∧
      released events = entries ∧
      (∃ kept : List Entry, kept.Sublist entries ∧
        ∀ id, sentTo id events = if connId = id then kept.map Entry.data else []) ∧
      (sentTo connId events = entries.map Entry.data ∨ Event.closed connId ∈ events) := by
  induction entries generalizing attempt with
  | nil => exact ⟨_, rfl, rfl, ⟨[], .slnil, fun id => (ite_self _).symm⟩, .inl rfl⟩
  | cons e entries ih =>
    obtain ⟨events, hevents, hreleased, ⟨kept, hkept, hsent⟩, hall⟩ := ih (attempt + 1)
    refine ⟨_, rfl, ?_⟩
    rw [zipIdx_cons, flatMap_cons, hevents]
    refine ⟨?_, ?_, ?_⟩
    · change released (_ :: .released e :: events) = _
      rw [released_sendOrClose]
      exact congrArg (e :: ·) hreleased
    · by_cases haccepts : accepts attempt
      · refine ⟨e :: kept, hkept.cons_cons e, fun id => ?_⟩
        change sentTo id (_ :: .released e :: events) = _
        rw [sentTo_sendOrClose]
        change _ ++ sentTo id events = _
        rw [hsent]
        by_cases hid : connId = id
        · rw [if_pos ⟨haccepts, hid⟩, if_pos hid, if_pos hid]
          rfl
        · rw [if_neg fun h => hid h.2, if_neg hid, if_neg hid]
          rfl
      · refine ⟨kept, hkept.cons e, fun id => ?_⟩
        change sentTo id (_ :: .released e :: events) = _
        rw [sentTo_sendOrClose, if_neg fun h => haccepts h.1]
        exact hsent id
    · by_cases haccepts : accepts attempt
      · refine hall.imp (fun hall => ?_) fun hclosed => ?_
        · change sentTo connId (_ :: .released e :: events) = _
          rw [sentTo_sendOrClose, if_pos ⟨haccepts, rfl⟩]
          exact congrArg (e.data :: ·) hall
        · exact mem_cons_of_mem _ (mem_cons_of_mem _ hclosed)
      · refine .inr ?_
        change Event.closed connId ∈ _ :: _
        rw [sendOrClose, if_neg haccepts]
        exact mem_cons_self

/-- What comes of the group of a connection: it is released once, and the connection gets all of it,
or some of it and is closed; nobody else gets anything. -/
lemma sendGroup_spec (faults : Faults) (accepts : ℕ → ℕ → Bool) (live : List ℕ) (connId : ℕ) (g : Group) :
    released (sendGroup faults accepts live connId g) = g.entries ∧
    (∃ kept : List Entry, kept.Sublist g.entries ∧
      ((∀ id, sentTo id (sendGroup faults accepts live connId g) =
        if connId = id then kept.map Entry.data else []) ∨
      (∀ id, sentTo id (sendGroup faults accepts live connId g) =
        if connId = id then [kept.flatMap Entry.data] else []))) ∧
    (connId ∉ live → sentTo connId (sendGroup faults accepts live connId g) = []) ∧
    (connId ∈ live → (sentTo connId (sendGroup faults accepts live connId g) =
        frames (faults.alloc connId) g.entries ∧ (g.isOver = true → g.entries = [])) ∨
      Event.closed connId ∈ sendGroup faults accepts live connId g) := by
  rw [sendGroup]
  have hnone {events : List Event} (hsent : ∀ id, sentTo id events = []) :
      ∃ kept : List Entry, kept.Sublist g.entries ∧
        ((∀ id, sentTo id events = if connId = id then kept.map Entry.data else []) ∨
        (∀ id, sentTo id events = if connId = id then [kept.flatMap Entry.data] else [])) :=
    ⟨[], nil_sublist _, .inl fun id => (hsent id).trans (ite_self _).symm⟩
  by_cases hempty : g.entries = []
  · rw [if_pos hempty]
    refine ⟨hempty.symm, hnone fun _ => rfl, fun _ => rfl, fun _ => .inl ⟨?_, fun _ => hempty⟩⟩
    rw [hempty, frames]
    exact (ite_self _).symm
  rw [if_neg hempty]
  by_cases hlive : connId ∉ live
  · rw [if_pos hlive]
    exact ⟨released_map_released _, hnone fun id => sentTo_map_released id _,
      fun _ => sentTo_map_released _ _, fun h => absurd h hlive⟩
  rw [if_neg hlive]
  by_cases hover : g.isOver
  · rw [if_pos hover]
    have hsent (id : ℕ) : sentTo id (g.entries.map .released ++ [.closed connId]) = [] := by
      rw [sentTo_append, sentTo_map_released]
      rfl
    refine ⟨?_, hnone hsent, fun _ => hsent connId, fun _ => .inr ?_⟩
    · rw [released, filterMap_append]
      exact (append_nil _).trans (released_map_released _)
    · exact mem_append_right _ mem_cons_self
  rw [if_neg hover, sendConcatenatedOrClose]
  have hfits : g.isOver = true → g.entries = [] := fun h => absurd h hover
  by_cases heach : g.entries.length = 1 ∨ faults.alloc connId
  · rw [if_pos heach]
    obtain ⟨events, hevents, hreleased, ⟨kept, hkept, hsent⟩, hall⟩ :=
      sendEach (accepts connId) connId g.entries 0
    rw [hevents]
    refine ⟨hreleased, ⟨kept, hkept, .inl hsent⟩, fun h => absurd h hlive, fun _ => ?_⟩
    refine hall.imp_left fun hall => ⟨?_, hfits⟩
    rw [hall, frames]
    split_ifs with halloc
    · rfl
    · obtain ⟨e, he⟩ := length_eq_one_iff.mp (heach.resolve_right halloc)
      rw [he, flatMap_singleton]
      rfl
  · rw [if_neg heach]
    obtain ⟨-, halloc⟩ := not_or.mp heach
    refine ⟨?_, ?_, fun h => absurd h hlive, fun _ => ?_⟩
    · rw [released_sendOrClose, released_map_released]
    · by_cases haccepts : accepts connId 0
      · refine ⟨g.entries, .refl _, .inr fun id => ?_⟩
        rw [sentTo_sendOrClose, sentTo_map_released, append_nil]
        simp only [haccepts, true_and]
      · refine hnone fun id => ?_
        rw [sentTo_sendOrClose, sentTo_map_released, if_neg fun h => haccepts h.1]
        rfl
    · by_cases haccepts : accepts connId 0
      · refine .inl ⟨?_, hfits⟩
        rw [sentTo_sendOrClose, sentTo_map_released, if_pos ⟨haccepts, rfl⟩, frames, if_neg halloc,
          if_neg hempty]
        rfl
      · refine .inr ?_
        rw [sendOrClose, if_neg haccepts]
        exact mem_cons_self

lemma Drains.sentTo_eq (h : Drains faults accepts live queue events) (id : ℕ) :
    ∃ g : Option Group, g.getD {} = (collect faults queue).group id ∧
      sentTo id events = (g.elim [] fun g => sentTo id (sendGroup faults accepts live id g)) ∧
      ∀ v, g = some v → ∀ event ∈ sendGroup faults accepts live id v, event ∈ events := by
  obtain ⟨groups, hperm, rfl⟩ := h
  have hcollected := collected faults queue
  have hdistinct : Distinct eqKey groups := distinct_perm eqKey hcollected.distinct hperm.symm
  refine ⟨find eqKey id groups, ?_, ?_, fun v hv event hevent => ?_⟩
  · rw [Drain.group, find_perm eqKey hdistinct hperm]
  · have hothers : ∀ e ∈ groups, e.1 ≠ id → sentTo id (sendGroup faults accepts live e.1 e.2) = [] := by
      intro e _ hid
      obtain ⟨-, ⟨kept, -, hsent | hsent⟩, -⟩ := sendGroup_spec faults accepts live e.1 e.2
      · rw [hsent, if_neg hid]
      · rw [hsent, if_neg hid]
    rw [sentTo_append, hcollected.silent, nil_append, ← flatMap_at hdistinct hothers]
    exact filterMap_flatMap
  · obtain ⟨k, hk, hmem⟩ := mem_of_find eqKey hv
    obtain rfl := (eqKey_iff _ _).mp hk
    exact mem_append_right _ (mem_flatMap.mpr ⟨_, hmem, hevent⟩)

lemma Drains.released_perm (h : Drains faults accepts live queue events) : (released events).Perm queue := by
  obtain ⟨groups, hperm, rfl⟩ := h
  have hgroups : released (groups.flatMap fun g => sendGroup faults accepts live g.1 g.2) =
      groups.flatMap fun g => g.2.entries := by
    rw [released, filterMap_flatMap]
    exact congrArg (groups.flatMap ·) (funext fun g => (sendGroup_spec faults accepts live g.1 g.2).1)
  rw [released, filterMap_append]
  change (released _ ++ released _).Perm queue
  rw [hgroups]
  exact (perm_append_comm.trans ((hperm.flatMap_right _).append_right _)).trans
    (collected faults queue).perm

end Sending

section Passes

variable {faults : Faults} {accepts : ℕ → ℕ → Bool} {live : List ℕ} {queue : List Entry} {events : List Event}

/-- A live connection that loses no entry to a failed allocation for its group gets all of them in the
order of the queue, in one frame or without memory for it in a frame for each, or it is closed. Whatever
fails, a connection gets only entries of its own, in order and none twice, and every popped entry is
released once. -/
theorem drained (h : Drains faults accepts live queue events) :
    (∀ id ∈ live, faults.Spares id queue →
      sentTo id events = frames (faults.alloc id) (own id queue) ∨ Event.closed id ∈ events) ∧
    (∀ id, ∃ kept : List Entry, kept.Sublist (own id queue) ∧
      (sentTo id events = kept.map Entry.data ∨ sentTo id events = [kept.flatMap Entry.data])) ∧
    (∀ id, id ∉ live → sentTo id events = []) ∧ (released events).Perm queue := by
  have hcollected := collected faults queue
  refine ⟨fun id hlive hspares => ?_, fun id => ?_, fun id hgone => ?_, h.released_perm⟩
  · obtain ⟨g, hg, hsent, hevents⟩ := h.sentTo_eq id
    have hheld := hcollected.spared id hspares
    rw [← hg] at hheld
    cases g with
    | none =>
      have hown := hheld.resolve_left (by decide)
      refine Or.inl ?_
      rw [hsent, ← hown, frames]
      exact (ite_self _).symm
    | some g =>
      obtain ⟨-, -, -, hgroup⟩ := sendGroup_spec faults accepts live id g
      rcases hgroup hlive with ⟨hframes, hfits⟩ | hclosed
      · refine Or.inl ?_
        have hown := hheld.resolve_left fun hover => hcollected.filled id (hg ▸ hover) (hg ▸ hfits hover)
        rw [hsent, ← hown]
        exact hframes
      · exact Or.inr (hevents g rfl _ hclosed)
  · obtain ⟨g, hg, hsent, -⟩ := h.sentTo_eq id
    have hown := hcollected.own id
    rw [← hg] at hown
    cases g with
    | none => exact ⟨[], List.nil_sublist _, Or.inl hsent⟩
    | some g =>
      obtain ⟨-, ⟨kept, hkept, hgroup⟩, -⟩ := sendGroup_spec faults accepts live id g
      refine ⟨kept, hkept.trans hown, ?_⟩
      refine hgroup.imp (fun hgroup => ?_) fun hgroup => ?_
      · exact hsent.trans ((hgroup id).trans (if_pos rfl))
      · exact hsent.trans ((hgroup id).trans (if_pos rfl))
  · obtain ⟨g, -, hsent, -⟩ := h.sentTo_eq id
    cases g with
    | none => exact hsent
    | some g => exact hsent.trans ((sendGroup_spec faults accepts live id g).2.2.1 hgone)

end Passes
section Examples

def pair : List Entry := [⟨1, [7]⟩, ⟨1, [8]⟩]

theorem drained_pair : sentTo 1 [.sent 1 [7, 8], .released ⟨1, [7]⟩, .released ⟨1, [8]⟩] = [[7, 8]] := by
  have hdrains : Drains {} (fun _ _ => true) [1] pair
      [.sent 1 [7, 8], .released ⟨1, [7]⟩, .released ⟨1, [8]⟩] := ⟨_, .refl _, rfl⟩
  have hspares : ({} : Faults).Spares 1 pair := fun _ _ _ _ => ⟨rfl, rfl⟩
  exact ((drained hdrains).1 1 (by decide) hspares).resolve_right (by decide)

/-- Without memory for the frame the open connection gets two frames, and without memory for the second
entry of its group it gets the first one alone. -/
theorem not_one_frame : (∃ events, Drains { alloc := fun _ => true } (fun _ _ => true) [1] pair events ∧
      sentTo 1 events = [[7], [8]] ∧ Event.closed 1 ∉ events) ∧
    ∃ events, Drains { append := fun i => i = 1 } (fun _ _ => true) [1] pair events ∧
      sentTo 1 events = [[7]] ∧ Event.closed 1 ∉ events := by
  refine ⟨⟨_, ⟨_, .refl _, rfl⟩, ?_, ?_⟩, ⟨_, ⟨_, .refl _, rfl⟩, ?_, ?_⟩⟩
  · decide
  · decide
  · decide
  · decide

end Examples
end SendDrain
end ZyncBase
