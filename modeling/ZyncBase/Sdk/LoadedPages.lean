import Mathlib.Data.List.Induction
import Mathlib.Logic.Function.Basic
import ZyncBase.Lib.Machine

/-! The pages and the deltas of one store subscription in the client, and the view that they are applied to in
the order in which they come. What the client runs between two suspensions is one step. -/
namespace ZyncBase.Sdk

open Machine

/-- A record that is set under its id, or removed. -/
abbrev ViewOp (K R : Type) := K × Option R

structure ViewDelta (K R : Type) where
  subId : ℕ
  ops : List (ViewOp K R)

/-- The answer to a subscribe or to a loadMore; an answer without a value has no rows. -/
structure Page (K R C : Type) where
  rows : List (K × R)
  nextCursor : Option C
  hasMore : Bool

structure PageRequest (C : Type) where
  subId : ℕ
  nextCursor : C
  /-- the establishment that the subscription was in, by its number -/
  establishment : ℕ

structure PagedSubscription (K R C : Type) where
  subId : Option ℕ := none
  closed : Bool := false
  nextCursor : Option C := none
  hasMore : Bool := false
  inFlight : Option (PageRequest C) := none
  connected : Bool := true
  deltaQueue : List (ViewDelta K R) := []
  pendingDeltas : List (ViewDelta K R) := []
  records : K → Option R := fun _ => none
  /-- the subscription ids that the server has given on this connection -/
  issued : List ℕ := []
  /-- the id is of this connection -/
  live : Bool := false
  establishment : ℕ := 0
  /-- what has come for the view since it was established -/
  arrived : List (ViewOp K R) := []
  /-- the establishments in which each page that was merged had been requested, and was merged -/
  merged : List (ℕ × ℕ) := []
  /-- the cursor of the page that was merged last, if that was not by a replay -/
  lastCursor : Option (Option C) := none

inductive PageEvent (K R C : Type) where
  | acked (subId : ℕ) (page : Page K R C)
  | delta (d : ViewDelta K R)
  | flush
  | loadMore
  | page (p : Page K R C)
  | pageFailed
  | dropped
  | disconnected
  | replayed (subId : ℕ) (page : Page K R C)
  | teardown

variable {K R C : Type} [DecidableEq K]

def applyOpsToView (records : K → Option R) (ops : List (ViewOp K R)) : K → Option R :=
  ops.foldl (fun r op => Function.update r op.1 op.2) records

/-- What the last operation on a record makes of it. -/
def lastValue (ops : List (ViewOp K R)) (id : K) : Option R :=
  (ops.reverse.find? fun op => op.1 = id).bind Prod.snd

namespace PagedSubscription

variable (s : PagedSubscription K R C)

def dispatch (d : ViewDelta K R) : PagedSubscription K R C :=
  if s.connected then
    if s.subId = some d.subId then
      { s with pendingDeltas := s.pendingDeltas ++ [d], arrived := s.arrived ++ d.ops }
    else s
  else { s with deltaQueue := s.deltaQueue ++ [d] }

def dispatchInitialSnapshot (subId : ℕ) (rows : List (K × R)) : PagedSubscription K R C :=
  if rows = [] then s else s.dispatch ⟨subId, rows.map fun row => (row.1, some row.2)⟩

/-- The operations that wait for the view. -/
def pendingOps : List (ViewOp K R) :=
  (s.pendingDeltas.filter fun d => s.subId = some d.subId).flatMap ViewDelta.ops

def flushPending : PagedSubscription K R C :=
  { s with records := applyOpsToView s.records s.pendingOps, pendingDeltas := [] }

/-- An acknowledgement registers an empty view. -/
def acceptAck (subId : ℕ) (page : Page K R C) : PagedSubscription K R C :=
  if s.closed ∨ s.subId.isSome then s
  else
    dispatchInitialSnapshot { s with
      subId := some subId
      nextCursor := page.nextCursor
      hasMore := page.hasMore
      records := fun _ => none
      issued := subId :: s.issued
      live := true
      establishment := s.establishment + 1
      arrived := []
      lastCursor := some page.nextCursor } subId page.rows

/-- Other calls wait for the page in flight, and then begin again. -/
def loadMore : PagedSubscription K R C :=
  match s.subId, s.nextCursor, s.inFlight with
  | some subId, some nextCursor, none => { s with inFlight := some ⟨subId, nextCursor, s.establishment⟩ }
  | _, _, _ => s

def acceptPage (page : Page K R C) : PagedSubscription K R C :=
  match s.inFlight with
  | none => s
  | some request =>
    if s.closed ∨ s.subId ≠ some request.subId then { s with inFlight := none }
    else
      dispatchInitialSnapshot { s with
        inFlight := none
        nextCursor := page.nextCursor
        hasMore := page.hasMore
        merged := s.merged ++ [(request.establishment, s.establishment)]
        lastCursor := some page.nextCursor } request.subId page.rows

/-- The requests of a connection fail with it, and the next one begins again with its ids. -/
def drop : PagedSubscription K R C := { s with inFlight := none, issued := [], live := false }

/-- The id is mapped to a new one, the view cleared and filled again, and what was queued follows. -/
def reconnect (newSubId : ℕ) (page : Page K R C) : PagedSubscription K R C :=
  if s.subId.isSome then
    s.deltaQueue.foldl dispatch (dispatchInitialSnapshot { s with
      subId := some newSubId
      connected := true
      deltaQueue := []
      pendingDeltas := []
      records := fun _ => none
      issued := newSubId :: s.issued
      live := true
      establishment := s.establishment + 1
      arrived := []
      lastCursor := none } newSubId page.rows)
  else s

def step : PageEvent K R C → PagedSubscription K R C
  | .acked subId page => s.acceptAck subId page
  | .delta d => s.dispatch d
  | .flush => s.flushPending
  | .loadMore => s.loadMore
  | .page p => s.acceptPage p
  | .pageFailed => { s with inFlight := none }
  | .dropped => s.drop
  | .disconnected => { s.drop with connected := false }
  | .replayed subId page => s.reconnect subId page
  | .teardown => { s with closed := true, subId := none }

/-- The server gives an id once on a connection, and pages are requested on the connection of the id. -/
def Served : PageEvent K R C → Prop
  | .acked subId _ | .replayed subId _ => subId ∉ s.issued
  | .loadMore => s.live = true
  | _ => True

/-- Each page was merged in the establishment that had requested it, the view shows of every record what has
come for it last, and the cursor is that of the page that was merged last. -/
structure Merged : Prop where
  current : ∀ m ∈ s.merged, m.1 = m.2
  view : s.subId.isSome → ∀ id, s.flushPending.records id = lastValue s.arrived id
  cursor : ∀ c, s.lastCursor = some c → s.nextCursor = c

/-- What every step keeps: a request whose id is still that of the subscription is of its establishment. -/
structure Sound : Prop where
  tags : s.closed = false → ∀ d ∈ s.pendingDeltas, s.subId = some d.subId
  view : s.subId.isSome → applyOpsToView s.records s.pendingOps = applyOpsToView (fun _ => none) s.arrived
  request : ∀ r, s.inFlight = some r → r.subId ∈ s.issued ∧
    (s.subId = some r.subId → r.establishment = s.establishment)
  issued : s.live = true → ∀ n, s.subId = some n → n ∈ s.issued
  current : ∀ m ∈ s.merged, m.1 = m.2
  cursor : ∀ c, s.lastCursor = some c → s.nextCursor = c

end PagedSubscription

section Views

lemma applyOpsToView_append (records : K → Option R) (ops ops' : List (ViewOp K R)) :
    applyOpsToView records (ops ++ ops') = applyOpsToView (applyOpsToView records ops) ops' := List.foldl_append

lemma applyOpsToView_empty (ops : List (ViewOp K R)) (id : K) :
    applyOpsToView (fun _ => none) ops id = lastValue ops id := by
  induction ops using List.reverseRecOn with
  | nil => rfl
  | append_singleton ops op ih =>
    rw [applyOpsToView_append, lastValue, List.reverse_append]
    by_cases heq : op.1 = id
    · simp [applyOpsToView, heq]
    · simpa [applyOpsToView, lastValue, heq, Function.update_of_ne (Ne.symm heq)] using ih

end Views

namespace PagedSubscription

variable {s : PagedSubscription K R C}

lemma Sound.dispatch (h : s.Sound) (d : ViewDelta K R) : (s.dispatch d).Sound := by
  unfold PagedSubscription.dispatch
  split_ifs with hconnected hsub
  · refine ⟨fun hclosed d' hd' => ?_, fun hsome => ?_, h.request, h.issued, h.current, h.cursor⟩
    · obtain hd' | hd' := List.mem_append.mp hd'
      · exact h.tags hclosed d' hd'
      · rw [List.mem_singleton.mp hd']
        exact hsub
    · have hpending : pendingOps { s with pendingDeltas := s.pendingDeltas ++ [d], arrived := s.arrived ++ d.ops } =
          s.pendingOps ++ d.ops := by
        simp [pendingOps, hsub]
      rw [hpending, applyOpsToView_append, applyOpsToView_append, h.view hsome]
  · exact h
  · exact ⟨h.tags, h.view, h.request, h.issued, h.current, h.cursor⟩

lemma Sound.dispatchInitialSnapshot (h : s.Sound) (subId : ℕ) (rows : List (K × R)) :
    (s.dispatchInitialSnapshot subId rows).Sound := by
  unfold PagedSubscription.dispatchInitialSnapshot
  split_ifs
  · exact h
  · exact h.dispatch _

lemma Sound.established (h : s.Sound) {subId : ℕ} (hnew : subId ∉ s.issued) {s' : PagedSubscription K R C}
    (hpending : s'.pendingDeltas = []) (hrecords : s'.records = fun _ => none) (harrived : s'.arrived = [])
    (hsub : s'.subId = some subId) (hissued : s'.issued = subId :: s.issued) (hflight : s'.inFlight = s.inFlight)
    (hmerged : s'.merged = s.merged) (hcursor : ∀ c, s'.lastCursor = some c → s'.nextCursor = c) : s'.Sound where
  tags _ d hd := by
    rw [hpending] at hd
    exact absurd hd List.not_mem_nil
  view _ := by
    rw [pendingOps, hpending, hrecords, harrived]
    rfl
  request r hr := by
    rw [hflight] at hr
    obtain ⟨hmem, -⟩ := h.request r hr
    rw [hissued, hsub]
    refine ⟨List.mem_cons_of_mem _ hmem, fun heq => absurd hmem ?_⟩
    rw [← Option.some.inj heq]
    exact hnew
  issued _ n hn := by
    rw [hsub, Option.some.injEq] at hn
    rw [hissued, hn]
    exact List.mem_cons_self
  current := by
    rw [hmerged]
    exact h.current
  cursor := hcursor

lemma Sound.acceptAck (h : s.Sound) {subId : ℕ} (hnew : subId ∉ s.issued) (page : Page K R C) :
    (s.acceptAck subId page).Sound := by
  unfold PagedSubscription.acceptAck
  split_ifs with hheld
  · exact h
  rw [not_or, Bool.not_eq_true, Option.not_isSome_iff_eq_none] at hheld
  have hpending : s.pendingDeltas = [] := by
    refine List.eq_nil_iff_forall_not_mem.mpr fun d hd => ?_
    have htag := h.tags hheld.1 d hd
    rw [hheld.2] at htag
    cases htag
  refine Sound.dispatchInitialSnapshot ?_ _ _
  exact h.established hnew hpending rfl rfl rfl rfl rfl rfl fun c hc => Option.some.inj hc

lemma Sound.reconnect (h : s.Sound) {subId : ℕ} (hnew : subId ∉ s.issued) (page : Page K R C) :
    (s.reconnect subId page).Sound := by
  have hqueue : ∀ (ds : List (ViewDelta K R)) {s : PagedSubscription K R C}, s.Sound →
      (ds.foldl PagedSubscription.dispatch s).Sound := by
    intro ds
    induction ds with
    | nil => exact fun hs => hs
    | cons d ds ih => exact fun hs => ih (hs.dispatch d)
  unfold PagedSubscription.reconnect
  split_ifs
  · refine hqueue _ (Sound.dispatchInitialSnapshot ?_ _ _)
    exact h.established hnew rfl rfl rfl rfl rfl rfl rfl nofun
  · exact h

lemma Sound.loadMore (h : s.Sound) (hlive : s.live = true) : s.loadMore.Sound := by
  unfold PagedSubscription.loadMore
  split
  · rename_i subId nextCursor hsub hcursor hflight
    refine ⟨h.tags, h.view, fun r hr => ?_, h.issued, h.current, h.cursor⟩
    cases hr
    exact ⟨h.issued hlive subId hsub, fun _ => rfl⟩
  · exact h

lemma Sound.acceptPage (h : s.Sound) (page : Page K R C) : (s.acceptPage page).Sound := by
  unfold PagedSubscription.acceptPage
  split
  · exact h
  rename_i request hflight
  split_ifs with hstale
  · exact ⟨h.tags, h.view, nofun, h.issued, h.current, h.cursor⟩
  rw [not_or, not_not] at hstale
  refine Sound.dispatchInitialSnapshot ?_ _ _
  refine ⟨h.tags, h.view, nofun, h.issued, fun m hm => ?_, fun c hc => Option.some.inj hc⟩
  obtain hm | hm := List.mem_append.mp hm
  · exact h.current m hm
  · rw [List.mem_singleton.mp hm]
    exact (h.request request hflight).2 hstale.2

lemma Sound.step (h : s.Sound) (e : PageEvent K R C) (he : s.Served e) : (s.step e).Sound := by
  cases e with
  | acked subId page => exact h.acceptAck he page
  | delta d => exact h.dispatch d
  | flush =>
    refine ⟨fun _ d hd => absurd hd List.not_mem_nil, fun hsome => ?_, h.request, h.issued, h.current, h.cursor⟩
    exact h.view hsome
  | loadMore => exact h.loadMore he
  | page p => exact h.acceptPage p
  | pageFailed => exact ⟨h.tags, h.view, nofun, h.issued, h.current, h.cursor⟩
  | dropped => exact ⟨h.tags, h.view, nofun, nofun, h.current, h.cursor⟩
  | disconnected => exact ⟨h.tags, h.view, nofun, nofun, h.current, h.cursor⟩
  | replayed subId page => exact h.reconnect he page
  | teardown => exact ⟨nofun, nofun, fun r hr => ⟨(h.request r hr).1, nofun⟩, fun _ _ => nofun, h.current, h.cursor⟩

lemma Sound.merged (h : s.Sound) : s.Merged where
  current := h.current
  view hsome id := by
    rw [← applyOpsToView_empty, ← h.view hsome]
    rfl
  cursor := h.cursor

/-- In every run whose ids the server gives once on a connection, and whose pages are requested on the
connection of the id, pages and deltas are merged in the order in which they come. -/
theorem pages_merged {es : List (PageEvent K R C)}
    (h : Along step Served ({} : PagedSubscription K R C) es) : (es.foldl step {}).Merged :=
  (h.invariant (fun _ e hs he => hs.step e he) (I := Sound)
    ⟨fun _ _ hd => absurd hd List.not_mem_nil, nofun, nofun, nofun, fun _ hm => absurd hm List.not_mem_nil,
      nofun⟩).merged

namespace LoadedPagesExample

/-- The version of each record is its value; the page was read before two changes, and came after them. -/
def overtaken : List (PageEvent ℕ ℕ ℕ) :=
  [.acked 1 ⟨[], some 7, true⟩, .loadMore, .delta ⟨1, [(5, some 2)]⟩, .delta ⟨1, [(6, none)]⟩, .flush,
    .page ⟨[(5, 1), (6, 1)], none, false⟩, .flush]

lemma served_overtaken : Along step Served ({} : PagedSubscription ℕ ℕ ℕ) overtaken :=
  ⟨List.not_mem_nil, rfl, trivial, trivial, trivial, trivial, trivial, trivial⟩

theorem pages_merged_overtaken : (overtaken.foldl step {}).Merged := pages_merged served_overtaken

/-- The older value of the page takes the place of the newer one, and the removed record is there again. -/
theorem overtaken_overwritten : Along step Served ({} : PagedSubscription ℕ ℕ ℕ) overtaken ∧
    ((overtaken.take 5).foldl step {}).records 5 = some 2 ∧ ((overtaken.take 5).foldl step {}).records 6 = none ∧
    (overtaken.foldl step {}).records 5 = some 1 ∧ (overtaken.foldl step {}).records 6 = some 1 :=
  ⟨served_overtaken, rfl, rfl, rfl, rfl⟩

end LoadedPagesExample

end PagedSubscription
end ZyncBase.Sdk
