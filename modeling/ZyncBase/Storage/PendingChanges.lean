import ZyncBase.Lib.Journal
import ZyncBase.Storage.DeleteCapture

/-! The changes that a transaction pushes. They are a journal of the rows that its operations affect,
which is exact unless an operation overlooks a row before it is first announced or after it is
last. -/
namespace ZyncBase

open AssocMap Journal List Outcome OwnedRecordChange

section Presence

/-- How much is stored in a document. Whatever a delete does to other rows lowers it. -/
def stored : Option Record → ℕ
  | none => 0
  | some r => r.values.countP (· ≠ .nil) + 1

lemma countP_mapIdx_le {α : Type*} (p : α → Bool) (l : List α) (f : ℕ → α → α)
    (hf : ∀ i a, p (f i a) → p a) : (l.mapIdx f).countP p ≤ l.countP p := by
  induction l generalizing f with
  | nil => simp
  | cons a l ih =>
    have hrest := ih (fun i => f (i + 1)) fun i => hf (i + 1)
    have hhead := hf 0 a
    rw [mapIdx_cons, countP_cons, countP_cons]
    split_ifs with h₁ h₂
    · omega
    · exact absurd (hhead h₁) h₂
    · omega
    · omega

lemma countP_mapIdx_lt {α : Type*} (p : α → Bool) (l : List α) (f : ℕ → α → α)
    (hf : ∀ i a, p (f i a) → p a) {i : ℕ} {a : α} (hi : l[i]? = some a) (ha : p a)
    (hgone : ¬ p (f i a)) : (l.mapIdx f).countP p < l.countP p := by
  induction l generalizing f i with
  | nil => cases hi
  | cons b l ih =>
    have hshift : ∀ i a, p (f (i + 1) a) → p a := fun i => hf (i + 1)
    rw [mapIdx_cons, countP_cons, countP_cons]
    cases i with
    | zero =>
      cases hi
      have hrest := countP_mapIdx_le p l (fun i => f (i + 1)) hshift
      rw [if_neg hgone, if_pos ha]
      omega
    | succ i =>
      have hrest := ih (fun i => f (i + 1)) hshift hi hgone
      have hhead := hf 0 b
      split_ifs with h₁ h₂
      · omega
      · exact absurd (hhead h₁) h₂
      · omega
      · omega

variable {s : Schema} {db : Database} {root : RowKey} {k : Slot}

lemma stored_nullify_lt {r : Row} (h : db.NullifiedBy s root k.2 r) :
    stored (some ((Database.nullify s (db.CascadesTo s root) k.2 r).record k.2.id)) <
      stored (some (r.record k.2.id)) := by
  obtain ⟨fk, hfk, ho, parent, hp, href⟩ := h
  simp only [ForeignKey.refersTo, Bool.and_eq_true, decide_eq_true_eq] at href
  obtain ⟨⟨hparent, hchild⟩, hfield⟩ := href
  have hlt := countP_mapIdx_lt (fun v => decide (v ≠ .nil)) r.fields
    (fun i v => if Database.nulled s (db.CascadesTo s root) k.2.tableIndex i v then .nil else v)
    (by intro i a; split_ifs <;> simp) hfield (by simp) (by
      rw [if_pos]
      · simp
      · refine Database.nulled_iff.mpr ⟨fk, hfk, ho, hchild.symm, rfl, parent.id, rfl, ?_⟩
        rw [← hparent]
        exact hp)
  simpa [stored, Row.record, Database.nullify, countP_append] using hlt

lemma stored_deleteCascading_lt (h : db.Follows s root k) :
    stored ((db.deleteCascading s root).contents k) < stored (db.contents k) := by
  obtain ⟨_, r, hr, hn, hfollows⟩ := h
  have hrow := Database.row_deleteCascading s db root k.2
  rw [Database.contents_eq_record hr hn]
  by_cases hc : db.CascadesTo s root k.2
  · rw [if_pos hc] at hrow
    rw [Database.contents_eq_none (by simp [hrow])]
    exact Nat.succ_pos _
  · rw [if_neg hc, hr, Option.map_some] at hrow
    rw [Database.contents_eq_record hrow (by simpa using hn)]
    exact stored_nullify_lt (hfollows.resolve_left hc)

end Presence

namespace OwnedRecordChange

def slot (c : OwnedRecordChange) : Slot := (c.namespaceId, c.key)

def entry (c : OwnedRecordChange) : Slot × Option Record × Option Record :=
  (c.slot, c.oldRecord, c.newRecord)

/-- The operation says which of the two records are missing. -/
def Classified (c : OwnedRecordChange) : Prop :=
  c.operation = operationForEndpoints c.oldRecord c.newRecord

end OwnedRecordChange

def RowEffect.change (e : RowEffect) : Journal.Change Slot Record := ⟨e.slot, e.oldRecord, e.newRecord⟩

section Accumulate

variable {cs : List OwnedRecordChange}

lemma map_entry_accumulate (e : RowEffect) (cs : List OwnedRecordChange) :
    (e.accumulate cs).map entry = record (cs.map entry) e.change := by
  unfold RowEffect.accumulate record
  induction cs with
  | nil => rfl
  | cons c cs ih =>
    unfold accumulateOwnedChange
    have hslot : c.slot = e.slot ↔ c.namespaceId = e.namespaceId ∧ c.key = e.key := by
      simp [slot, RowEffect.slot]
    rw [map_cons, AssocMap.find, put]
    by_cases h : c.namespaceId = e.namespaceId ∧ c.key = e.key
    · have hsame : eqKey c.entry.1 e.change.key := (eqKey_iff _ _).mpr (hslot.mpr h)
      rw [if_pos h, if_pos hsame, if_pos hsame]
      rfl
    · have hother : ¬ eqKey c.entry.1 e.change.key := fun he => h (hslot.mp ((eqKey_iff _ _).mp he))
      rw [if_neg h, if_neg hother, if_neg hother, map_cons, ih]

lemma map_entry_accumulates (es : List RowEffect) (cs : List OwnedRecordChange) :
    (es.foldl RowEffect.accumulate cs).map entry =
      (es.map RowEffect.change).foldl record (cs.map entry) := by
  induction es generalizing cs with
  | nil => rfl
  | cons e es ih => rw [foldl_cons, ih, map_entry_accumulate, map_cons, foldl_cons]

lemma classified_accumulate (e : RowEffect) (h : ∀ c ∈ cs, c.Classified) :
    ∀ c ∈ e.accumulate cs, c.Classified := by
  unfold RowEffect.accumulate
  induction cs with
  | nil => simp [accumulateOwnedChange, Classified]
  | cons c cs ih =>
    rw [forall_mem_cons] at h
    unfold accumulateOwnedChange
    split_ifs with hk
    · exact forall_mem_cons.mpr ⟨rfl, h.2⟩
    · exact forall_mem_cons.mpr ⟨h.1, ih h.2⟩

lemma classified_accumulates (es : List RowEffect) (h : ∀ c ∈ cs, c.Classified) :
    ∀ c ∈ es.foldl RowEffect.accumulate cs, c.Classified := by
  induction es generalizing cs with
  | nil => exact h
  | cons e es ih => exact ih (classified_accumulate e h)

end Accumulate

variable {namespaceId : ℤ}

section Operation

variable {s : Schema} {sqlite : Sqlite} {ctx ctx' : BatchCtx} {op : RowOp} {b : Bool} {k : Slot}
  {t : Table} {guard : Option SqlWhere} {db : Database} {p : Database × Option Record}

lemma recordAt_eq_contents {key : RowKey} (h : ∀ r, db.row key = some r → r.namespaceId = namespaceId) :
    db.recordAt key = db.contents (namespaceId, key) := by
  unfold Database.recordAt
  cases hr : db.row key with
  | none =>
    rw [Database.contents_eq_none (by simp [hr])]
    rfl
  | some r =>
    have hn : r.namespaceId = ((namespaceId, key) : Slot).1 := h r hr
    exact (Database.contents_eq_record hr hn).symm

lemma EffectOf.ends {db' : Database} {e : RowEffect} (h : EffectOf db db' e)
    (hold : e.oldRecord = db.recordAt e.key) :
    e.oldRecord = db.contents e.slot ∧ e.newRecord = db'.contents e.slot := by
  rw [hold]
  cases h with
  | deleted key r before after =>
    refine ⟨recordAt_eq_contents fun r' hr => ?_, ?_⟩
    · rw [before, Option.some.injEq] at hr
      rw [← hr]
    · exact (Database.contents_eq_none (by simp [RowEffect.slot, after])).symm
  | written key r pkInsert old after known stored same =>
    have hafter : db'.contents (r.namespaceId, key) = some (r.record key.id) :=
      Database.contents_eq_record after rfl
    exact ⟨recordAt_eq_contents same, hafter.symm⟩

lemma WriteResult.changed {key : RowKey}
    (h : WriteResult db key namespaceId p) (hk : p.1.contents k ≠ db.contents k) :
    p.2.isSome ∧ k = (namespaceId, key) := by
  cases h with
  | unaffected => exact absurd rfl hk
  | wrote r hw =>
    refine ⟨rfl, ?_⟩
    by_cases hkey : k.2 = key
    · refine Prod.ext ?_ hkey
      by_contra hne
      refine hk ?_
      rw [Database.contents_eq_none, Database.contents_eq_none]
      · intro r₀ hr₀ hn
        rw [hkey] at hr₀
        exact hne (by rw [← hn, (hw.same r₀ hr₀).1, hw.namespaceId])
      · intro r₀ hr₀ hn
        rw [hkey, Database.row_put, if_pos rfl, Option.some.injEq] at hr₀
        subst hr₀
        exact hne (by rw [← hn, hw.namespaceId])
    · exact absurd (Database.contents_congr (by rw [Database.row_put, if_neg (Ne.symm hkey)])) hk

lemma contents_deleteCascading {root : RowKey} (hne : k.2 ≠ root) (hno : ¬ db.Follows s root k) :
    (db.deleteCascading s root).contents k = db.contents k := by
  have hrow := Database.row_deleteCascading s db root k.2
  cases hr : db.row k.2 with
  | none =>
    rw [hr] at hrow
    exact Database.contents_congr (by rw [hrow, hr]; split_ifs <;> rfl)
  | some r =>
    by_cases hn : r.namespaceId = k.1
    · have hkept : ¬ db.CascadesTo s root k.2 := fun hc => hno ⟨hne, r, hr, hn, .inl hc⟩
      rw [if_neg hkept, hr, Option.map_some,
        Database.nullify_eq_self fun hnull => hno ⟨hne, r, hr, hn, .inr hnull⟩] at hrow
      exact Database.contents_congr (by rw [hrow, hr])
    · rw [Database.contents_eq_none, Database.contents_eq_none]
      · intro r' hr' hn'
        rw [hr, Option.some.injEq] at hr'
        exact hn (hr' ▸ hn')
      · intro r' hr' hn'
        rw [hrow, hr] at hr'
        split_ifs at hr'
        rw [Option.map_some, Option.some.injEq] at hr'
        rw [← hr', Database.nullify_namespaceId] at hn'
        exact hn hn'

lemma DeleteResult.changed {key : RowKey}
    (h : DeleteResult s db key namespaceId p) (hk : p.1.contents k ≠ db.contents k) :
    p.2.isSome ∧ (k = (namespaceId, key) ∨ db.Follows s key k) := by
  cases h with
  | unaffected => exact absurd rfl hk
  | deleted r hr hn =>
    refine ⟨rfl, ?_⟩
    by_cases hkey : k.2 = key
    · refine .inl (Prod.ext ?_ hkey)
      by_contra hne
      refine hk ?_
      rw [Database.contents_eq_none, Database.contents_eq_none]
      · intro r' hr' hn'
        rw [hkey, hr, Option.some.injEq] at hr'
        exact hne (by rw [← hn', ← hr', hn])
      · intro r' hr' _
        rw [hkey, Database.row_deleteCascading_self] at hr'
        cases hr'
    · by_contra hno
      rw [not_or] at hno
      exact hk (contents_deleteCascading hkey hno.2)

lemma affects_of_changed (ht : s.tableByIndex op.target.tableIndex = some t)
    (hguard : renderAndClause t op.guardPredicate = .ok guard)
    (hp : op.Performs s sqlite.enc t guard db p) (hk : p.1.contents k ≠ db.contents k) :
    op.Affects s sqlite db k := by
  rw [RowOp.affects_iff ht hguard hp]
  cases hp with
  | upsert op createdAt =>
    have hres := (Database.upsert_result _ op.columns rfl).changed hk
    exact hres.imp_right .inl
  | update op => exact ((Database.update_result _ _).changed hk).imp_right .inl
  | delete op =>
    exact (Database.delete_result.changed hk).imp_right fun h => h.imp_right fun hf => ⟨rfl, hf⟩

lemma stored_overlooked_lt (ht : s.tableByIndex op.target.tableIndex = some t)
    (hguard : renderAndClause t op.guardPredicate = .ok guard)
    (hp : op.Performs s sqlite.enc t guard ctx.db p) (h : op.Overlooks s sqlite ctx k) :
    stored (p.1.contents k) < stored (ctx.db.contents k) := by
  obtain ⟨haffects, hne, _⟩ := h
  obtain ⟨hsome, hk⟩ := (RowOp.affects_iff ht hguard hp).mp haffects
  obtain ⟨hdelete, hfollows⟩ := hk.resolve_left fun he => hne (by rw [he])
  cases hp with
  | upsert op createdAt => cases hdelete
  | update op => cases hdelete
  | delete op =>
    unfold Database.delete at hsome ⊢
    cases hr : ctx.db.row ⟨op.tableIndex, op.id⟩ with
    | none => simp [hr] at hsome
    | some r =>
      simp only [hr] at hsome ⊢
      split_ifs at hsome with hsel
      · rw [if_pos hsel]
        exact stored_deleteCascading_lt hfollows
      · cases hsome

/-- A change of the contents by one operation, as the transaction tracks it. -/
def opMove (db db' : Database) (es : List RowEffect) : Move Slot Record :=
  ⟨db.contents, db'.contents, es.map RowEffect.change⟩

/-- The move of an operation reports what the operation announces and misses what it overlooks. -/
structure MoveOf (s : Schema) (sqlite : Sqlite) (ctx : BatchCtx) (op : RowOp)
    (m : Move Slot Record) : Prop where
  reports : ∀ k, op.Announces s sqlite ctx k ↔ m.Reports k
  misses : ∀ k, op.Overlooks s sqlite ctx k ↔ m.Misses k
  declines : ∀ k, m.Misses k → stored (m.after k) < stored (m.before k)

lemma executeEntry_moveOf (hq : ctx.self.changeQueue.isSome)
    (hread : ∀ key, sqlite.error ctx.db (.select key) = none)
    (h : executeEntry s sqlite op ctx = .ok b ctx') :
    ∃ es, Tracked s ctx ctx' es ∧ (opMove ctx.db ctx'.db es).Faithful ∧
      MoveOf s sqlite ctx op (opMove ctx.db ctx'.db es) := by
  obtain ⟨es, haccounts⟩ := executeEntry_accounts h
  obtain ⟨t, guard, p, ht, hguard, hp, hdb, _⟩ := executeEntry_performs h
  have hreports : ∀ k, op.Announces s sqlite ctx k ↔ (opMove ctx.db ctx'.db es).Reports k := by
    intro k
    rw [← haccounts.announced k, opMove, Move.Reports, map_map]
    rfl
  have hmisses : ∀ k, op.Overlooks s sqlite ctx k ↔ (opMove ctx.db ctx'.db es).Misses k := by
    intro k
    rw [Move.Misses, ← hreports k]
    constructor
    · intro ho
      refine ⟨fun ha => (RowOp.not_overlooks_iff ho.1).mp ha ho, fun he => ?_⟩
      have hlt := stored_overlooked_lt ht hguard hp ho
      rw [← hdb] at hlt
      change ctx'.db.contents k = ctx.db.contents k at he
      rw [he] at hlt
      exact Nat.lt_irrefl _ hlt
    · rintro ⟨hno, hk⟩
      rw [opMove, hdb] at hk
      have haffects := affects_of_changed ht hguard hp hk
      exact not_not.mp fun ho => hno ((RowOp.not_overlooks_iff haffects).mpr ho)
  refine ⟨es, haccounts.tracked, ⟨?_, ?_⟩, hreports, hmisses, ?_⟩
  · rw [opMove, map_map]
    exact List.Nodup.of_map Prod.snd (by rw [map_map]; exact haccounts.nodup)
  · intro c hc
    obtain ⟨e, he, rfl⟩ := mem_map.mp hc
    exact (haccounts.happened e he).1.ends (haccounts.oldRecords hq hread e he)
  · intro k hm
    have hlt := stored_overlooked_lt ht hguard hp ((hmisses k).mpr hm)
    rw [← hdb] at hlt
    exact hlt

end Operation

/-- The operations that a transaction executes, each with the context that it meets. -/
def executedOps (s : Schema) (sqlite : Sqlite) (failFast : Bool) :
    ℕ → List RowOp → BatchCtx → List (BatchCtx × RowOp)
  | _, [], _ => []
  | opIdx, op :: ops, ctx =>
    (ctx, op) :: match runOps s sqlite failFast opIdx [op] ctx with
      | .ok _ ctx' => executedOps s sqlite failFast (opIdx + 1) ops ctx'
      | .error _ _ => []

variable {xs : List (BatchCtx × RowOp)} {ms : List (Move Slot Record)}

section Run

variable {s : Schema} {sqlite : Sqlite} {failFast : Bool} {opIdx : ℕ} {ops : List RowOp}
  {ctx ctx' : BatchCtx} {k : Slot}

/-- Some operation affects the document. -/
def AffectedIn (s : Schema) (sqlite : Sqlite) (k : Slot) (xs : List (BatchCtx × RowOp)) : Prop :=
  ∃ x ∈ xs, x.2.Affects s sqlite x.1.db k

/-- The document is overlooked before an operation announces it, or after the last one that does. -/
def OverlookedIn (s : Schema) (sqlite : Sqlite) (k : Slot) (xs : List (BatchCtx × RowOp)) : Prop :=
  Early (fun x => x.2.Overlooks s sqlite x.1 k) (fun x => x.2.Announces s sqlite x.1 k) xs ∨
    Late (fun x => x.2.Overlooks s sqlite x.1 k) (fun x => x.2.Announces s sqlite x.1 k) xs

/-- A transaction seen as a run of a journal, with its pending changes as the entries. -/
structure Journaled (s : Schema) (sqlite : Sqlite) (ctx ctx' : BatchCtx)
    (xs : List (BatchCtx × RowOp)) (ms : List (Move Slot Record)) : Prop where
  run : Run ctx.db.contents ctx'.db.contents ms
  moves : List.Forall₂ (fun x m => MoveOf s sqlite x.1 x.2 m) xs ms
  self : ctx'.self = ctx.self
  entries : ctx'.pendingChanges.map entry =
    (ms.flatMap Move.changes).foldl record (ctx.pendingChanges.map entry)
  classified : (∀ c ∈ ctx.pendingChanges, c.Classified) → ∀ c ∈ ctx'.pendingChanges, c.Classified

lemma Journaled.append {ctx'' : BatchCtx} {xs' : List (BatchCtx × RowOp)}
    {ms' : List (Move Slot Record)} (h : Journaled s sqlite ctx ctx' xs ms)
    (h' : Journaled s sqlite ctx' ctx'' xs' ms') : Journaled s sqlite ctx ctx'' (xs ++ xs') (ms ++ ms') where
  run := h.run.append h'.run
  moves := rel_append h.moves h'.moves
  self := h'.self.trans h.self
  entries := by rw [h'.entries, h.entries, flatMap_append, foldl_append]
  classified hc := h'.classified (h.classified hc)

lemma guardOutcome_pending {b : Bool} {u : Unit} (h : guardOutcome failFast opIdx b ctx = .ok u ctx') :
    ctx'.db = ctx.db ∧ ctx'.self = ctx.self ∧ ctx'.pendingChanges = ctx.pendingChanges := by
  obtain rfl | rfl := guardOutcome_eq_ok h
  · exact ⟨rfl, rfl, rfl⟩
  · exact ⟨rfl, rfl, rfl⟩

lemma journaled_one {op : RowOp} {u : Unit} (hq : ctx.self.changeQueue.isSome)
    (hread : ∀ db key, sqlite.error db (.select key) = none)
    (h : runOps s sqlite failFast opIdx [op] ctx = .ok u ctx') :
    ∃ m, Journaled s sqlite ctx ctx' [(ctx, op)] [m] := by
  obtain ⟨b, c, hexec, hguard⟩ := runOps_one h
  obtain ⟨es, htracked, hfaithful, hmove⟩ := executeEntry_moveOf hq (hread _) hexec
  obtain ⟨hdb, hself, hpending⟩ := guardOutcome_pending hguard
  have hchanges := htracked.changes
  rw [if_pos hq] at hchanges
  refine ⟨opMove ctx.db c.db es, ⟨?_, ?_, hself.trans htracked.self, ?_, ?_⟩⟩
  · rw [hdb]
    have hrun := Run.step .start hfaithful
    exact hrun
  · exact .cons hmove .nil
  · rw [hpending, hchanges, map_entry_accumulates, flatMap_singleton]
    rfl
  · intro hc
    rw [hpending, hchanges]
    exact classified_accumulates es hc

lemma runOps_journaled {u : Unit} (hq : ctx.self.changeQueue.isSome)
    (hread : ∀ db key, sqlite.error db (.select key) = none)
    (h : runOps s sqlite failFast opIdx ops ctx = .ok u ctx') :
    ∃ ms, Journaled s sqlite ctx ctx' (executedOps s sqlite failFast opIdx ops ctx) ms := by
  induction ops generalizing opIdx ctx with
  | nil =>
    obtain ⟨_, rfl⟩ := run_pure_eq_ok.mp h
    exact ⟨[], .start, .nil, rfl, rfl, id⟩
  | cons op ops ih =>
    obtain ⟨c, hop, hrest⟩ := runOps_cons.mp h
    obtain ⟨m, hm⟩ := journaled_one hq hread hop
    obtain ⟨ms, hms⟩ := ih (hm.self ▸ hq) hrest
    refine ⟨m :: ms, ?_⟩
    rw [executedOps, hop]
    exact hm.append hms

/-- The changes of a run: one for each document touched and present at one end, with its records at
both and an operation that says which of them are missing. -/
structure PushedExactly (before after : Slot → Option Record) (touched : Slot → Prop)
    (pushed : List OwnedRecordChange) : Prop where
  once : (pushed.map slot).Nodup
  ends : ∀ c ∈ pushed, touched c.slot ∧ c.oldRecord = before c.slot ∧ c.newRecord = after c.slot ∧
    (c.oldRecord.isSome ∨ c.newRecord.isSome)
  operations : ∀ c ∈ pushed, c.operation =
    if c.newRecord = none then .delete else if c.oldRecord = none then .insert else .update
  complete : ∀ k, touched k → (before k).isSome ∨ (after k).isSome → ∃ c ∈ pushed, c.slot = k

lemma pushedExactly_iff {before after : Slot → Option Record} {touched : Slot → Prop}
    {pushed : List OwnedRecordChange} (hc : ∀ c ∈ pushed, c.Classified) :
    PushedExactly before after touched pushed ↔
      Exact before after touched (pushed.map entry) := by
  have hnodup : Distinct eqKey (pushed.map entry) ↔
      (pushed.map slot).Nodup := by
    rw [Distinct, pairwise_map, List.Nodup, pairwise_map]
    simp only [eqKey_eq_false]
    rfl
  constructor
  · intro h
    refine ⟨hnodup.mpr h.once, fun k old new hm => ?_, fun k ht hs => ?_⟩
    · obtain ⟨c, hmem, he⟩ := mem_map.mp hm
      cases he
      exact h.ends c hmem
    · obtain ⟨c, hmem, rfl⟩ := h.complete k ht hs
      exact mem_map.mpr ⟨c.entry, mem_map_of_mem hmem, rfl⟩
  · intro h
    refine ⟨hnodup.mp h.distinct, fun c hmem => h.ends _ _ _ (mem_map_of_mem hmem), hc, fun k ht hs => ?_⟩
    obtain ⟨e, he, rfl⟩ := mem_map.mp (h.complete k ht hs)
    obtain ⟨c, hmem, rfl⟩ := mem_map.mp he
    exact ⟨c, hmem, rfl⟩

lemma affectedIn_iff (h : List.Forall₂ (fun x m => MoveOf s sqlite x.1 x.2 m) xs ms) :
    AffectedIn s sqlite k xs ↔ Touched ms k := by
  induction h with
  | nil => simp [AffectedIn, Touched]
  | cons hm hms ih =>
    rename_i x m xs ms
    have hfirst : x.2.Affects s sqlite x.1.db k ↔ m.Reports k ∨ m.Misses k := by
      rw [← hm.reports, ← hm.misses]
      unfold RowOp.Announces RowOp.Overlooks
      tauto
    have hcons : AffectedIn s sqlite k (x :: xs) ↔
        x.2.Affects s sqlite x.1.db k ∨ AffectedIn s sqlite k xs := by
      simp [AffectedIn]
    have hcons' : Touched (m :: ms) k ↔ (m.Reports k ∨ m.Misses k) ∨ Touched ms k := by
      simp [Touched]
    rw [hcons, hcons', hfirst, ih]

lemma overlookedIn_iff (h : List.Forall₂ (fun x m => MoveOf s sqlite x.1 x.2 m) xs ms) :
    OverlookedIn s sqlite k xs ↔ EarlyMiss ms k ∨ LateMiss ms k := by
  have hagree : List.Forall₂ (fun (x : BatchCtx × RowOp) m =>
      (x.2.Overlooks s sqlite x.1 k ↔ m.Misses k) ∧
        (x.2.Announces s sqlite x.1 k ↔ m.Reports k)) xs ms :=
    h.imp fun _ _ hm => ⟨hm.misses k, hm.reports k⟩
  exact or_congr (early_congr hagree) (late_congr hagree)

lemma Journaled.declines (h : Journaled s sqlite ctx ctx' xs ms) : Declines stored ms := by
  have hmoves := h.moves
  clear h
  induction hmoves with
  | nil => simp [Declines]
  | cons hm _ ih => exact forall_mem_cons.mpr ⟨hm.declines, ih⟩

lemma Journaled.exact_iff (h : Journaled s sqlite ctx ctx' xs ms) (hfresh : ctx.pendingChanges = []) :
    PushedExactly ctx.db.contents ctx'.db.contents (AffectedIn s sqlite · xs)
        (ctx'.pendingChanges.filter fun c => c.oldRecord.isSome || c.newRecord.isSome) ↔
      ∀ k, ¬ OverlookedIn s sqlite k xs := by
  have hentries := h.entries
  rw [hfresh] at hentries
  have hclassified := h.classified (by simp [hfresh])
  have hpresent : (ctx'.pendingChanges.filter fun c => c.oldRecord.isSome || c.newRecord.isSome).map
      entry = (journal ms).filter present := by
    rw [journal, ← map_nil (f := entry), ← hentries, filter_map]
    rfl
  have htouched : (AffectedIn s sqlite · xs) = Touched ms := by
    funext k
    exact propext (affectedIn_iff h.moves)
  rw [pushedExactly_iff fun c hc => hclassified c (mem_filter.mp hc).1, hpresent, htouched,
    h.run.exact_iff h.declines (by simp [stored])]
  simp only [overlookedIn_iff h.moves, not_or]

end Run

/-- What a transaction leaves to push. -/
def BatchCtx.pushed (ctx : BatchCtx) : List OwnedRecordChange :=
  ctx.pendingChanges.filter fun c => c.oldRecord.isSome || c.newRecord.isSome

namespace WriteWorker

variable {s : Schema} {sqlite : Sqlite} {failFast : Bool} {ops : List RowOp} {w : WriteWorker}
  {queue : List OwnedRecordChange} {ctx : BatchCtx}

lemma tryTransaction_journaled (hqueue : w.changeQueue = some queue)
    (hread : ∀ db key, sqlite.error db (.select key) = none)
    (h : w.tryTransaction s sqlite failFast ops = .ok () ctx) :
    ∃ ms, Journaled s sqlite w.begin ctx (executedOps s sqlite failFast 0 ops w.begin) ms := by
  have hq : w.begin.self.changeQueue.isSome := by
    rw [WriteWorker.begin, hqueue]
    rfl
  exact runOps_journaled hq hread (tryTransaction_eq_ok h)

lemma changeQueue_committed (hqueue : w.changeQueue = some queue)
    (h : w.tryTransaction s sqlite failFast ops = .ok () ctx) :
    (w.runTransaction s sqlite failFast ops).changeQueue = some (queue ++ ctx.pushed) ∧
      (w.runTransaction s sqlite failFast ops).db = ctx.db := by
  unfold runTransaction
  rw [h]
  refine ⟨?_, rfl⟩
  change w.changeQueue.map _ = _
  rw [hqueue]
  rfl

lemma changeQueue_rolledBack {e : StorageError} (h : w.tryTransaction s sqlite failFast ops = .error e ctx) :
    (w.runTransaction s sqlite failFast ops).changeQueue = w.changeQueue ∧
      (w.runTransaction s sqlite failFast ops).db = w.db := by
  unfold runTransaction
  rw [h]
  exact ⟨rfl, rfl⟩

end WriteWorker

/-- A transaction that is rolled back pushes nothing. One that commits pushes exactly the changes of
the documents that it affects, unless it overlooks a document before an operation announces it or
after the last one that does. -/
theorem pushedChanges_exact_iff (s : Schema) (sqlite : Sqlite) (failFast : Bool) (ops : List RowOp)
    {w : WriteWorker} {queue : List OwnedRecordChange} (hqueue : w.changeQueue = some queue)
    (hread : ∀ db key, sqlite.error db (.select key) = none) :
    (∀ e ctx, w.tryTransaction s sqlite failFast ops = .error e ctx →
      (w.runTransaction s sqlite failFast ops).changeQueue = some queue) ∧
    ∀ ctx, w.tryTransaction s sqlite failFast ops = .ok () ctx →
      ∃ pushed, (w.runTransaction s sqlite failFast ops).changeQueue = some (queue ++ pushed) ∧
        (PushedExactly w.db.contents (w.runTransaction s sqlite failFast ops).db.contents
            (AffectedIn s sqlite · (executedOps s sqlite failFast 0 ops w.begin)) pushed ↔
          ∀ k, ¬ OverlookedIn s sqlite k (executedOps s sqlite failFast 0 ops w.begin)) := by
  constructor
  · intro e ctx h
    rw [(WriteWorker.changeQueue_rolledBack h).1, hqueue]
  · intro ctx h
    obtain ⟨hpushed, hdb⟩ := WriteWorker.changeQueue_committed hqueue h
    obtain ⟨ms, hms⟩ := WriteWorker.tryTransaction_journaled hqueue hread h
    rw [hdb]
    exact ⟨ctx.pushed, hpushed, hms.exact_iff rfl⟩

namespace PendingChangesExample

open PkSetsExample DeleteCaptureExample

def watched : WriteWorker := { fresh with changeQueue := some [] }

def signedIn : WriteWorker :=
  (watched.step notesSchema signIn).step notesSchema (.flush accepting [writeNote])

/-- The transaction deletes the user, and with it the note, but pushes no change of the note. -/
theorem note_not_announced : ∃ queue pushed, signedIn.changeQueue = some queue ∧
    (signedIn.runTransaction notesSchema accepting false [.delete deleteUser]).changeQueue =
      some (queue ++ pushed) ∧
    ¬ PushedExactly signedIn.db.contents
      (signedIn.runTransaction notesSchema accepting false [.delete deleteUser]).db.contents
      (AffectedIn notesSchema accepting ·
        (executedOps notesSchema accepting false 0 [.delete deleteUser] signedIn.begin)) pushed := by
  refine ⟨_, _, rfl, rfl, fun h => ?_⟩
  have hfollows : signedIn.db.Follows notesSchema ⟨0, 7⟩ (0, ⟨1, 1⟩) :=
    ⟨by decide, _, rfl, rfl, Or.inl (by decide)⟩
  have haffected : AffectedIn notesSchema accepting (0, ⟨1, 1⟩)
      (executedOps notesSchema accepting false 0 [.delete deleteUser] signedIn.begin) :=
    ⟨_, List.mem_cons_self, usersTable, none, _, rfl, rfl, .delete deleteUser, rfl, Or.inr ⟨rfl, hfollows⟩⟩
  obtain ⟨c, hc, hslot⟩ := h.complete (0, ⟨1, 1⟩) haffected (Or.inl (by decide))
  revert c
  decide

/-- The user 7 is created by a client instead. -/
def created : WriteWorker :=
  watched.step notesSchema (.flush accepting [.upsert ⟨0, 7, 0, 7, [], none, 5, none⟩, writeNote])

theorem pushedChanges_exact_created :
    ∃ queue pushed, (created.runTransaction notesSchema accepting false
        [.delete deleteUser]).changeQueue = some (queue ++ pushed) ∧
      PushedExactly created.db.contents
        (created.runTransaction notesSchema accepting false [.delete deleteUser]).db.contents
        (AffectedIn notesSchema accepting ·
          (executedOps notesSchema accepting false 0 [.delete deleteUser] created.begin)) pushed := by
  have hqueue : created.changeQueue.isSome := by decide
  obtain ⟨queue, hqueue⟩ := Option.isSome_iff_exists.mp hqueue
  have h := pushedChanges_exact_iff notesSchema accepting false [.delete deleteUser] hqueue fun _ _ => rfl
  obtain ⟨pushed, hpushed, hexact⟩ := h.2 _ rfl
  refine ⟨queue, pushed, hpushed, hexact.mpr fun k hover => ?_⟩
  have hknown : created.begin.containsEffectivePk ⟨0, 7⟩ := by decide
  rcases hover with (ho | ⟨_, hf⟩) | (hf | ⟨ho, _⟩)
  · exact ho.2.2 hknown
  · cases hf
  · cases hf
  · exact ho.2.2 hknown

end PendingChangesExample
end ZyncBase
