import ZyncBase.Storage.DocumentCache
import ZyncBase.Storage.PendingChanges

/-! The cache mutations of a transaction: each document that the transaction announced is left as it
is stored, whatever the cache held, and the others are not touched. -/
namespace ZyncBase

open AssocMap Journal List Outcome RowEffect Database

def DocumentCacheKey.slot (key : DocumentCacheKey) : Slot :=
  (key.namespaceId, ⟨key.tableIndex, key.id⟩)

lemma DocumentCacheKey.slot_injective : Function.Injective DocumentCacheKey.slot := by
  rintro ⟨n, i, id⟩ ⟨n', i', id'⟩ h
  cases h
  rfl

def Database.Placed (s : Schema) (db : Database) : Prop :=
  ∀ key r t, db.row key = some r → s.tableByIndex key.tableIndex = some t →
    t.namespaced = false → r.namespaceId = globalNamespaceId

/-- Whatever the cache serves is stored. -/
def DocumentCache.Serves (c : DocumentCache) (db : Database) : Prop :=
  ∀ key r, c.get key = some r → db.contents key.slot = some r

/-- A cached document is settled by mutations that leave it as it is stored, or that do not touch it
when nothing else did. -/
structure Settled (ops : List CacheOp) (before after : Slot → Option Record)
    (key : DocumentCacheKey) : Prop where
  touched : key ∈ ops.map CacheOp.key →
    ∀ entries, find eqKey key (ops.foldl applyMutation entries) = after key.slot
  untouched : key ∉ ops.map CacheOp.key → after key.slot = before key.slot

lemma Settled.append {ops ops' : List CacheOp} {σ σ' σ'' : Slot → Option Record}
    {key : DocumentCacheKey} (h' : Settled ops' σ' σ'' key)
    (h : key ∉ ops'.map CacheOp.key → Settled ops σ σ' key) : Settled (ops ++ ops') σ σ'' key := by
  constructor
  · intro hmem entries
    rw [foldl_append]
    by_cases hmem' : key ∈ ops'.map CacheOp.key
    · exact h'.touched hmem' _
    · rw [map_append, mem_append] at hmem
      rw [find_foldl_of_not_mem hmem', (h hmem').touched (hmem.resolve_right hmem'), h'.untouched hmem']
  · intro hmem
    rw [map_append, mem_append, not_or] at hmem
    rw [h'.untouched hmem.2, (h hmem.2).untouched hmem.1]

lemma Settled.stored {ops : List CacheOp} {σ σ' : Slot → Option Record} {key : DocumentCacheKey}
    {entries : List (DocumentCacheKey × Record)} {r : Record} (h : Settled ops σ σ' key)
    (hbefore : find eqKey key entries = some r → σ key.slot = some r)
    (hr : find eqKey key (ops.foldl applyMutation entries) = some r) : σ' key.slot = some r := by
  by_cases hmem : key ∈ ops.map CacheOp.key
  · rw [← h.touched hmem entries, hr]
  · rw [find_foldl_of_not_mem hmem] at hr
    rw [h.untouched hmem]
    exact hbefore hr

section Effects

variable {s : Schema} {db db' : Database} {e : RowEffect} {es : List RowEffect} {key : DocumentCacheKey}

lemma slot_getCacheKey {t : Table} {k : RowKey} {namespaceId : ℤ} (ht : s.tableByIndex k.tableIndex = some t)
    (hplaced : t.namespaced = false → namespaceId = globalNamespaceId) :
    (getCacheKey t namespaceId k.id).slot = (namespaceId, k) := by
  have hindex := index_of_tableByIndex ht
  unfold getCacheKey DocumentCacheKey.slot
  dsimp only
  rw [hindex]
  cases hn : t.namespaced with
  | true => rfl
  | false =>
    rw [hplaced hn]
    rfl

lemma EffectOf.cacheOps (h : EffectOf db db' e) (hdb : db.Placed s) (hdb' : db'.Placed s)
    {t : Table} (ht : s.tableByIndex e.key.tableIndex = some t) :
    ∃ op, e.cacheOps s = [op] ∧ op.key.slot = e.slot ∧
      ∀ entries, find eqKey op.key (applyMutation entries op) = db'.contents e.slot := by
  cases h with
  | deleted k r before after =>
    refine ⟨.evict (getCacheKey t r.namespaceId k.id), ?_, ?_, fun entries => ?_⟩
    · simp [cacheOps, ht, cacheOp]
    · exact slot_getCacheKey ht (hdb k r t before ht)
    · rw [find_applyMutation, if_pos rfl]
      exact (contents_eq_none (by simp [slot, after])).symm
  | written k r pkInsert old after known stored same =>
    refine ⟨.update (getCacheKey t r.namespaceId k.id) (r.record k.id), ?_, ?_, fun entries => ?_⟩
    · simp [cacheOps, ht, cacheOp]
    · exact slot_getCacheKey ht (hdb' k r t after ht)
    · have hafter : db'.contents (r.namespaceId, k) = some (r.record k.id) :=
        contents_eq_record after rfl
      rw [find_applyMutation, if_pos rfl]
      exact hafter.symm

lemma mem_cacheOps_iff (h : Happened s db db' es) (hdb : db.Placed s) (hdb' : db'.Placed s) :
    key ∈ (es.flatMap (cacheOps s)).map CacheOp.key ↔ key.slot ∈ es.map slot := by
  rw [map_flatMap, mem_flatMap, mem_map]
  have hone : ∀ e ∈ es, (key ∈ (e.cacheOps s).map CacheOp.key ↔ e.slot = key.slot) := by
    intro e he
    obtain ⟨heffect, t, ht⟩ := h.happened e he
    obtain ⟨op, hops, hslot, _⟩ := heffect.cacheOps hdb hdb' ht
    rw [hops, map_singleton, mem_singleton, ← hslot, DocumentCacheKey.slot_injective.eq_iff, eq_comm]
  exact exists_congr fun e => and_congr_right fun he => hone e he

lemma settled_of_effects (h : Happened s db db' es) (hdb : db.Placed s) (hdb' : db'.Placed s)
    (hsame : key.slot ∉ es.map slot → db'.contents key.slot = db.contents key.slot) :
    Settled (es.flatMap (cacheOps s)) db.contents db'.contents key := by
  constructor
  · intro hmem entries
    obtain ⟨e, he, hslot⟩ := mem_map.mp ((mem_cacheOps_iff h hdb hdb').mp hmem)
    obtain ⟨as, bs, rfl⟩ := append_of_mem he
    obtain ⟨heffect, t, ht⟩ := h.happened e he
    obtain ⟨op, hops, hkey, hsettles⟩ := heffect.cacheOps hdb hdb' ht
    have hop : op.key = key := DocumentCacheKey.slot_injective (hkey.trans hslot)
    have hnodup := h.nodup
    rw [map_append, map_cons, nodup_append, nodup_cons] at hnodup
    have hbs : key ∉ (bs.flatMap (cacheOps s)).map CacheOp.key := by
      have hrest : Happened s db db' bs :=
        ⟨hnodup.2.1.2, fun e he => h.happened e (by simp [he])⟩
      rw [mem_cacheOps_iff hrest hdb hdb', ← hslot]
      intro hmem
      obtain ⟨e', he', hsame'⟩ := mem_map.mp hmem
      exact hnodup.2.1.1 (mem_map.mpr ⟨e', he', congrArg Prod.snd hsame'⟩)
    rw [flatMap_append, flatMap_cons, hops, foldl_append, foldl_append,
      find_foldl_of_not_mem hbs, foldl_cons, foldl_nil, ← hop, hsettles, hop, hslot]
  · exact fun hmem => hsame fun hslot => hmem ((mem_cacheOps_iff h hdb hdb').mpr hslot)

end Effects

section Run

variable {s : Schema} {sqlite : Sqlite} {failFast : Bool} {opIdx : ℕ} {ops : List RowOp}
  {ctx ctx' : BatchCtx} {op : RowOp} {b : Bool} {key : DocumentCacheKey} {db : Database}

namespace Database.Placed

lemma put {k : RowKey} {r : Row} {t : Table} (h : db.Placed s) (ht : s.tableByIndex k.tableIndex = some t)
    (hr : t.namespaced = false → r.namespaceId = globalNamespaceId) : (db.put k r).Placed s := by
  intro k' r' t' hr' ht' hn
  rw [row_put] at hr'
  split_ifs at hr' with hk
  · cases hr'
    subst hk
    rw [ht, Option.some.injEq] at ht'
    exact hr (ht' ▸ hn)
  · exact h k' r' t' hr' ht' hn

lemma deleteCascading (h : db.Placed s) (root : RowKey) : (db.deleteCascading s root).Placed s := by
  intro k r t hr ht hn
  rw [row_deleteCascading] at hr
  split_ifs at hr
  obtain ⟨r₀, hr₀, rfl⟩ := Option.map_eq_some_iff.mp hr
  rw [nullify_namespaceId]
  exact h k r₀ t hr₀ ht hn

lemma write {t : Table} {namespaceId : ℤ} {p : Database × Option Record} (h : db.Placed s)
    {k : RowKey} (ht : s.tableByIndex k.tableIndex = some t)
    (hn : t.namespaced = false → namespaceId = globalNamespaceId)
    (hp : WriteResult db k namespaceId p) : p.1.Placed s := by
  cases hp with
  | unaffected => exact h
  | wrote r hw => exact h.put ht fun hglobal => hw.namespaceId.trans (hn hglobal)

lemma executeEntry (h : ctx.db.Placed s) (he : executeEntry s sqlite op ctx = .ok b ctx') :
    ctx'.db.Placed s := by
  obtain ⟨t, guard, p, ht, _, hp, hdb, _⟩ := executeEntry_performs he
  rw [hdb]
  cases hp with
  | upsert op createdAt =>
    refine h.write ht (fun hn => ?_) (upsert_result _ _ rfl)
    simp [newRow, RowOp.storedNamespace, hn]
  | update op =>
    refine h.write ht (fun hn => ?_) (update_result _ _)
    simp [RowOp.storedNamespace, hn]
  | delete op =>
    unfold delete
    cases hr : ctx.db.row ⟨op.tableIndex, op.id⟩ with
    | none => exact h
    | some r =>
      dsimp only
      split_ifs
      · exact h.deleteCascading _
      · exact h

end Database.Placed

lemma executeEntry_settled (h : ctx.db.Placed s) (he : executeEntry s sqlite op ctx = .ok b ctx') :
    ∃ cs, ctx'.pendingCacheOps = ctx.pendingCacheOps ++ cs ∧ ∀ key : DocumentCacheKey,
      (op.Announces s sqlite ctx key.slot ↔ key ∈ cs.map CacheOp.key) ∧
        (¬ op.Overlooks s sqlite ctx key.slot → Settled cs ctx.db.contents ctx'.db.contents key) := by
  obtain ⟨es, haccounts⟩ := executeEntry_accounts he
  obtain ⟨t, guard, p, ht, hguard, hp, hdb, _⟩ := executeEntry_performs he
  have hplaced := h.executeEntry he
  refine ⟨_, haccounts.tracked.cache, fun key => ⟨?_, fun hno => ?_⟩⟩
  · rw [← haccounts.announced, mem_cacheOps_iff haccounts.toHappened h hplaced]
  · refine settled_of_effects haccounts.toHappened h hplaced fun hmem => ?_
    by_contra hne
    rw [hdb] at hne
    have haffects := affects_of_changed ht hguard hp hne
    exact hmem ((haccounts.announced key.slot).mpr ((RowOp.not_overlooks_iff haffects).mpr hno))

lemma guardOutcome_cache {u : Unit} (h : guardOutcome failFast opIdx b ctx = .ok u ctx') :
    ctx'.db = ctx.db ∧ ctx'.pendingCacheOps = ctx.pendingCacheOps := by
  obtain rfl | rfl := guardOutcome_eq_ok h
  · exact ⟨rfl, rfl⟩
  · exact ⟨rfl, rfl⟩

/-- The document is overlooked by an operation after the last one that announces it. -/
def OverlookedLast (s : Schema) (sqlite : Sqlite) (k : Slot) (xs : List (BatchCtx × RowOp)) : Prop :=
  Late (fun x => x.2.Overlooks s sqlite x.1 k) (fun x => x.2.Announces s sqlite x.1 k) xs

lemma runOps_settled {u : Unit} (hctx : ctx.db.Placed s)
    (h : runOps s sqlite failFast opIdx ops ctx = .ok u ctx') :
    ctx'.db.Placed s ∧ ∃ cs, ctx'.pendingCacheOps = ctx.pendingCacheOps ++ cs ∧ ∀ key : DocumentCacheKey,
        ((∃ x ∈ executedOps s sqlite failFast opIdx ops ctx,
          x.2.Announces s sqlite x.1 key.slot) ↔ key ∈ cs.map CacheOp.key) ∧
        (¬ OverlookedLast s sqlite key.slot (executedOps s sqlite failFast opIdx ops ctx) →
          Settled cs ctx.db.contents ctx'.db.contents key) := by
  induction ops generalizing opIdx ctx with
  | nil =>
    obtain ⟨_, rfl⟩ := run_pure_eq_ok.mp h
    refine ⟨hctx, [], by simp, fun key => ⟨by simp [executedOps], fun _ => ⟨?_, fun _ => rfl⟩⟩⟩
    exact fun hmem => absurd hmem not_mem_nil
  | cons op ops ih =>
    obtain ⟨c, hop, hrest⟩ := runOps_cons.mp h
    obtain ⟨b, c₁, hexec, hguard⟩ := runOps_one hop
    obtain ⟨hdb, hcache⟩ := guardOutcome_cache hguard
    obtain ⟨cs, hcs, hfirst⟩ := executeEntry_settled hctx hexec
    have hplaced := hctx.executeEntry hexec
    rw [← hdb] at hplaced hfirst
    obtain ⟨hplaced', cs', hcs', hlater⟩ := ih hplaced hrest
    refine ⟨hplaced', cs ++ cs', ?_, fun key => ⟨?_, fun hno => ?_⟩⟩
    · rw [hcs', hcache, hcs, append_assoc]
    · rw [executedOps, hop, map_append, mem_append, ← (hfirst key).1, ← (hlater key).1]
      simp
    · rw [executedOps, hop, OverlookedLast, Late, not_or] at hno
      refine ((hlater key).2 hno.1).append fun hmem => (hfirst key).2 fun ho => hno.2 ⟨ho, ?_⟩
      intro x hx ha
      exact hmem ((hlater key).1.mp ⟨x, hx, ha⟩)

end Run
end ZyncBase
