import ZyncBase.Storage.Effects
import ZyncBase.Storage.SessionResolution

/-! The primary key sets follow the stored rows: inside a transaction by its mutations, after it by
their application, as long as no session resolution inserts a users row. -/
namespace ZyncBase

open AssocMap Database List Outcome PkMutation WriteWorker RowEffect

namespace PkMutation

/-- What a mutation makes of the presence of a key. -/
def present (key : RowKey) (before : Bool) (m : PkMutation) : Bool :=
  if m.key = key then decide (m.operation = .insert) else before

lemma mem_applyPkMutation (key : RowKey) (pkSets : List RowKey) (m : PkMutation) :
    decide (key ∈ applyPkMutation pkSets m) = present key (decide (key ∈ pkSets)) m := by
  unfold applyPkMutation present
  cases hm : m.operation with
  | insert =>
    by_cases hk : m.key = key
    · subst hk
      by_cases hmem : m.key ∈ pkSets <;> simp [hmem]
    · by_cases hmem : m.key ∈ pkSets <;> simp [hmem, hk, Ne.symm hk]
  | delete =>
    by_cases hk : m.key = key
    · simp [hk]
    · simp [hk, Ne.symm hk]

lemma mem_foldl_applyPkMutation (key : RowKey) (ms : List PkMutation) (pkSets : List RowKey) :
    decide (key ∈ ms.foldl applyPkMutation pkSets) = ms.foldl (present key) (decide (key ∈ pkSets)) := by
  induction ms generalizing pkSets with
  | nil => rfl
  | cons m ms ih => rw [foldl_cons, foldl_cons, ih, mem_applyPkMutation]

end PkMutation

lemma BatchCtx.containsEffectivePk_eq (ctx : BatchCtx) (key : RowKey) : ctx.containsEffectivePk key =
    ctx.pkMutations.foldl (present key) (decide (key ∈ ctx.self.pkSets)) := by
  unfold BatchCtx.containsEffectivePk
  induction ctx.pkMutations using List.reverseRecOn with
  | nil => rfl
  | append_singleton ms m ih =>
    rw [reverse_append, foldl_concat, ← ih, present]
    by_cases hk : m.key = key <;> simp [hk]

section Effects

variable {s : Schema} {db db' : Database} {ctx ctx' : BatchCtx}

lemma present_of_other {key : RowKey} {e : RowEffect} (h : e.key ≠ key) (before : Bool) :
    e.pkMutations.foldl (present key) before = before := by
  unfold pkMutations
  split_ifs <;> simp [present, h]

lemma present_of_others {key : RowKey} {es : List RowEffect} (h : key ∉ es.map RowEffect.key) (before : Bool) :
    (es.flatMap RowEffect.pkMutations).foldl (present key) before = before := by
  induction es generalizing before with
  | nil => rfl
  | cons e es ih =>
    rw [map_cons, mem_cons, not_or] at h
    rw [flatMap_cons, foldl_append, present_of_other (Ne.symm h.1), ih h.2]

lemma present_of_effect {e : RowEffect} (h : EffectOf db db' e) (before : Bool)
    (hb : before = (db.row e.key).isSome) :
    e.pkMutations.foldl (present e.key) before = (db'.row e.key).isSome := by
  cases h with
  | deleted key r hr hafter => simp [pkMutations, present, hafter]
  | written key r pkInsert old hafter hknown hstored hsame =>
    subst hb
    dsimp only at hknown ⊢
    rw [hafter]
    cases pkInsert with
    | false => simpa [pkMutations] using hstored rfl
    | true =>
      cases old with
      | none => simp [pkMutations, present]
      | some o =>
        obtain ⟨r₀, hr₀, _⟩ := Option.map_eq_some_iff.mp (hknown o rfl)
        simp [pkMutations, hr₀]

lemma present_of_effects {es : List RowEffect} (h : Explains s db db' es) (key : RowKey) :
    (es.flatMap pkMutations).foldl (present key) (db.row key).isSome =
      (db'.row key).isSome := by
  by_cases hk : key ∈ es.map RowEffect.key
  · obtain ⟨e, he, rfl⟩ := mem_map.mp hk
    obtain ⟨as, bs, rfl⟩ := append_of_mem he
    have hn := h.nodup
    rw [map_append, map_cons, nodup_middle, nodup_cons, mem_append, not_or] at hn
    rw [flatMap_append, flatMap_cons, foldl_append, foldl_append,
      present_of_others hn.1.1, present_of_others hn.1.2]
    exact present_of_effect (h.happened e he).1 _ rfl
  · rw [present_of_others hk, h.untouched key hk]

/-- Inside a transaction: every row is known, and nothing else is. -/
def BatchCtx.PkExact (ctx : BatchCtx) : Prop :=
  ∀ key, ctx.containsEffectivePk key = (ctx.db.row key).isSome

lemma BatchCtx.PkExact.traced (h : ctx.PkExact) (op : RowOp) : op.Traced s ctx := by
  cases op with
  | upsert op => trivial
  | update op => trivial
  | delete op =>
    intro _ hrow
    rw [h]
    exact hrow

lemma BatchCtx.PkExact.executeEntry {sqlite : Sqlite} {op : RowOp} {b : Bool} (h : ctx.PkExact)
    (he : executeEntry s sqlite op ctx = .ok b ctx') : ctx'.PkExact := by
  obtain ⟨es, haccounts⟩ := executeEntry_accounts he
  intro key
  have hk := h key
  rw [containsEffectivePk_eq] at hk
  rw [containsEffectivePk_eq, haccounts.tracked.pk, haccounts.tracked.self, foldl_append, hk,
    present_of_effects (haccounts.explains (h.traced op))]

end Effects

namespace WriteWorker

variable {s : Schema} {sqlite : Sqlite} {w : WriteWorker}

/-- The sets hold exactly the ids of the stored rows. -/
def PkExact (w : WriteWorker) : Prop := ∀ key, key ∈ w.pkSets ↔ (w.db.row key).isSome

def documentExists (s : Schema) (w : WriteWorker) (tableIndex : ℕ) (id : DocId) : Bool :=
  if s.tables.length ≤ tableIndex then false else decide ((⟨tableIndex, id⟩ : RowKey) ∈ w.pkSets)

lemma PkExact.begin (h : w.PkExact) : w.begin.PkExact := by
  intro key
  rw [BatchCtx.containsEffectivePk_eq]
  simp [WriteWorker.begin, h key]

lemma PkExact.runOps {failFast : Bool} {opIdx : ℕ} {ops : List RowOp} {ctx : BatchCtx} {u : Unit}
    (h : w.PkExact) (hr : ZyncBase.runOps s sqlite failFast opIdx ops w.begin = .ok u ctx) :
    ctx.PkExact ∧ ctx.self = w := by
  refine runOps_induct (I := fun c => c.PkExact ∧ c.self = w) ?_ ?_ hr ⟨h.begin, rfl⟩
  · rintro op _ c b c' ⟨hc, hself⟩ he
    obtain ⟨es, haccounts⟩ := executeEntry_accounts he
    exact ⟨hc.executeEntry he, haccounts.tracked.self.trans hself⟩
  · exact fun _ _ hc => hc

lemma PkExact.runTransaction {failFast : Bool} {ops : List RowOp} (h : w.PkExact) :
    (w.runTransaction s sqlite failFast ops).PkExact := by
  unfold WriteWorker.runTransaction
  cases ht : w.tryTransaction s sqlite failFast ops with
  | error e ctx => exact h
  | ok u ctx =>
    obtain ⟨hexact, hself⟩ := h.runOps (tryTransaction_eq_ok ht)
    intro key
    have hk := hexact key
    rw [BatchCtx.containsEffectivePk_eq, hself, ← mem_foldl_applyPkMutation] at hk
    change key ∈ ctx.pkMutations.foldl applyPkMutation w.pkSets ↔ (ctx.db.row key).isSome
    rw [← hk, decide_eq_true_eq]

lemma PkExact.resolveSession {sop : ResolveSessionOp} {newUserId : DocId} (h : w.PkExact)
    (hn : ¬ (WorkerStep.resolveSession sqlite newUserId sop).InsertsUser s w) :
    (w.executeResolveSessionOp s sqlite sop newUserId).PkExact := by
  intro key
  rw [(executeResolveSessionOp_cases s sqlite sop newUserId w).1.pkSets, db_resolveSession hn]
  exact h key

lemma PkExact.step {st : WorkerStep} (h : w.PkExact) (hn : ¬ st.InsertsUser s w) : (w.step s st).PkExact := by
  cases st with
  | flush sqlite ops => exact h.runTransaction
  | batch sqlite entries => exact h.runTransaction
  | resolveSession sqlite newUserId sop => exact h.resolveSession hn

lemma pkExact_of_bootstrap {changeQueue : Option (List OwnedRecordChange)} {db : Database}
    {namespaces : List (Bytes × ℤ)}
    (h : bootstrapRuntimeTableState s changeQueue db namespaces = .ok w) : w.PkExact := by
  unfold bootstrapRuntimeTableState at h
  split_ifs at h
  cases h
  intro key
  change key ∈ db.rows.map Prod.fst ↔ (db.row key).isSome
  rw [mem_map, Option.isSome_iff_exists]
  constructor
  · rintro ⟨⟨k, r⟩, hm, rfl⟩
    exact ⟨r, mem_rows.mp hm⟩
  · rintro ⟨r, hr⟩
    exact ⟨(key, r), mem_rows.mpr hr, rfl⟩

lemma documentExists_iff (h : w.PkExact) {tableIndex : ℕ} {id : DocId} {t : Table}
    (ht : s.tableByIndex tableIndex = some t) :
    w.documentExists s tableIndex id ↔ (w.db.row ⟨tableIndex, id⟩).isSome := by
  have hlt : ¬ s.tables.length ≤ tableIndex := by
    rw [Nat.not_le]
    exact (List.getElem?_eq_some_iff.mp ht).1
  rw [documentExists, if_neg hlt, decide_eq_true_eq, h]

end WriteWorker

/-- In every run from startup in which no session resolution inserts a users row, the primary key
sets are the stored ids, and so `documentExists` and, inside every transaction,
`containsEffectivePk` answer whether the row exists. -/
theorem pkSets_exact {s : Schema} {changeQueue : Option (List OwnedRecordChange)} {db : Database}
    {namespaces : List (Bytes × ℤ)} {w₀ w : WriteWorker}
    (hboot : bootstrapRuntimeTableState s changeQueue db namespaces = .ok w₀)
    (hrun : Reaches s (fun w st => ¬ st.InsertsUser s w) w₀ w) :
    (∀ key, key ∈ w.pkSets ↔ (w.db.row key).isSome) ∧
      (∀ i id t, s.tableByIndex i = some t →
        (w.documentExists s i id ↔ (w.db.row ⟨i, id⟩).isSome)) ∧
      ∀ sqlite failFast ops ctx, runOps s sqlite failFast 0 ops w.begin = .ok () ctx →
        ∀ key, ctx.containsEffectivePk key = (ctx.db.row key).isSome := by
  have hexact : w.PkExact := hrun.invariant (pkExact_of_bootstrap hboot)
    fun w st hw hn => hw.step hn
  refine ⟨hexact, fun i id t ht => documentExists_iff hexact ht, ?_⟩
  intro sqlite failFast ops ctx hops
  exact (hexact.runOps hops).1

namespace PkSetsExample

def usersTable : Table where
  name := "users"
  userFields := []
  namespaced := false
  fields_wellFormed := no_fields_wellFormed
  names_nodup := system_names_nodup

def usersSchema : Schema := soloSchema usersTable rfl fun _ hf => absurd hf List.not_mem_nil

def accepting : Sqlite := ⟨⟨fun _ => [], fun _ => [], id⟩, fun _ _ => none⟩

/-- An empty database, whose only namespace is the global one. -/
def fresh : WriteWorker where
  namespaces := [([36], 0)]

lemma bootstrap_fresh :
    bootstrapRuntimeTableState usersSchema none {} [([36], 0)] = .ok fresh := rfl

def signIn : WorkerStep := .resolveSession accepting 7 ⟨[112], [97], 5⟩

/-- The users row that a session resolution inserts is stored, but missing in the sets. -/
theorem resolved_user_unknown :
    bootstrapRuntimeTableState usersSchema none {} [([36], 0)] = .ok fresh ∧
      ((fresh.step usersSchema signIn).db.row ⟨0, 7⟩).isSome ∧
      (⟨0, 7⟩ : RowKey) ∉ (fresh.step usersSchema signIn).pkSets ∧
      (fresh.step usersSchema signIn).documentExists usersSchema 0 7 = false :=
  ⟨rfl, by decide, by decide, by decide⟩

def createUser : WorkerStep := .flush accepting [.upsert ⟨0, 9, 0, 9, [], none, 5, none⟩]

def createUsers : WorkerStep :=
  .flush accepting [.upsert ⟨0, 9, 0, 9, [], none, 5, none⟩, .upsert ⟨0, 11, 0, 11, [], none, 6, none⟩]

/-- The user 9 of the first step signs in. -/
def signBackIn : WorkerStep := .resolveSession accepting 8 ⟨[112], hexSlice 9, 7⟩

def removeUser : WorkerStep := .flush accepting [.delete ⟨0, 11, 0, none, none⟩]

def settle (w : WriteWorker) : WriteWorker :=
  [createUsers, signBackIn, removeUser].foldl (step usersSchema) w

lemma signBackIn_inserts_none {w : WriteWorker}
    (h : ((w.step usersSchema createUsers).db.userRow 0 0 (hexSlice 9)).isSome) :
    ¬ signBackIn.InsertsUser usersSchema (w.step usersSchema createUsers) := by
  rintro ⟨_, _, _, -, ht, hinserts⟩
  cases ht
  have hunknown : (w.step usersSchema createUsers).db.userRow 0 0 (hexSlice 9) = none := hinserts.unknown
  rw [hunknown] at h
  cases h

theorem pkSets_exact_settle :
    (∀ key, key ∈ (settle fresh).pkSets ↔ ((settle fresh).db.row key).isSome) ∧
      (∀ i id t, usersSchema.tableByIndex i = some t →
        ((settle fresh).documentExists usersSchema i id ↔ ((settle fresh).db.row ⟨i, id⟩).isSome)) ∧
      ∀ sqlite failFast ops ctx,
        runOps usersSchema sqlite failFast 0 ops (settle fresh).begin = .ok () ctx →
        ∀ key, ctx.containsEffectivePk key = (ctx.db.row key).isSome :=
  pkSets_exact bootstrap_fresh (((Relation.ReflTransGen.single ⟨createUsers, nofun, rfl⟩).tail
    ⟨signBackIn, signBackIn_inserts_none (by decide), rfl⟩).tail ⟨removeUser, nofun, rfl⟩)

end PkSetsExample
end ZyncBase
