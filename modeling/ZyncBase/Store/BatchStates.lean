import ZyncBase.Storage.Acknowledged
import ZyncBase.Store.Writes

/-! The document states that a batch keeps track of, against the rows that its entries leave: sets
are taken for creates or updates before any entry is executed. -/
namespace ZyncBase

open AssocMap Database Guarded Outcome List Option

/-- The rows after the entries of a batch, unless one of them fails or is rejected. -/
def WriteWorker.executed (s : Schema) (sqlite : Sqlite) (w : WriteWorker) (entries : List RowOp) :
    Option Database :=
  match runOps s sqlite true 0 entries w.begin with
  | .ok _ ctx => some ctx.db
  | .error _ _ => none

namespace RowOp

def creates : RowOp → Bool
  | upsert _ => true
  | _ => false

/-- The operation deletes the row of this key: it is a delete whose own row is stored in its
namespace, and the delete of that row cascades to this one. -/
def Removes (s : Schema) (db : Database) (op : RowOp) (key : RowKey) : Prop :=
  op.isDelete = true ∧ ((s.tableByIndex op.target.tableIndex).any fun t =>
    (db.select op.target (op.storedNamespace t)).isSome) = true ∧ db.CascadesTo s op.target key

instance (s : Schema) (db : Database) (op : RowOp) (key : RowKey) : Decidable (op.Removes s db key) :=
  inferInstanceAs (Decidable (_ ∧ _ ∧ _))

variable {s : Schema} {sqlite : Sqlite} {enc : Encodings} {t : Table} {guard : Option SqlWhere}
  {db : Database} {op : RowOp} {p : Database × Option Record}

lemma not_removes (h : op.isDelete = false) (key : RowKey) : ¬ op.Removes s db key := by
  intro hr
  rw [hr.1] at h
  cases h

lemma not_creates (h : op.isDelete = true) : op.creates = false := by
  cases op with
  | upsert op => cases h
  | update op => rfl
  | delete op => rfl

lemma removes_iff (hd : op.isDelete = true) (ht : s.tableByIndex op.target.tableIndex = some t)
    (key : RowKey) : op.Removes s db key ↔
      (db.select op.target (op.storedNamespace t)).isSome ∧ db.CascadesTo s op.target key := by
  unfold Removes
  rw [ht, any_some]
  exact and_iff_right hd

/-- The rows that are stored after an accepted operation: those that were, unless it removes them,
and the one that it creates. -/
lemma Performs.present (h : op.Performs s enc t guard db p) (ht : s.tableByIndex op.target.tableIndex = some t)
    (hguard : renderAndClause t op.guardPredicate = .ok guard)
    (haccepted : p.2.isSome || op.passesWithoutRow db t) (key : RowKey) :
    (p.1.row key).isSome ↔ ¬ op.Removes s db key ∧
      ((db.row key).isSome ∨ op.creates = true ∧ op.target = key) := by
  cases h with
  | upsert op createdAt =>
    have hown : (RowOp.upsert op).creates = true ∧ (RowOp.upsert op).target = key ↔
      (⟨op.tableIndex, op.id⟩ : RowKey) = key := and_iff_right rfl
    rw [and_iff_right (not_removes rfl key), hown]
    rcases upsert_spec db (guardSelects enc t guard) ⟨op.tableIndex, op.id⟩ (newRow t
      ((RowOp.upsert op).storedNamespace t) (if t.isUsersTable then op.id else op.ownerDocId)
      (if t.isUsersTable then some (hexSlice op.id) else none) op.columns createdAt) op.columns with
      ⟨r, he, _, _⟩ | ⟨he, r, hr, _⟩
    · rw [he, row_put]
      split_ifs with hk
      · exact iff_of_true rfl (.inr hk)
      · exact (or_iff_left hk).symm
    · rw [he]
      refine ⟨.inl, fun hor => hor.elim id fun hk => ?_⟩
      rw [← hk, hr]
      rfl
  | update op =>
    have hno : ¬ ((RowOp.update op).creates = true ∧ (RowOp.update op).target = key) :=
      fun h => nomatch h.1
    rw [and_iff_right (not_removes rfl key), or_iff_left hno]
    rcases update_spec db (guardSelects enc t guard) ⟨op.tableIndex, op.id⟩
      ((RowOp.update op).storedNamespace t) op.columns op.timestamp with
      ⟨r, hr, _, he⟩ | ⟨he, _⟩
    · rw [he, row_put]
      split_ifs with hk
      · rw [← hk, hr]
        rfl
      · exact Iff.rfl
    · rw [he]
  | delete op =>
    have hno : ¬ ((RowOp.delete op).creates = true ∧ (RowOp.delete op).target = key) :=
      fun h => nomatch h.1
    rw [or_iff_left hno, removes_iff rfl ht]
    rcases delete_spec db (guardSelects enc t guard) s ⟨op.tableIndex, op.id⟩
      ((RowOp.delete op).storedNamespace t) with ⟨r, hr, hn, he⟩ | ⟨he, _⟩
    · have hown : (db.select (RowOp.delete op).target
          ((RowOp.delete op).storedNamespace t)).isSome := by
        rw [isSome_iff_exists]
        exact ⟨_, select_eq_some.mpr ⟨r, hr, hn, rfl⟩⟩
      rw [he, row_deleteCascading, and_iff_right hown]
      by_cases hc : db.CascadesTo s ⟨op.tableIndex, op.id⟩ key
      · rw [if_pos hc]
        exact iff_of_false nofun fun h => h.1 hc
      · rw [if_neg hc, isSome_map]
        exact (and_iff_right hc).symm
    · have habsent := Performs.absent (.delete op) hguard haccepted (by rw [he]) nofun
      rw [he, habsent]
      exact (and_iff_right fun h => nomatch h.1).symm

end RowOp

section Execution

variable {s : Schema} {sqlite : Sqlite} {w : WriteWorker} {pre : List RowOp} {op : RowOp} {db' : Database}

lemma executed_concat (h : w.executed s sqlite (pre ++ [op]) = some db') :
    ∃ db, w.executed s sqlite pre = some db ∧ ∀ key, (db'.row key).isNone ↔
      op.Removes s db key ∨ (db.row key).isNone ∧ ¬ (op.creates = true ∧ op.target = key) := by
  unfold WriteWorker.executed at h
  cases hr : runOps s sqlite true 0 (pre ++ [op]) w.begin with
  | error e ctx' =>
    rw [hr] at h
    cases h
  | ok u ctx' =>
    rw [hr] at h
    cases h
    obtain ⟨ctx, ctx₁, b, hpre, hop, hguard⟩ := runOps_concat.mp hr
    obtain ⟨t, guard, p, ht, hrender, hp, hdb, hb⟩ := executeEntry_performs (executeOp_eq_ok hop)
    cases b with
    | false => cases hguard
    | true =>
      refine ⟨ctx.db, by rw [WriteWorker.executed, hpre], fun key => ?_⟩
      have hpresent := hp.present ht hrender hb.symm key
      rw [guardOutcome_db hguard, hdb, ← not_isSome, Bool.not_eq_true', ← Bool.not_eq_true,
        hpresent, ← not_isSome, Bool.not_eq_true', ← Bool.not_eq_true]
      tauto

end Execution

namespace StoreService

/-- What a set of the document is taken for after these entries, the most recent first: the last
entry on the document decides. -/
def takenForAbsent (documentExists : RowKey → Bool) (key : RowKey) : List RowOp → Bool
  | [] => !documentExists key
  | op :: earlier =>
    if op.target = key then op.isDelete else takenForAbsent documentExists key earlier

def IsSet (service : StoreService) (entry : Payload) (path : StorePath) (value : Payload) : Prop :=
  ∃ pathPayload rest, entry = .arr (.str [115] :: pathPayload :: value :: rest) ∧
    service.parseStorePath pathPayload = .ok path

/-- The operation comes of a set that was checked and authorized as a create, or as an update. -/
def TreatedAs (service : StoreService) (ctx : WriteContext) (timestamp : ℤ) (path : StorePath)
    (value : Payload) (isCreate : Bool) (op : RowOp) : Prop :=
  ∃ columns guardPredicate, service.checkSet ctx.request path value isCreate = .ok (columns, guardPredicate) ∧
      op = setOp ctx.request path columns guardPredicate timestamp none isCreate

section Classification

variable (service : StoreService) (sqlite : Sqlite) (w : WriteWorker) (ctx : WriteContext) (timestamp : ℤ)

def ClassifiedAt (ops : List Payload) (entries : List RowOp) (k : ℕ) : Prop :=
  ∀ entry path value db, ops[k]? = some entry → service.IsSet entry path value →
    w.executed service.schema sqlite (entries.take k) = some db → ∃ op, entries[k]? = some op ∧
        service.TreatedAs ctx timestamp path value (db.row path.key).isNone op

def ClassifiedByExecution (ops : List Payload) (entries : List RowOp) : Prop :=
  ∀ k, service.ClassifiedAt sqlite w ctx timestamp ops entries k

/-- The batch knows whether the document is stored after these entries, the most recent first. At
the start the primary key sets are right about it. A remove of it finds it in its namespace, or it
is not stored at all. A remove of another document cascades to it only when it is taken for absent
already. -/
def Foreseen (key : RowKey) : List RowOp → Prop
  | [] => w.documentExists service.schema key.tableIndex key.id = (w.db.row key).isSome
  | op :: earlier => ∀ db, w.executed service.schema sqlite earlier.reverse = some db →
    if op.target = key then
      op.isDelete = true → (db.row key).isSome → op.Removes service.schema db key
    else if op.Removes service.schema db key then
      takenForAbsent (fun key => w.documentExists service.schema key.tableIndex key.id) key earlier = true
    else Foreseen key earlier

end Classification

section Entries

variable {service : StoreService} {documentExists : RowKey → Bool} {ctx : WriteContext}
  {timestamp : ℤ} {entry value : Payload} {path : StorePath} {op : RowOp} {isCreate : Bool}

lemma TreatedAs.creates (h : service.TreatedAs ctx timestamp path value isCreate op) :
    op.creates = isCreate := by
  obtain ⟨columns, guardPredicate, _, rfl⟩ := h
  cases isCreate with
  | false => rfl
  | true => rfl

lemma TreatedAs.target (h : service.TreatedAs ctx timestamp path value isCreate op) : op.target = path.key := by
  obtain ⟨columns, guardPredicate, _, rfl⟩ := h
  cases isCreate with
  | false => rfl
  | true => rfl

lemma TreatedAs.isDelete (h : service.TreatedAs ctx timestamp path value isCreate op) :
    op.isDelete = false := by
  obtain ⟨columns, guardPredicate, _, rfl⟩ := h
  cases isCreate with
  | false => rfl
  | true => rfl

lemma IsSet.unique {path' : StorePath} {value' : Payload} (h : service.IsSet entry path value)
    (h' : service.IsSet entry path' value') : path = path' ∧ value = value' := by
  obtain ⟨pathPayload, rest, rfl, hparse⟩ := h
  obtain ⟨pathPayload', rest', he, hparse'⟩ := h'
  cases he
  rw [hparse, Except.ok.injEq] at hparse'
  exact ⟨hparse', rfl⟩

/-- What an entry is turned into, with the document states after it. -/
inductive Built (service : StoreService) (documentExists : RowKey → Bool) (ctx : WriteContext)
    (timestamp : ℤ) (entry : Payload) (docStates : BatchDocStates) :
    RowOp × BatchDocStates → Prop where
  | set (path : StorePath) (value : Payload) (op : RowOp) (hset : service.IsSet entry path value)
    (htreated : service.TreatedAs ctx timestamp path value
      (isCreateInBatch documentExists docStates path.key) op) :
    Built service documentExists ctx timestamp entry docStates (op, put eqKey path.key .exists_ docStates)
  | remove (path : StorePath) (guardPredicate : Option FilterPredicate)
    (hset : ∀ path value, ¬ service.IsSet entry path value) :
    Built service documentExists ctx timestamp entry docStates
      (removeOp ctx.request path guardPredicate none, put eqKey path.key .deleted docStates)

lemma built_of_buildBatchEntry {docStates : BatchDocStates} {res : RowOp × BatchDocStates}
    (h : service.buildBatchEntry documentExists ctx timestamp entry docStates = .ok res) :
    Built service documentExists ctx timestamp entry docStates res := by
  unfold buildBatchEntry at h
  cases entry with
  | arr tuple =>
    simp only [matchesType, Payload.arrItems, ok_bind, Bool.not_true, Bool.false_eq_true, if_false] at h
    cases tuple with
    | nil => cases h
    | cons head rest =>
      cases rest with
      | nil => cases h
      | cons pathPayload rest =>
        rw [if_neg (by simp)] at h
        cases head with
        | str kind =>
          simp only [elementAt, getElem?_cons_zero, ok_bind, Bool.not_true,
            Bool.false_eq_true, if_false, Payload.strBytes] at h
          by_cases hs : kind = [115]
          · subst hs
            rw [if_pos rfl] at h
            cases rest with
            | nil => cases h
            | cons value rest =>
              rw [if_neg (by simp)] at h
              change service.buildBatchSetEntry documentExists ctx timestamp pathPayload value
                docStates = .ok res at h
              obtain ⟨path, hpath, h⟩ := bind_eq_ok.mp h
              obtain ⟨⟨columns, guardPredicate⟩, hcheck, h⟩ := bind_eq_ok.mp h
              cases h
              exact .set path value _ ⟨pathPayload, rest, rfl, hpath⟩ ⟨columns, guardPredicate, hcheck, rfl⟩
          · rw [if_neg hs] at h
            split_ifs at h with hr
            · change service.buildBatchRemoveEntry ctx pathPayload docStates = .ok res at h
              obtain ⟨path, hpath, h⟩ := bind_eq_ok.mp h
              obtain ⟨guardPredicate, _, h⟩ := bind_eq_ok.mp h
              cases h
              refine .remove path guardPredicate ?_
              rintro path' value' ⟨pathPayload', rest', he, _⟩
              cases he
              exact hs rfl
            · cases h
        | _ => cases h
  | _ => cases h

/-- The document states say what the entries before leave, the most recent first. -/
def Tracks (documentExists : RowKey → Bool) (docStates : BatchDocStates) (earlier : List RowOp) :
    Prop :=
  ∀ key, isCreateInBatch documentExists docStates key = takenForAbsent documentExists key earlier

lemma tracks_nil : Tracks documentExists [] [] := fun _ => rfl

lemma isCreateInBatch_put (docStates : BatchDocStates) (key key' : RowKey) (state : DocState) :
    isCreateInBatch documentExists (put eqKey key state docStates) key' =
      if key = key' then decide (state = .deleted)
      else isCreateInBatch documentExists docStates key' := by
  unfold isCreateInBatch
  rw [find_put]
  by_cases hk : key = key'
  · rw [if_pos hk, if_pos ((eqKey_iff _ _).mpr hk)]
  · rw [if_neg hk, if_neg (by simpa using hk)]

lemma Built.tracks {docStates : BatchDocStates} {earlier : List RowOp} {res : RowOp × BatchDocStates}
    (h : Built service documentExists ctx timestamp entry docStates res)
    (ht : Tracks documentExists docStates earlier) : Tracks documentExists res.2 (res.1 :: earlier) := by
  intro key
  cases h with
  | set path value op hset htreated =>
    rw [isCreateInBatch_put, takenForAbsent, htreated.target, htreated.isDelete, ht key]
    rfl
  | remove path guardPredicate hset =>
    rw [isCreateInBatch_put, takenForAbsent, ht key]
    rfl

lemma buildBatchEntries_spec {ops : List Payload} {docStates : BatchDocStates} {earlier entries : List RowOp}
    (h : service.buildBatchEntries documentExists ctx timestamp ops docStates = .ok entries)
    (ht : Tracks documentExists docStates earlier) {k : ℕ} (hk : ops[k]? = some entry) :
    ∃ op, entries[k]? = some op ∧
      (op.isDelete = true ∧ (∀ path value, ¬ service.IsSet entry path value) ∨
        ∃ path value, service.IsSet entry path value ∧ service.TreatedAs ctx timestamp path value
          (takenForAbsent documentExists path.key ((entries.take k).reverse ++ earlier)) op) := by
  induction ops generalizing docStates earlier entries k with
  | nil => cases hk
  | cons first ops ih =>
    rw [buildBatchEntries] at h
    obtain ⟨⟨op, docStates'⟩, hfirst, h⟩ := bind_eq_ok.mp h
    obtain ⟨rest, hrest, h⟩ := bind_eq_ok.mp h
    cases h
    have hbuilt := built_of_buildBatchEntry hfirst
    cases k with
    | zero =>
      cases hk
      refine ⟨op, rfl, ?_⟩
      cases hbuilt with
      | set path value _ hset htreated =>
        rw [ht path.key] at htreated
        exact .inr ⟨path, value, hset, htreated⟩
      | remove path guardPredicate hset => exact .inl ⟨rfl, hset⟩
    | succ k =>
      obtain ⟨op', hop', hcases⟩ := ih hrest (hbuilt.tracks ht) hk
      refine ⟨op', hop', ?_⟩
      rw [take_succ_cons, reverse_cons, List.append_assoc]
      exact hcases

lemma length_buildBatchEntries {ops : List Payload} {docStates : BatchDocStates} {entries : List RowOp}
    (h : service.buildBatchEntries documentExists ctx timestamp ops docStates = .ok entries) :
    entries.length = ops.length := by
  induction ops generalizing docStates entries with
  | nil =>
    cases h
    rfl
  | cons first ops ih =>
    rw [buildBatchEntries] at h
    obtain ⟨_, _, h⟩ := bind_eq_ok.mp h
    obtain ⟨rest, hrest, h⟩ := bind_eq_ok.mp h
    cases h
    rw [length_cons, length_cons, ih hrest]

lemma buildBatchEntries_of_batchWrite {ops : List Payload} {entries : List RowOp}
    {ack : Option WriteAck} (h : service.batchWrite documentExists ctx timestamp (.arr ops) =
      .ok (some (.batch entries ack))) :
    service.buildBatchEntries documentExists ctx timestamp ops [] = .ok entries := by
  unfold batchWrite at h
  simp only [matchesType, Payload.arrItems, ok_bind, Bool.not_true, Bool.false_eq_true, if_false] at h
  split_ifs at h
  · cases h
  · cases h
  · obtain ⟨entries', hbuild, h⟩ := bind_eq_ok.mp h
    split_ifs at h
    · cases h
      exact hbuild
    · cases h

end Entries

section Exactness

variable {service : StoreService} {sqlite : Sqlite} {w : WriteWorker} {ctx : WriteContext} {timestamp : ℤ}

/-- When the sets among the entries were treated by the rows they found, what the batch takes the
document for is right exactly when it is foreseen. -/
lemma foreseen_iff {entries : List RowOp} {db : Database} (key : RowKey)
    (hright : ∀ j op db, entries[j]? = some op → op.isDelete = false →
      w.executed service.schema sqlite (entries.take j) = some db →
        op.creates = (db.row op.target).isNone)
    (hdb : w.executed service.schema sqlite entries = some db) :
    Foreseen service sqlite w key entries.reverse ↔
      takenForAbsent (fun key => w.documentExists service.schema key.tableIndex key.id) key
        entries.reverse = (db.row key).isNone := by
  induction entries using List.reverseRecOn generalizing db with
  | nil =>
    cases hdb
    change w.documentExists service.schema key.tableIndex key.id = (w.db.row key).isSome ↔
      (!w.documentExists service.schema key.tableIndex key.id) = (w.db.row key).isNone
    rw [← not_isSome, Bool.not_inj_iff]
  | append_singleton pre op ih =>
    obtain ⟨db₀, hpre, habsent⟩ := executed_concat hdb
    have habsent := habsent key
    have ih := ih (fun j op' db' hj hset hex => by
      have hlt := (List.getElem?_eq_some_iff.mp hj).1
      refine hright j op' db' ?_ hset ?_
      · rwa [getElem?_append_left hlt]
      · rwa [take_append_of_le_length hlt.le]) hpre
    have hop := hright pre.length op db₀ getElem?_concat_length
    rw [take_left] at hop
    rw [reverse_concat, takenForAbsent, Foreseen, reverse_reverse]
    have honly : ∀ (P : Database → Prop),
        (∀ db, w.executed service.schema sqlite pre = some db → P db) ↔ P db₀ := by
      intro P
      rw [hpre]
      simp
    rw [honly]
    by_cases hk : op.target = key
    · rw [if_pos hk, if_pos hk]
      cases hd : op.isDelete with
      | true =>
        have hno : ¬ (op.creates = true ∧ op.target = key) := by simp [RowOp.not_creates hd]
        rw [and_iff_left hno] at habsent
        constructor
        · intro hremoves
          refine (habsent.mpr ?_).symm
          cases hrow : db₀.row key with
          | none => exact .inr rfl
          | some r => exact .inl (hremoves rfl (by rw [hrow]; rfl))
        · intro hnone _ hsome
          refine (habsent.mp hnone.symm).resolve_right fun hn => ?_
          rw [isNone_iff_eq_none] at hn
          rw [hn] at hsome
          cases hsome
      | false =>
        -- The set was treated by the row it found, so that it leaves one.
        have hcreates := hop hd hpre
        rw [hk] at hcreates
        refine iff_of_true nofun ?_
        rw [eq_comm, ← Bool.not_eq_true, habsent, hcreates]
        rintro (hr | ⟨hnone, hno⟩)
        · exact RowOp.not_removes hd key hr
        · exact hno ⟨hnone, hk⟩
    · rw [if_neg hk, if_neg hk]
      rw [and_iff_left fun h => hk h.2] at habsent
      by_cases hr : op.Removes service.schema db₀ key
      · rw [if_pos hr, habsent.mpr (.inl hr)]
      · rw [if_neg hr, ih]
        rw [or_iff_right hr] at habsent
        rw [Bool.eq_iff_iff.mpr habsent]

/-- A set is treated by the rows it finds exactly when what the batch takes its document for is
right. -/
lemma treated_iff {ops : List Payload} {entries : List RowOp} {k : ℕ} {entry value : Payload} {path : StorePath}
    (h : service.buildBatchEntries (fun key => w.documentExists service.schema key.tableIndex key.id)
      ctx timestamp ops [] = .ok entries)
    (hk : ops[k]? = some entry) (hset : service.IsSet entry path value) (isCreate : Bool) :
    (∃ op, entries[k]? = some op ∧ service.TreatedAs ctx timestamp path value isCreate op) ↔
      takenForAbsent (fun key => w.documentExists service.schema key.tableIndex key.id) path.key
        (entries.take k).reverse = isCreate := by
  obtain ⟨op, hop, hcases⟩ := buildBatchEntries_spec h tracks_nil hk
  rw [append_nil] at hcases
  obtain ⟨_, hno⟩ | ⟨path', value', hset', htreated⟩ := hcases
  · exact absurd hset (hno path value)
  obtain ⟨rfl, rfl⟩ := hset.unique hset'
  constructor
  · rintro ⟨op', hop', htreated'⟩
    rw [hop, Option.some.injEq] at hop'
    subst hop'
    rw [← htreated.creates, htreated'.creates]
  · rintro rfl
    exact ⟨op, hop, htreated⟩

/-- After entries whose sets are treated by the rows they find, it is right what the batch takes a
document for exactly when it is foreseen. -/
lemma foreseen_iff_of_classified {ops : List Payload} {entries : List RowOp} {k : ℕ} {db : Database}
    (h : service.buildBatchEntries (fun key => w.documentExists service.schema key.tableIndex key.id)
      ctx timestamp ops [] = .ok entries)
    (hbefore : ∀ j < k, service.ClassifiedAt sqlite w ctx timestamp ops entries j) (key : RowKey)
    (hdb : w.executed service.schema sqlite (entries.take k) = some db) :
    Foreseen service sqlite w key (entries.take k).reverse ↔
      takenForAbsent (fun key => w.documentExists service.schema key.tableIndex key.id) key
        (entries.take k).reverse = (db.row key).isNone := by
  refine foreseen_iff key (fun j op db' hj hd hex => ?_) hdb
  rw [getElem?_take] at hj
  split_ifs at hj with hjk
  rw [take_take, Nat.min_eq_left hjk.le] at hex
  have hlt : j < ops.length := by
    rw [← length_buildBatchEntries h]
    exact (List.getElem?_eq_some_iff.mp hj).1
  have hentry := getElem?_eq_getElem hlt
  obtain ⟨op', hop', hcases⟩ := buildBatchEntries_spec h tracks_nil hentry
  rw [hj, Option.some.injEq] at hop'
  subst hop'
  obtain ⟨hd', _⟩ | ⟨path, value, hset, _⟩ := hcases
  · rw [hd] at hd'
    cases hd'
  · obtain ⟨op', hop', htreated⟩ := hbefore j hjk _ path value db' hentry hset hex
    rw [hj, Option.some.injEq] at hop'
    subst hop'
    rw [htreated.creates, htreated.target]

/-- A batch that is accepted treats each of its sets, as a create or as an update, by the rows that
the entries before it leave, exactly when the document of each set is foreseen. -/
theorem batch_classified_iff {ops : List Payload} {entries : List RowOp} {ack : Option WriteAck}
    (h : service.batchWrite (fun key => w.documentExists service.schema key.tableIndex key.id) ctx
      timestamp (.arr ops) = .ok (some (.batch entries ack))) :
    service.ClassifiedByExecution sqlite w ctx timestamp ops entries ↔
      ∀ k entry path value db, ops[k]? = some entry → service.IsSet entry path value →
        w.executed service.schema sqlite (entries.take k) = some db →
          service.Foreseen sqlite w path.key (entries.take k).reverse := by
  have hbuild := buildBatchEntries_of_batchWrite h
  constructor
  · intro hclassified k entry path value db hk hset hdb
    rw [foreseen_iff_of_classified hbuild (fun j _ => hclassified j) path.key hdb, ← treated_iff hbuild hk hset]
    exact hclassified k entry path value db hk hset hdb
  · intro hall k
    induction k using Nat.strong_induction_on with
    | _ k ih =>
      intro entry path value db hk hset hdb
      rw [treated_iff hbuild hk hset, ← foreseen_iff_of_classified hbuild ih path.key hdb]
      exact hall k entry path value db hk hset hdb

end Exactness

end StoreService

namespace BatchStatesExample

def docsTable : Table where
  name := "docs"
  userFields := []
  namespaced := true
  fields_wellFormed := no_fields_wellFormed
  names_nodup := system_names_nodup

def schema : Schema := soloSchema docsTable rfl fun _ hf => absurd hf not_mem_nil

/-- Anybody may write in the namespace `a`. -/
def service : StoreService where
  schema := schema
  constraints := fun _ _ => none
  authConfig := {
    namespaceRules := [ ⟨[.literal [97]], .boolean true, .boolean true, .boolean true, .boolean true⟩]
    storeRules := [⟨"docs", false, .boolean true, .boolean true⟩] }

def ctx : WriteContext where
  request := {
    connId := 1, userDocId := 7, storeNamespace := some [97], storeNamespaceId := 1
    presenceNamespaceId := -1 }

def accepting : Sqlite := ⟨⟨fun _ => [], fun _ => [], id⟩, fun _ _ => none⟩

/-- The document 5 belongs to another namespace than that of the client. -/
def stored : Database := Database.put {} ⟨0, 5⟩ ⟨2, 8, none, [], 3, 3⟩

/-- The worker that starts with these documents. -/
def worker : WriteWorker where
  db := stored
  namespaces := [([36], 0), ([97], 1), ([98], 2)]
  pkSets := [⟨0, 5⟩]
  lastCreatedAt := fun tableIndex => (stored.maxCreatedAt tableIndex).getD 0

def docPath (id : UInt8) : Payload := .arr [.uint 0, .bin (List.replicate 15 0 ++ [id])]

/-- The document is removed and set. -/
def replace (id : UInt8) : List Payload :=
  [.arr [.str [114], docPath id], .arr [.str [115], docPath id, .arr []]]

def entries (id : DocId) : List RowOp :=
  [.delete { tableIndex := 0, id := id, namespaceId := 1 },
    .upsert {
      tableIndex := 0, id := id, namespaceId := 1, ownerDocId := 7, columns := [], timestamp := 9 }]

/-- The remove leaves the document alone, and yet the set is taken for a create. -/
theorem replace_misclassified :
    WriteWorker.bootstrapRuntimeTableState schema none stored [([36], 0), ([97], 1), ([98], 2)] = .ok worker ∧
      service.batchWrite (fun key => worker.documentExists schema key.tableIndex key.id) ctx 9
        (.arr (replace 5)) = .ok (some (.batch (entries 5) none)) ∧
      ¬ service.ClassifiedByExecution accepting worker ctx 9 (replace 5) (entries 5) := by
  refine ⟨rfl, rfl, fun h => ?_⟩
  have hset : service.IsSet (.arr [.str [115], docPath 5, .arr []]) ⟨0, docsTable, 5⟩ (.arr []) :=
    ⟨docPath 5, [], rfl, rfl⟩
  obtain ⟨op, hop, htreated⟩ := h 1 _ _ _ stored rfl hset rfl
  cases hop
  exact absurd htreated.creates (by decide)

lemma accepted_replace : service.batchWrite
    (fun key => worker.documentExists schema key.tableIndex key.id) ctx 9 (.arr (replace 6)) =
      .ok (some (.batch (entries 6) none)) := rfl

theorem batch_classified_iff_replace :
    service.ClassifiedByExecution accepting worker ctx 9 (replace 6) (entries 6) ↔
      ∀ k entry path value db, (replace 6)[k]? = some entry → service.IsSet entry path value →
        worker.executed schema accepting ((entries 6).take k) = some db →
          service.Foreseen accepting worker path.key ((entries 6).take k).reverse :=
  StoreService.batch_classified_iff accepted_replace

end BatchStatesExample
end ZyncBase
