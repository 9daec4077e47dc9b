import Mathlib.Data.List.Induction
import ZyncBase.Storage.Database

/-! The referential closure of a delete: before a row is deleted, the write worker captures every
row that SQLite will delete or nullify along with it. -/
namespace ZyncBase

open List Worklist

inductive ReferentialAction where
  | delete | setNull
  deriving DecidableEq, Repr

structure ReferentialLookup where
  key : ForeignKey
  action : ReferentialAction

structure ReferentialChange where
  key : RowKey
  namespaceId : ℤ
  action : ReferentialAction
  oldRecord : Record

/-- A row met by a lookup, with what the delete will do to it. -/
abbrev Visit := ReferentialAction × (RowKey × Row)

def lookupAction : OnDelete → Option ReferentialAction
  | .restrict => none
  | .cascade => some .delete
  | .setNull => some .setNull

def referentialLookups (s : Schema) : List ReferentialLookup :=
  s.foreignKeys.filterMap fun fk => (lookupAction fk.onDelete).map fun action => ⟨fk, action⟩

/-- The changes captured so far, and the deleted rows whose own references are still to be
followed. -/
structure Capture where
  changes : List ReferentialChange
  cascade : Search RowKey

def upgrade (key : RowKey) (c : ReferentialChange) : ReferentialChange :=
  if c.key = key then { c with action := .delete } else c

/-- The root is no change of its own; a row met again is deleted rather than nullified. -/
def recordChange (root : RowKey) (changes : List ReferentialChange) (v : Visit) : List ReferentialChange :=
  if v.2.1 = root then changes
  else if v.2.1 ∈ changes.map ReferentialChange.key then
    if v.1 = .delete then changes.map (upgrade v.2.1) else changes
  else changes ++ [⟨v.2.1, v.2.2.namespaceId, v.1, v.2.2.record v.2.1.id⟩]

def enqueueCascade (cascade : Search RowKey) (v : Visit) : Search RowKey :=
  if v.1 = .delete then cascade.enqueue v.2.1 else cascade

def collectLookupRow (root : RowKey) (c : Capture) (v : Visit) : Capture :=
  ⟨recordChange root c.changes v, enqueueCascade c.cascade v⟩

def collectLookupRows (db : Database) (root parent : RowKey) (c : Capture)
    (lookup : ReferentialLookup) : Capture :=
  if lookup.key.parentTableIndex ≠ parent.tableIndex then c
  else ((db.referring lookup.key parent).map fun e => (lookup.action, e)).foldl (collectLookupRow root) c

def scanLookupRows (s : Schema) (db : Database) (root : RowKey) (c : Capture) (parent : RowKey) :
    Capture :=
  (referentialLookups s).foldl (collectLookupRows db root parent) c

def captureLoop (s : Schema) (db : Database) (root : RowKey) : ℕ → Capture → Capture
  | 0, c => c
  | fuel + 1, c =>
    match c.cascade.pending with
    | [] => c
    | parent :: rest =>
      captureLoop s db root fuel
        (scanLookupRows s db root { c with cascade := { c.cascade with pending := rest } } parent)

/-- Follow references breadth first from the root. Each stored row is expanded at most once. -/
def captureReferentialChanges (s : Schema) (db : Database) (root : RowKey) : List ReferentialChange :=
  (captureLoop s db root (db.keysWith root).length ⟨[], Search.start root⟩).changes

section Visits

def visits (s : Schema) (db : Database) (parent : RowKey) : List Visit :=
  (referentialLookups s).flatMap fun lookup =>
    (db.referring lookup.key parent).map fun e => (lookup.action, e)

variable {s : Schema} {db : Database} {root parent : RowKey}

lemma referring_eq_nil {fk : ForeignKey} (h : fk.parentTableIndex ≠ parent.tableIndex) :
    db.referring fk parent = [] := by
  apply eq_nil_iff_forall_not_mem.mpr
  intro e he
  have hr := (Database.mem_referring.mp he).2
  simp only [ForeignKey.refersTo, Bool.and_eq_true, decide_eq_true_eq] at hr
  exact h hr.1.1.symm

lemma scanLookupRows_eq (c : Capture) :
    scanLookupRows s db root c parent = (visits s db parent).foldl (collectLookupRow root) c := by
  unfold scanLookupRows visits
  induction referentialLookups s generalizing c with
  | nil => rfl
  | cons lookup rest ih =>
    rw [foldl_cons, flatMap_cons, foldl_append, ih]
    congr 1
    unfold collectLookupRows
    split_ifs with h
    · rw [referring_eq_nil h]
      rfl
    · rfl

lemma foldl_collectLookupRow (vs : List Visit) (c : Capture) : vs.foldl (collectLookupRow root) c =
    ⟨vs.foldl (recordChange root) c.changes, vs.foldl enqueueCascade c.cascade⟩ := by
  induction vs generalizing c with
  | nil => rfl
  | cons v vs ih => rw [foldl_cons, ih]; rfl

lemma foldl_enqueueCascade (q : Search RowKey) :
    (visits s db parent).foldl enqueueCascade q = q.enqueueAll (db.cascadeChildren s parent) := by
  unfold visits referentialLookups Database.cascadeChildren
  induction s.foreignKeys generalizing q with
  | nil => rfl
  | cons fk fks ih =>
    have hfold (action : ReferentialAction) (es : List (RowKey × Row)) (q : Search RowKey) :
        (es.map fun e => (action, e)).foldl enqueueCascade q =
          if action = .delete then q.enqueueAll (es.map Prod.fst) else q := by
      induction es generalizing q with
      | nil => simp
      | cons e es ihes =>
        rw [map_cons, foldl_cons, ihes]
        unfold enqueueCascade
        split_ifs <;> rfl
    cases ho : fk.onDelete with
    | restrict =>
      rw [filterMap_cons_none (by rw [ho]; rfl), filter_cons_of_neg (by simp [ho]), ih]
    | setNull =>
      rw [filterMap_cons_some (by rw [ho]; rfl), filter_cons_of_neg (by simp [ho]),
        flatMap_cons, foldl_append, ih, hfold, if_neg (by simp)]
    | cascade =>
      rw [filterMap_cons_some (by rw [ho]; rfl), filter_cons_of_pos (by simp [ho]), flatMap_cons,
        flatMap_cons, foldl_append, ih, hfold, if_pos rfl, Search.enqueueAll_append]

lemma captureLoop_changes (fuel : ℕ) (c : Capture) : (captureLoop s db root fuel c).changes =
    ((c.cascade.order (db.cascadeChildren s) fuel).flatMap (visits s db)).foldl
      (recordChange root) c.changes := by
  induction fuel generalizing c with
  | zero => rfl
  | succ fuel ih =>
    unfold captureLoop Search.order
    cases hp : c.cascade.pending with
    | nil => rfl
    | cons parent rest =>
      simp only [ih, scanLookupRows_eq, foldl_collectLookupRow, foldl_enqueueCascade,
        flatMap_cons, foldl_append]

lemma mem_visits {v : Visit} :
    v ∈ visits s db parent ↔ ∃ fk ∈ s.foreignKeys, lookupAction fk.onDelete = some v.1 ∧
      db.row v.2.1 = some v.2.2 ∧ fk.refersTo parent v.2 := by
  simp only [visits, referentialLookups, mem_flatMap, mem_filterMap, mem_map, Option.map_eq_some_iff]
  constructor
  · rintro ⟨_, ⟨fk, hfk, action, ha, rfl⟩, e, he, rfl⟩
    exact ⟨fk, hfk, ha, Database.mem_referring.mp he⟩
  · rintro ⟨fk, hfk, ha, he⟩
    exact ⟨⟨fk, v.1⟩, ⟨fk, hfk, v.1, ha, rfl⟩, v.2, Database.mem_referring.mpr he, rfl⟩

end Visits

section Recorded

variable {root : RowKey} {vs : List Visit} {changes : List ReferentialChange} {v : Visit}

/-- The changes that a list of visits leaves: one for each row met beside the root, a delete when
one of its visits was one. -/
structure Recorded (root : RowKey) (vs : List Visit) (changes : List ReferentialChange) :
    Prop where
  nodup : (changes.map ReferentialChange.key).Nodup
  met : ∀ c ∈ changes, c.key ≠ root ∧ ∃ v ∈ vs, v.2.1 = c.key ∧
    c.namespaceId = v.2.2.namespaceId ∧ c.oldRecord = v.2.2.record c.key.id
  recorded : ∀ v ∈ vs, v.2.1 ≠ root → v.2.1 ∈ changes.map ReferentialChange.key
  deletes : ∀ c ∈ changes, (c.action = .delete ↔ ∃ v ∈ vs, v.1 = .delete ∧ v.2.1 = c.key)

@[simp] lemma upgrade_key (key : RowKey) (c : ReferentialChange) : (upgrade key c).key = c.key := by
  unfold upgrade
  split_ifs <;> rfl

lemma map_upgrade_key (key : RowKey) (changes : List ReferentialChange) :
    (changes.map (upgrade key)).map ReferentialChange.key = changes.map ReferentialChange.key := by
  simp [map_map, Function.comp_def]

lemma Recorded.skip (h : Recorded root vs changes)
    (hv : v.2.1 = root ∨ v.2.1 ∈ changes.map ReferentialChange.key ∧ v.1 ≠ .delete) :
    Recorded root (vs ++ [v]) changes where
  nodup := h.nodup
  met c hc := by
    obtain ⟨hne, w, hw, hrest⟩ := h.met c hc
    exact ⟨hne, w, mem_append_left _ hw, hrest⟩
  recorded w hw hne := by
    cases mem_append.mp hw with
    | inl hw => exact h.recorded w hw hne
    | inr hw =>
      rw [mem_singleton] at hw
      subst hw
      exact (hv.resolve_left hne).1
  deletes c hc := by
    rw [h.deletes c hc]
    constructor
    · rintro ⟨w, hw, hrest⟩
      exact ⟨w, mem_append_left _ hw, hrest⟩
    · rintro ⟨w, hw, hd, hk⟩
      cases mem_append.mp hw with
      | inl hw => exact ⟨w, hw, hd, hk⟩
      | inr hw =>
        rw [mem_singleton] at hw
        subst hw
        cases hv with
        | inl hr => exact absurd (hk.symm.trans hr) (h.met c hc).1
        | inr hn => exact absurd hd hn.2

lemma Recorded.upgrade (h : Recorded root vs changes) (hv : v.1 = .delete)
    (hm : v.2.1 ∈ changes.map ReferentialChange.key) :
    Recorded root (vs ++ [v]) (changes.map (ZyncBase.upgrade v.2.1)) where
  nodup := by rw [map_upgrade_key]; exact h.nodup
  met c hc := by
    obtain ⟨c, hc₀, rfl⟩ := mem_map.mp hc
    obtain ⟨hne, w, hw, hk, hns, ho⟩ := h.met c hc₀
    refine ⟨by rwa [upgrade_key], w, mem_append_left _ hw, by rwa [upgrade_key], ?_⟩
    unfold ZyncBase.upgrade
    split_ifs <;> exact ⟨hns, ho⟩
  recorded w hw hne := by
    rw [map_upgrade_key]
    cases mem_append.mp hw with
    | inl hw => exact h.recorded w hw hne
    | inr hw =>
      rw [mem_singleton] at hw
      rwa [hw]
  deletes c hc := by
    obtain ⟨c, hc₀, rfl⟩ := mem_map.mp hc
    rw [upgrade_key]
    by_cases hk : c.key = v.2.1
    · have hu : (ZyncBase.upgrade v.2.1 c).action = .delete := by
        rw [ZyncBase.upgrade, if_pos hk]
      exact iff_of_true hu ⟨v, by simp, hv, hk.symm⟩
    · rw [ZyncBase.upgrade, if_neg hk, h.deletes c hc₀]
      simp only [mem_append, mem_singleton, or_and_right, exists_or, exists_eq_left]
      exact ⟨.inl, fun hor => hor.resolve_right fun hn => hk hn.2.symm⟩

lemma Recorded.add (h : Recorded root vs changes) (hr : v.2.1 ≠ root)
    (hm : v.2.1 ∉ changes.map ReferentialChange.key) :
    Recorded root (vs ++ [v]) (changes ++ [⟨v.2.1, v.2.2.namespaceId, v.1, v.2.2.record v.2.1.id⟩]) where
  nodup := by
    rw [map_append, nodup_append]
    refine ⟨h.nodup, nodup_singleton _, fun k hk k' hk' he => hm ?_⟩
    rw [map_singleton, mem_singleton] at hk'
    rw [he, hk'] at hk
    exact hk
  met c hc := by
    cases mem_append.mp hc with
    | inl hc =>
      obtain ⟨hne, w, hw, hrest⟩ := h.met c hc
      exact ⟨hne, w, mem_append_left _ hw, hrest⟩
    | inr hc =>
      rw [mem_singleton] at hc
      subst hc
      exact ⟨hr, v, by simp, rfl, rfl, rfl⟩
  recorded w hw hne := by
    rw [map_append, mem_append]
    cases mem_append.mp hw with
    | inl hw => exact .inl (h.recorded w hw hne)
    | inr hw =>
      rw [mem_singleton] at hw
      subst hw
      exact .inr (mem_singleton.mpr rfl)
  deletes c hc := by
    simp only [mem_append, mem_singleton, or_and_right, exists_or, exists_eq_left]
    cases mem_append.mp hc with
    | inl hc =>
      rw [h.deletes c hc]
      refine ⟨.inl, fun hor => hor.resolve_right fun hn => hm ?_⟩
      exact hn.2 ▸ mem_map_of_mem hc
    | inr hc =>
      rw [mem_singleton] at hc
      subst hc
      refine ⟨fun hd => .inr ⟨hd, rfl⟩, fun hor => ?_⟩
      rcases hor with ⟨w, hw, _, hk⟩ | ⟨hd, _⟩
      · change w.2.1 = v.2.1 at hk
        exact absurd (hk ▸ h.recorded w hw (hk ▸ hr)) hm
      · exact hd

lemma recorded_foldl (root : RowKey) (vs : List Visit) :
    Recorded root vs (vs.foldl (recordChange root) []) := by
  induction vs using List.reverseRecOn with
  | nil => exact ⟨nodup_nil, by simp, by simp, by simp⟩
  | append_singleton vs v ih =>
    rw [foldl_concat]
    unfold recordChange
    split_ifs with hr hm hd
    · exact ih.skip (.inl hr)
    · exact ih.upgrade hd hm
    · exact ih.skip (.inr ⟨hm, hd⟩)
    · exact ih.add hr hm

end Recorded

section Closure

variable {s : Schema} {db : Database} {root key parent : RowKey} {c : ReferentialChange}

lemma mem_cascadeChildren_iff_visits :
    key ∈ db.cascadeChildren s parent ↔ ∃ v ∈ visits s db parent, v.1 = .delete ∧ v.2.1 = key := by
  rw [Database.mem_cascadeChildren]
  constructor
  · rintro ⟨fk, hfk, ho, r, hr, href⟩
    exact ⟨(.delete, key, r), mem_visits.mpr ⟨fk, hfk, by rw [ho]; rfl, hr, href⟩, rfl, rfl⟩
  · rintro ⟨v, hv, hd, rfl⟩
    obtain ⟨fk, hfk, ha, hr, href⟩ := mem_visits.mp hv
    refine ⟨fk, hfk, ?_, v.2.2, hr, href⟩
    rw [hd] at ha
    cases ho : fk.onDelete with
    | cascade => rfl
    | restrict => simp [ho, lookupAction] at ha
    | setNull => simp [ho, lookupAction] at ha

lemma mem_captured_visits (s : Schema) (db : Database) (root : RowKey) (v : Visit) :
    v ∈ ((Search.start root).order (db.cascadeChildren s) (db.keysWith root).length).flatMap
      (visits s db) ↔ ∃ parent, db.CascadesTo s root parent ∧ v ∈ visits s db parent := by
  simp only [mem_flatMap, Database.mem_order_iff]

lemma recorded_capture (s : Schema) (db : Database) (root : RowKey) :
    Recorded root (((Search.start root).order (db.cascadeChildren s)
      (db.keysWith root).length).flatMap (visits s db)) (captureReferentialChanges s db root) := by
  rw [captureReferentialChanges, captureLoop_changes]
  exact recorded_foldl root _

lemma capture_nodup (s : Schema) (db : Database) (root : RowKey) :
    ((captureReferentialChanges s db root).map ReferentialChange.key).Nodup :=
  (recorded_capture s db root).nodup

lemma capture_met (h : c ∈ captureReferentialChanges s db root) :
    c.key ≠ root ∧ ∃ r, db.row c.key = some r ∧ c.namespaceId = r.namespaceId ∧
      c.oldRecord = r.record c.key.id := by
  obtain ⟨hne, v, hv, hk, hns, ho⟩ := (recorded_capture s db root).met c h
  obtain ⟨parent, _, hvp⟩ := (mem_captured_visits s db root v).mp hv
  obtain ⟨_, _, _, hr, _⟩ := mem_visits.mp hvp
  exact ⟨hne, v.2.2, hk ▸ hr, hns, ho⟩

lemma capture_delete_iff (h : c ∈ captureReferentialChanges s db root) :
    c.action = .delete ↔ db.CascadesTo s root c.key := by
  rw [(recorded_capture s db root).deletes c h]
  simp only [mem_captured_visits]
  constructor
  · rintro ⟨v, ⟨parent, hp, hv⟩, hd, hk⟩
    exact hp.tail (mem_cascadeChildren_iff_visits.mpr ⟨v, hv, hd, hk⟩)
  · intro hc
    cases hc.cases_tail with
    | inl he => exact absurd he (capture_met h).1
    | inr hc =>
      obtain ⟨parent, hp, hchild⟩ := hc
      obtain ⟨v, hv, hd, hk⟩ := mem_cascadeChildren_iff_visits.mp hchild
      exact ⟨v, ⟨parent, hp, hv⟩, hd, hk⟩

lemma captured_of_visit {v : Visit} (hp : db.CascadesTo s root parent)
    (hv : v ∈ visits s db parent) (hne : v.2.1 ≠ root) :
    v.2.1 ∈ (captureReferentialChanges s db root).map ReferentialChange.key :=
  (recorded_capture s db root).recorded v ((mem_captured_visits s db root v).mpr ⟨parent, hp, hv⟩) hne

lemma captured_of_cascadesTo (hc : db.CascadesTo s root key) (hne : key ≠ root) :
    key ∈ (captureReferentialChanges s db root).map ReferentialChange.key := by
  cases hc.cases_tail with
  | inl he => exact absurd he hne
  | inr hc =>
    obtain ⟨parent, hp, hchild⟩ := hc
    obtain ⟨v, hv, _, rfl⟩ := mem_cascadeChildren_iff_visits.mp hchild
    exact captured_of_visit hp hv hne

namespace Database

variable {r : Row}

def NullifiedBy (s : Schema) (db : Database) (root key : RowKey) (r : Row) : Prop :=
  ∃ fk ∈ s.foreignKeys, fk.onDelete = .setNull ∧
    ∃ parent, db.CascadesTo s root parent ∧ fk.refersTo parent (key, r)

/-- A delete of the root nulls a field exactly when it held a nullifying reference to a deleted
row. -/
lemma nullify_field (i : ℕ) : (nullify s (db.CascadesTo s root) key r).fields[i]? = (r.fields[i]?).map fun v =>
    if nulled s (db.CascadesTo s root) key.tableIndex i v then .nil else v :=
  List.getElem?_mapIdx

lemma nulled_iff {i : ℕ} {v : Value} : nulled s (db.CascadesTo s root) key.tableIndex i v ↔
    ∃ fk ∈ s.foreignKeys, fk.onDelete = .setNull ∧ fk.childTableIndex = key.tableIndex ∧
      fk.fieldIndex = i ∧ ∃ id, v = .scalar (.docId id) ∧ db.CascadesTo s root ⟨fk.parentTableIndex, id⟩ := by
  simp only [nulled, any_eq_true, Bool.and_eq_true, decide_eq_true_eq, and_assoc]
  refine exists_congr fun fk => and_congr_right fun _ => and_congr_right fun _ =>
    and_congr_right fun _ => and_congr_right fun _ => ?_
  constructor
  · intro h
    cases v with
    | scalar x =>
      cases x with
      | docId id => exact ⟨id, rfl, of_decide_eq_true h⟩
      | _ => simp at h
    | _ => simp at h
  · rintro ⟨id, rfl, h⟩
    exact decide_eq_true h

lemma nullify_eq_self (h : ¬ NullifiedBy s db root key r) : nullify s (db.CascadesTo s root) key r = r := by
  have hfields : r.fields.mapIdx (fun i v =>
      if nulled s (db.CascadesTo s root) key.tableIndex i v then .nil else v) = r.fields := by
    apply ext_getElem?
    intro i
    rw [List.getElem?_mapIdx]
    cases hv : r.fields[i]? with
    | none => rfl
    | some v =>
      rw [Option.map_some, if_neg]
      intro hn
      obtain ⟨fk, hfk, ho, ht, hi, id, rfl, hp⟩ := nulled_iff.mp hn
      refine h ⟨fk, hfk, ho, ⟨fk.parentTableIndex, id⟩, hp, ?_⟩
      simp [ForeignKey.refersTo, ht, hi, hv]
  rw [nullify, hfields]

@[simp] lemma nullify_namespaceId (removed : RowKey → Prop) [DecidablePred removed] :
    (nullify s removed key r).namespaceId = r.namespaceId := rfl

end Database

lemma captured_of_nullified {r : Row} (hr : db.row key = some r)
    (hn : db.NullifiedBy s root key r) (hne : key ≠ root) :
    key ∈ (captureReferentialChanges s db root).map ReferentialChange.key := by
  obtain ⟨fk, hfk, ho, parent, hp, href⟩ := hn
  exact captured_of_visit (v := (.setNull, key, r)) hp (mem_visits.mpr ⟨fk, hfk, by rw [ho]; rfl, hr, href⟩) hne

lemma nullifiedBy_of_captured {c : ReferentialChange} {r : Row}
    (hc : c ∈ captureReferentialChanges s db root) (hd : c.action ≠ .delete)
    (hr : db.row c.key = some r) : db.NullifiedBy s root c.key r := by
  have hrecorded := recorded_capture s db root
  obtain ⟨_, v, hv, hk, _⟩ := hrecorded.met c hc
  have hkeep : v.1 ≠ .delete := fun hdelete =>
    hd ((hrecorded.deletes c hc).mpr ⟨v, hv, hdelete, hk⟩)
  obtain ⟨parent, hp, hvp⟩ := (mem_captured_visits s db root v).mp hv
  obtain ⟨fk, hfk, ha, hrow, href⟩ := mem_visits.mp hvp
  rw [hk, hr, Option.some.injEq] at hrow
  refine ⟨fk, hfk, ?_, parent, hp, ?_⟩
  · cases ho : fk.onDelete with
    | restrict => simp [ho, lookupAction] at ha
    | cascade =>
      rw [ho, lookupAction, Option.some.injEq] at ha
      exact absurd ha.symm hkeep
    | setNull => rfl
  · rw [← hk, hrow]
    exact href

lemma row_deleteCascading_of_not_captured (hne : key ≠ root)
    (hn : key ∉ (captureReferentialChanges s db root).map ReferentialChange.key) :
    (db.deleteCascading s root).row key = db.row key := by
  rw [Database.row_deleteCascading, if_neg fun hc => hn (captured_of_cascadesTo hc hne)]
  cases hr : db.row key with
  | none => rfl
  | some r =>
    rw [Option.map_some, Database.nullify_eq_self fun h => hn (captured_of_nullified hr h hne)]

namespace Database

def Referenced (s : Schema) (db : Database) (parent : RowKey) : Prop :=
  ∃ key r, key ≠ parent ∧ db.row key = some r ∧
    ∃ fk ∈ s.foreignKeys, fk.onDelete ≠ .restrict ∧ fk.refersTo parent (key, r)

end Database

lemma capture_eq_nil_iff : captureReferentialChanges s db root = [] ↔ ¬ db.Referenced s root := by
  constructor
  · rintro hnil ⟨key, r, hne, hr, fk, hfk, ho, href⟩
    have haction : ∃ action, lookupAction fk.onDelete = some action := by
      cases hd : fk.onDelete with
      | restrict => exact absurd hd ho
      | cascade => exact ⟨_, rfl⟩
      | setNull => exact ⟨_, rfl⟩
    obtain ⟨action, ha⟩ := haction
    have hm := captured_of_visit (v := (action, key, r)) Relation.ReflTransGen.refl
      (mem_visits.mpr ⟨fk, hfk, ha, hr, href⟩) hne
    simp [hnil] at hm
  · intro hno
    have hother : ∀ v ∈ visits s db root, v.2.1 = root := by
      intro v hv
      obtain ⟨fk, hfk, ha, hr, href⟩ := mem_visits.mp hv
      by_contra hne
      refine hno ⟨v.2.1, v.2.2, hne, hr, fk, hfk, fun ho => ?_, href⟩
      simp [ho, lookupAction] at ha
    have hleaf : ∀ k, db.CascadesTo s root k → k = root := by
      intro k hk
      induction hk with
      | refl => rfl
      | tail _ hchild ih =>
        obtain ⟨v, hv, _, rfl⟩ := mem_cascadeChildren_iff_visits.mp hchild
        exact hother v (ih ▸ hv)
    apply eq_nil_iff_forall_not_mem.mpr
    intro c hc
    obtain ⟨_, v, hv, hk, _⟩ := (recorded_capture s db root).met c hc
    obtain ⟨parent, hp, hvp⟩ := (mem_captured_visits s db root v).mp hv
    rw [hleaf parent hp] at hvp
    exact (capture_met hc).1 (hk ▸ hother v hvp)

lemma not_referenced_of_no_incoming
    (h : s.hasIncomingCascadeOrSetNull root.tableIndex = false) : ¬ db.Referenced s root := by
  rintro ⟨key, r, _, _, fk, hfk, ho, href⟩
  simp only [ForeignKey.refersTo, Bool.and_eq_true, decide_eq_true_eq] at href
  have hany : s.hasIncomingCascadeOrSetNull root.tableIndex = true :=
    any_eq_true.mpr ⟨fk, hfk, by simp [href.1.1, ho]⟩
  rw [h] at hany
  cases hany

lemma capture_eq_nil_of_no_incoming (h : s.hasIncomingCascadeOrSetNull root.tableIndex = false) :
    captureReferentialChanges s db root = [] :=
  capture_eq_nil_iff.mpr (not_referenced_of_no_incoming h)

lemma row_deleteCascading_of_no_incoming
    (h : s.hasIncomingCascadeOrSetNull root.tableIndex = false) (hne : key ≠ root) :
    (db.deleteCascading s root).row key = db.row key := by
  refine row_deleteCascading_of_not_captured hne ?_
  rw [capture_eq_nil_of_no_incoming h]
  exact not_mem_nil

end Closure
end ZyncBase
