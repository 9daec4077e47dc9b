import ZyncBase.Query.CursorToken
import ZyncBase.Sql.FilterAgreement
import ZyncBase.Sql.Select

/-! The order of records by sort descriptors: values in the direction of their clause, missing values
last. ORDER BY sorts the stored rows in this order, and the cursor predicate selects the rows that
come after the cursor in it. -/
namespace ZyncBase

open Std List

/-- Missing values last, the others in the direction of the clause. -/
def sortCompare (desc : Bool) : Value → Value → Ordering :=
  compareLex (compareOn fun v => if v = .nil then 1 else 0)
    fun a b => if desc then Value.totalOrder b a else Value.totalOrder a b

section Missing

variable (desc : Bool) (x y : ScalarValue)

@[simp] lemma sortCompare_nil : sortCompare desc .nil .nil = .eq := by cases desc <;> rfl
@[simp] lemma sortCompare_nil_scalar : sortCompare desc .nil (.scalar x) = .gt := rfl
@[simp] lemma sortCompare_scalar_nil : sortCompare desc (.scalar x) .nil = .lt := rfl

@[simp] lemma sortCompare_scalar : sortCompare desc (.scalar x) (.scalar y) =
    if desc then (x.order y).swap else x.order y := by
  have hswap : y.order x = (x.order y).swap := OrientedCmp.eq_swap
  rw [← hswap]
  cases desc <;> simp [sortCompare, compareLex, compareOn, Value.totalOrder]

end Missing

/-- The first clause that tells the records apart decides. -/
def recordOrder : List SortDescriptor → Record → Record → Ordering
  | [], _, _ => .eq
  | d :: ds, a, b =>
    (sortCompare d.desc (a.value d.fieldIndex) (b.value d.fieldIndex)).then (recordOrder ds a b)

instance (desc : Bool) : TransCmp (sortCompare desc) := by
  have : TransCmp fun a b : Value =>
      if desc then Value.totalOrder b a else Value.totalOrder a b := by
    cases desc with
    | false => exact inferInstanceAs (TransCmp Value.totalOrder)
    | true => exact inferInstanceAs (TransCmp fun a b => Value.totalOrder b a)
  unfold sortCompare
  infer_instance

instance (ds : List SortDescriptor) : TransCmp (recordOrder ds) := by
  induction ds with
  | nil => exact { eq_swap := rfl, isLE_trans := fun _ _ => rfl }
  | cons d ds ih =>
    have hdirection : TransCmp (sortCompare d.desc) := inferInstance
    have hkey := Keyset.transCmp_key hdirection fun r : Record => r.value d.fieldIndex
    exact inferInstanceAs (TransCmp (compareLex
      (fun a b : Record => sortCompare d.desc (a.value d.fieldIndex) (b.value d.fieldIndex))
      (recordOrder ds)))

section Keys

variable (enc : Encodings) {t : Table}

lemma SortDescriptor.Sortable.reads {d : SortDescriptor} (h : d.Sortable t) {r : Record} (hr : t.Conforms r) :
    storedRow t r (sortField t d).nameQuoted = storedValue (r.value d.fieldIndex) ∧
      ((r.value d.fieldIndex = .nil ∧ (sortField t d).required = false) ∨
        ∃ s, r.value d.fieldIndex = .scalar s ∧ (sortField t d).storageType.accepts s) := by
  obtain ⟨f, hf, ht, haccepts, hv⟩ := h.value hr
  have hsort : sortField t d = f := by rw [sortField, hf, Option.getD_some]
  rw [hsort]
  refine ⟨storedRow_eq hf hv, ?_⟩
  cases haccepts.of_scalar ht with
  | inl hnil =>
    rw [hnil] at haccepts ⊢
    exact .inl ⟨rfl, haccepts⟩
  | inr hscalar => exact .inr hscalar

variable {d : SortDescriptor} {a b : Record}

lemma SortDescriptor.Sortable.order (h : d.Sortable t) (ha : t.Conforms a) (hb : t.Conforms b) :
    (orderTerm t d).compare enc (storedRow t a (orderTerm t d).column) (storedRow t b (orderTerm t d).column) =
      sortCompare d.desc (a.value d.fieldIndex) (b.value d.fieldIndex) := by
  obtain ⟨harow, hav⟩ := h.reads ha
  obtain ⟨hbrow, hbv⟩ := h.reads hb
  unfold orderTerm OrderTerm.compare
  dsimp only
  rw [harow, hbrow]
  rcases hav with ⟨hav, har⟩ | ⟨x, hav, hax⟩ <;> rcases hbv with ⟨hbv, hbr⟩ | ⟨y, hbv, hby⟩ <;>
    rw [hav, hbv]
  · simp [storedValue]
  · simp [storedValue, har]
  · simp [storedValue, hbr]
  · simp [storedValue, sqlOrder_bindScalar enc hax hby]

lemma SortDescriptor.Sortable.tie_after (h : d.Sortable t) (ha : t.Conforms a) (hb : t.Conforms b) :
    ((keyTie t (d, a.value d.fieldIndex)).eval enc (storedRow t b) = some true ↔
      sortCompare d.desc (a.value d.fieldIndex) (b.value d.fieldIndex) = .eq) ∧
    ((keyAfter t d (a.value d.fieldIndex)).eval enc (storedRow t b) = some true ↔
      sortCompare d.desc (a.value d.fieldIndex) (b.value d.fieldIndex) = .lt) := by
  obtain ⟨-, hav⟩ := h.reads ha
  obtain ⟨hbrow, hbv⟩ := h.reads hb
  unfold keyTie KeyTie.eval keyAfter KeyAfter.eval
  dsimp only
  rw [hbrow]
  rcases hav with ⟨hav, har⟩ | ⟨x, hav, hax⟩ <;> rcases hbv with ⟨hbv, hbr⟩ | ⟨y, hbv, hby⟩ <;>
    rw [hav, hbv]
  · simp [storedValue, bindValue, sqlIs, har]
  · simp [storedValue, bindValue, sqlIs, har]
  · simp [storedValue, bindValue, sqlIs, hbr, (bindScalar_ne_null x).symm]
  · have hswap : y.order x = (x.order y).swap := OrientedCmp.eq_swap
    cases (sortField t d).required <;> cases d.desc <;> cases hxy : x.order y <;>
      simp [storedValue, bindValue, sqlIs, sqlCompare, sqlOrder_bindScalar enc hby hax, hswap, hxy,
        KeyAfter.op, CmpOp.test]

variable {ds : List SortDescriptor}

lemma orderCompare_eq (hds : ∀ d ∈ ds, d.Sortable t) (ha : t.Conforms a) (hb : t.Conforms b) :
    orderCompare enc (ds.map (orderTerm t)) (storedRow t a) (storedRow t b) = recordOrder ds a b := by
  induction ds with
  | nil => rfl
  | cons d ds ih =>
    rw [map_cons, orderCompare, recordOrder, (hds d mem_cons_self).order enc ha hb,
      ih fun e he => hds e (mem_cons_of_mem _ he)]

def Record.cursor (ds : List SortDescriptor) (r : Record) : Cursor :=
  ⟨ds.map fun d => r.value d.fieldIndex⟩

def Record.keys (ds : List SortDescriptor) (r : Record) : List (SortDescriptor × Value) :=
  ds.map fun d => (d, r.value d.fieldIndex)

lemma Record.zip_cursor (ds : List SortDescriptor) (r : Record) : ds.zip (r.cursor ds).values = r.keys ds := by
  induction ds with
  | nil => rfl
  | cons d ds ih =>
    change (d, r.value d.fieldIndex) :: ds.zip (r.cursor ds).values = _
    rw [ih]
    rfl

lemma recordOrder_eq_iff (ds : List SortDescriptor) (a b : Record) : recordOrder ds a b = .eq ↔
    ∀ d ∈ ds, sortCompare d.desc (a.value d.fieldIndex) (b.value d.fieldIndex) = .eq := by
  induction ds with
  | nil => simp [recordOrder]
  | cons d ds ih => rw [recordOrder, Ordering.then_eq_eq, ih, forall_mem_cons]

lemma evalTies_iff (hds : ∀ d ∈ ds, d.Sortable t) (ha : t.Conforms a) (hb : t.Conforms b) :
    Kleene.all3 (((a.keys ds).map (keyTie t)).map (KeyTie.eval enc (storedRow t b))) = some true ↔
      recordOrder ds a b = .eq := by
  rw [Kleene.all3_eq_true, recordOrder_eq_iff]
  simp only [Record.keys, map_map, mem_map, Function.comp_apply, forall_exists_index,
    and_imp, forall_apply_eq_imp_iff₂]
  exact forall₂_congr fun d hd => ((hds d hd).tie_after enc ha hb).1

/-- Some branch of the keys that remain holds when the keys before them tie and the row comes after
the cursor in those that remain. -/
lemma evalCursor_branches {tied : List SortDescriptor} (htied : ∀ d ∈ tied, d.Sortable t)
    (hds : ∀ d ∈ ds, d.Sortable t) (ha : t.Conforms a) (hb : t.Conforms b) :
    evalCursor enc (storedRow t b) (cursorBranches t (a.keys tied) (a.keys ds)) = some true ↔
      recordOrder tied a b = .eq ∧ recordOrder ds a b = .lt := by
  induction ds generalizing tied with
  | nil => simp [Record.keys, cursorBranches, evalCursor, Kleene.any3, recordOrder]
  | cons d ds ih =>
    have hgrown : ∀ e ∈ tied ++ [d], e.Sortable t := by
      intro e he
      cases mem_append.mp he with
      | inl he => exact htied e he
      | inr he => exact mem_singleton.mp he ▸ hds d mem_cons_self
    have hrest := ih hgrown fun e he => hds e (mem_cons_of_mem _ he)
    have hkeys : a.keys tied ++ [(d, a.value d.fieldIndex)] = a.keys (tied ++ [d]) := by
      simp [Record.keys]
    have hcons : a.keys (d :: ds) = (d, a.value d.fieldIndex) :: a.keys ds := rfl
    have hsplit : recordOrder (tied ++ [d]) a b = .eq ↔ recordOrder tied a b = .eq ∧
        sortCompare d.desc (a.value d.fieldIndex) (b.value d.fieldIndex) = .eq := by
      rw [recordOrder_eq_iff, recordOrder_eq_iff, forall_mem_append, forall_mem_singleton]
    rw [hcons, cursorBranches, hkeys]
    change Kleene.or3 _ (evalCursor enc (storedRow t b) _) = some true ↔ _
    rw [Kleene.or3_eq_true, hrest, hsplit, CursorBranch.eval, Kleene.and3_eq_true,
      evalTies_iff enc htied ha hb, ((hds d mem_cons_self).tie_after enc ha hb).2, recordOrder, Ordering.then_eq_lt]
    tauto

lemma evalCursor_iff (hds : ∀ d ∈ ds, d.Sortable t) (ha : t.Conforms a) (hb : t.Conforms b) :
    evalCursor enc (storedRow t b) (cursorBranches t [] (ds.zip (a.cursor ds).values)) = some true ↔
      recordOrder ds a b = .lt := by
  have hnone : ∀ d ∈ ([] : List SortDescriptor), d.Sortable t := fun _ hd => nomatch hd
  rw [Record.zip_cursor, show ([] : List (SortDescriptor × Value)) = a.keys [] from rfl,
    evalCursor_branches enc hnone hds ha hb]
  exact and_iff_right rfl

end Keys
end ZyncBase
