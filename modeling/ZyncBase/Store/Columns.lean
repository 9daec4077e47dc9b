import ZyncBase.Authorization.Evaluate
import ZyncBase.Schema.Constraints
import ZyncBase.Storage.WriteOps

/-! The columns of a store write, decoded from its sparse payload: the last value that the payload
has for a field is the one that counts. -/
namespace ZyncBase

open Guarded Outcome List Option

def maxStoreFields : ℕ := 1024

/-- A field that clients may write: none of the system fields. -/
structure WritableField (t : Table) (index : ℕ) where
  field : Field
  found : t.fields[index]? = some field
  user : firstUserFieldIndex ≤ index
  beforeTimestamps : index < t.fields.length - 2

section Validation

variable (constraints : ℕ → Option Constraints) (t : Table)

def validateItem (itemsType : FieldType) (item : Payload) : Checked Unit :=
  if matchesType itemsType item then .ok () else refuse .invalidArrayElement

def validateItems (f : Field) (value : Payload) : Checked Unit :=
  match f.storageType, f.itemsType with
  | .array, some itemsType => do (← value.arrItems).forM (validateItem itemsType)
  | _, _ => .ok ()

def checkConstraints (c : Option Constraints) (fieldType : FieldType) (value : Payload) : Checked Unit :=
  match c with
  | none => .ok ()
  | some c => c.validate fieldType value

def validateFieldValue (f : Field) (c : Option Constraints) (value : Payload) : Checked Unit := do
  validateValue f.storageType value
  validateItems f value
  checkConstraints c f.declaredType value

def writableField (fieldIndex : ℕ) : Checked (WritableField t fieldIndex) :=
  if hknown : t.fields.length ≤ fieldIndex then refuse .unknownField
  else if hmutable : fieldIndex < firstUserFieldIndex ∨ t.fields.length - 2 ≤ fieldIndex then
    refuse .immutableField
  else .ok ⟨t.fields.get ⟨fieldIndex, by omega⟩, getElem?_eq_getElem (by omega), by omega, by omega⟩

/-- The field of a write, unless it is unknown or immutable or does not take the value. -/
def validateFieldWrite (fieldIndex : ℕ) (value : Payload) : Checked (WritableField t fieldIndex) := do
  let f ← writableField t fieldIndex
  if value.isNil then
    if f.field.required then refuse .nullNotAllowed else return f
  else
    validateFieldValue f.field (constraints fieldIndex) value
    return f

/-- `seen` holds the indices below `maxStoreFields` that have a column. -/
structure Decoded where
  seen : List ℕ := []
  columns : List ColumnValue := []

def decodeColumn (fieldIndex : ℕ) (rawValue : Payload) (d : Decoded) : Checked Decoded := do
  let f ← validateFieldWrite constraints t fieldIndex rawValue
  let typedValue ← decodePayload f.field.storageType f.field.itemsType rawValue
  return {
    seen := if fieldIndex < maxStoreFields then fieldIndex :: d.seen else d.seen
    columns := d.columns ++ [⟨fieldIndex, typedValue, f.user⟩] }

def decodePair (key rawValue : Payload) (d : Decoded) : Checked Decoded :=
  match key.toUsize with
  | none => refuse .invalidPayload
  | some fieldIndex =>
    if fieldIndex < maxStoreFields ∧ fieldIndex ∈ d.seen then .ok d
    else decodeColumn constraints t fieldIndex rawValue d

/-- From the last pair to the first. -/
def decodePairs (items : List Payload) : ℕ → Decoded → Checked Decoded
  | 0, d => .ok d
  | k+1, d => do
    let key ← elementAt items (2 * k)
    let rawValue ← elementAt items (2 * k + 1)
    decodePairs items k (← decodePair constraints t key rawValue d)

def decodeColumnsFromPairs (value : Payload) : Checked (List ColumnValue) := do
  let items ← value.arrItems
  if items.length % 2 ≠ 0 then refuse .invalidPayload
  else return (← decodePairs constraints t items (items.length / 2) {}).columns

def validateRequiredFieldsForCreate (columns : List ColumnValue) : Checked Unit :=
  if (List.range t.userFields.length).all fun j =>
      (t.userFields[j]?).all fun f =>
        !f.required || columns.any fun c => c.index = firstUserFieldIndex + j
  then .ok () else refuse .missingRequiredField

end Validation

variable {items : List Payload}

variable {ps : List (Payload × Payload)}

section Pairs

lemma sparsePairs_get (h : sparsePairs items = some ps) : items.length = 2 * ps.length ∧
    ∀ k p, ps[k]? = some p → items[2 * k]? = some p.1 ∧ items[2 * k + 1]? = some p.2 := by
  induction items using sparsePairs.induct generalizing ps with
  | case1 =>
    cases h
    exact ⟨rfl, fun k p hk => by simp at hk⟩
  | case2 p => cases h
  | case3 i v rest ih =>
    rw [sparsePairs, map_eq_some_iff] at h
    obtain ⟨qs, hqs, rfl⟩ := h
    obtain ⟨hlen, hget⟩ := ih hqs
    refine ⟨by simp only [length_cons, hlen]; omega, fun k p hk => ?_⟩
    cases k with
    | zero =>
      cases hk
      exact ⟨rfl, rfl⟩
    | succ k => exact hget k p hk

lemma sparsePairs_of_even (h : items.length % 2 = 0) : ∃ ps, sparsePairs items = some ps := by
  induction items using sparsePairs.induct with
  | case1 => exact ⟨[], rfl⟩
  | case2 p => cases h
  | case3 i v rest ih =>
    obtain ⟨ps, hps⟩ := ih (by simp only [length_cons] at h; omega)
    exact ⟨(i, v) :: ps, by rw [sparsePairs, hps]; rfl⟩

end Pairs

section Safety

variable {constraints : ℕ → Option Constraints} {t : Table}

lemma answers_validateItems {f : Field} {value : Payload}
    (h : matchesType f.storageType value = true) : Answers (validateItems f value) := by
  unfold validateItems
  split
  case h_1 itemsType hstorage hitems =>
    rw [hstorage] at h
    refine (answers_arrItems h).bind fun items _ => answers_forM fun item _ => ?_
    unfold validateItem
    split_ifs
    · exact answers_ok _
    · exact answers_refuse _
  case h_2 => exact answers_ok _

lemma answers_checkConstraints (c : Option Constraints) (fieldType : FieldType)
    (value : Payload) : Answers (checkConstraints c fieldType value) := by
  cases c with
  | none => exact answers_ok _
  | some c => exact c.answers_validate fieldType value

lemma answers_validateFieldValue (f : Field) (c : Option Constraints) (value : Payload) :
    Answers (validateFieldValue f c value) := by
  refine (answers_validateValue _ _).bind fun _ hvalid => ?_
  refine (answers_validateItems (matchesType_of_validateValue hvalid)).bind fun _ _ => ?_
  exact answers_checkConstraints _ _ _

lemma answers_writableField (fieldIndex : ℕ) : Answers (writableField t fieldIndex) := by
  unfold writableField
  split_ifs
  · exact answers_refuse _
  · exact answers_refuse _
  · exact answers_ok _

lemma answers_validateFieldWrite (fieldIndex : ℕ) (value : Payload) :
    Answers (validateFieldWrite constraints t fieldIndex value) := by
  refine (answers_writableField fieldIndex).bind fun f _ => ?_
  split_ifs
  · exact answers_refuse _
  · exact answers_pure _
  · exact (answers_validateFieldValue _ _ _).bind fun _ _ => answers_pure _

lemma matchesType_of_validateFieldWrite {fieldIndex : ℕ} {value : Payload} {f : WritableField t fieldIndex}
    (h : validateFieldWrite constraints t fieldIndex value = .ok f) :
    value.isNil = true ∨ matchesType f.field.storageType value = true := by
  obtain ⟨g, -, h⟩ := bind_eq_ok.mp h
  split_ifs at h with hnil hrequired
  · exact .inl hnil
  · exact .inl hnil
  · right
    obtain ⟨_, hvalid, h⟩ := bind_eq_ok.mp h
    cases h
    obtain ⟨_, hvalue, -⟩ := bind_eq_ok.mp hvalid
    exact matchesType_of_validateValue hvalue

lemma answers_decodeColumn (fieldIndex : ℕ) (rawValue : Payload) (d : Decoded) :
    Answers (decodeColumn constraints t fieldIndex rawValue d) := by
  refine (answers_validateFieldWrite fieldIndex rawValue).bind fun f hf => ?_
  refine Answers.bind ?_ fun _ _ => answers_pure _
  intro hstop
  obtain ⟨harray, -, hnil, hmatches⟩ := decodePayload_eq_stop.mp hstop
  rcases matchesType_of_validateFieldWrite hf with h | h
  · rw [h] at hnil
    cases hnil
  · rw [harray, hmatches] at h
    cases h

lemma answers_decodePair (key rawValue : Payload) (d : Decoded) :
    Answers (decodePair constraints t key rawValue d) := by
  unfold decodePair
  cases key.toUsize with
  | none => exact answers_refuse _
  | some fieldIndex =>
    dsimp only
    split_ifs
    · exact answers_ok _
    · exact answers_decodeColumn fieldIndex rawValue d

lemma answers_decodePairs {k : ℕ} (hk : 2 * k ≤ items.length)
    (d : Decoded) : Answers (decodePairs constraints t items k d) := by
  induction k generalizing d with
  | zero => exact answers_ok _
  | succ k ih =>
    rw [decodePairs, elementAt_eq (by omega), elementAt_eq (by omega), ok_bind, ok_bind]
    exact (answers_decodePair _ _ d).bind fun d' _ => ih (by omega) d'

lemma answers_decodeColumnsFromPairs {value : Payload} (h : matchesType .array value = true) :
    Answers (decodeColumnsFromPairs constraints t value) := by
  refine (answers_arrItems h).bind fun items _ => ?_
  split_ifs with hodd
  · exact answers_refuse _
  · exact (answers_decodePairs (by omega) _).bind fun _ _ => answers_pure _

lemma answers_validateRequiredFieldsForCreate (columns : List ColumnValue) :
    Answers (validateRequiredFieldsForCreate t columns) := by
  unfold validateRequiredFieldsForCreate
  split_ifs
  · exact answers_ok _
  · exact answers_refuse _

end Safety
variable {scanned : List (Payload × Payload)} {d : Decoded} {rawValue : Payload}

section Meaning

variable {constraints : ℕ → Option Constraints} {t : Table}

def isFor (i : ℕ) (p : Payload × Payload) : Bool := p.1.toUsize = some i

lemma findLastValue_of_pairs (h : sparsePairs items = some ps) (i : ℕ) :
    findLastValue items i = (ps.reverse.find? (isFor i)).map Prod.snd := by
  rw [findLastValue, h]
  change (ps.reverse.find? (isFor i)).bind (fun p => some p.2) = _
  cases ps.reverse.find? (isFor i) <;> rfl

/-- The columns have, for each field, the value of the first pair that was scanned for it. -/
structure ColumnsOf (t : Table) (scanned : List (Payload × Payload)) (d : Decoded) : Prop where
  seen : ∀ i ∈ d.seen, ∃ c ∈ d.columns, c.index = i
  writable : ∀ c ∈ d.columns, c.index < t.fields.length - 2
  absent : ∀ i, scanned.find? (isFor i) = none → d.columns.find? (·.index = i) = none
  present : ∀ i p, scanned.find? (isFor i) = some p → ∃ c f,
    d.columns.find? (·.index = i) = some c ∧ t.fields[i]? = some f ∧
      fromPayload f.storageType f.itemsType p.2 = .ok c.value

lemma ColumnsOf.empty (t : Table) : ColumnsOf t [] {} where
  seen := fun _ h => absurd h not_mem_nil
  writable := fun _ h => absurd h not_mem_nil
  absent := fun _ _ => rfl
  present := fun _ _ h => by cases h

lemma ColumnsOf.skip (h : ColumnsOf t scanned d) {key : Payload} {j : ℕ} (hkey : key.toUsize = some j)
    (hseen : ∃ c ∈ d.columns, c.index = j) : ColumnsOf t (scanned ++ [(key, rawValue)]) d where
  seen := h.seen
  writable := h.writable
  absent := by
    intro i hi
    rw [find?_append, or_eq_none_iff] at hi
    exact h.absent i hi.1
  present := by
    intro i p hp
    rw [find?_append] at hp
    cases hfind : scanned.find? (isFor i) with
    | some q =>
      rw [hfind, some_or] at hp
      cases hp
      exact h.present i p hfind
    | none =>
      rw [hfind, none_or, find?_singleton] at hp
      split_ifs at hp with hfor
      obtain ⟨c, hc, rfl⟩ := hseen
      have hi : i = c.index := by
        rw [isFor, decide_eq_true_eq, hkey] at hfor
        exact (Option.some.inj hfor).symm
      subst hi
      have hnone := find?_eq_none.mp (h.absent _ hfind) c hc
      simp at hnone

variable {d' : Decoded}

lemma decodeColumn_eq_ok {j : ℕ} (h : decodeColumn constraints t j rawValue d = .ok d') :
    ∃ (f : WritableField t j) (v : Value), fromPayload f.field.storageType f.field.itemsType rawValue = .ok v ∧
      d' = { seen := if j < maxStoreFields then j :: d.seen else d.seen,
             columns := d.columns ++ [⟨j, v, f.user⟩] } := by
  obtain ⟨f, hf, h⟩ := bind_eq_ok.mp h
  obtain ⟨v, hv, h⟩ := bind_eq_ok.mp h
  cases h
  exact ⟨f, v, decodePayload_eq_ok.mp hv, rfl⟩

lemma ColumnsOf.append (h : ColumnsOf t scanned d) {key : Payload} {j : ℕ} (hkey : key.toUsize = some j)
    (hd : decodeColumn constraints t j rawValue d = .ok d') :
    ColumnsOf t (scanned ++ [(key, rawValue)]) d' := by
  obtain ⟨f, v, hv, rfl⟩ := decodeColumn_eq_ok hd
  have hfor (i : ℕ) : isFor i (key, rawValue) = decide (j = i) := by
    rw [isFor, hkey, Bool.eq_iff_iff, decide_eq_true_eq, decide_eq_true_eq, Option.some.injEq]
  refine ⟨fun i hi => ?_, fun c hc => ?_, fun i hi => ?_, fun i p hp => ?_⟩
  · have hold (hi : i ∈ d.seen) : ∃ c ∈ d.columns ++ [⟨j, v, f.user⟩], c.index = i := by
      obtain ⟨c, hc, hci⟩ := h.seen i hi
      exact ⟨c, mem_append_left _ hc, hci⟩
    dsimp only at hi
    split_ifs at hi
    · rcases mem_cons.mp hi with rfl | hi
      · exact ⟨_, mem_append_right _ mem_cons_self, rfl⟩
      · exact hold hi
    · exact hold hi
  · rcases mem_append.mp hc with hc | hc
    · exact h.writable c hc
    · cases mem_singleton.mp hc
      exact f.beforeTimestamps
  · rw [find?_append, or_eq_none_iff, find?_singleton, hfor] at hi
    rw [find?_append, h.absent i hi.1, none_or, find?_singleton]
    by_cases hj : j = i
    · simp [hj] at hi
    · simp [hj]
  · rw [find?_append] at hp
    cases hfind : scanned.find? (isFor i) with
    | some q =>
      rw [hfind, some_or] at hp
      cases hp
      obtain ⟨c, g, hc, hg, hvalue⟩ := h.present i p hfind
      exact ⟨c, g, by rw [find?_append, hc, some_or], hg, hvalue⟩
    | none =>
      rw [hfind, none_or, find?_singleton, hfor] at hp
      split_ifs at hp with hj
      rw [decide_eq_true_eq] at hj
      subst hj
      cases hp
      refine ⟨⟨j, v, f.user⟩, f.field, ?_, f.found, hv⟩
      rw [find?_append, h.absent j hfind, none_or]
      simp

lemma ColumnsOf.decodePair (h : ColumnsOf t scanned d) {key : Payload}
    (hd : decodePair constraints t key rawValue d = .ok d') :
    ColumnsOf t (scanned ++ [(key, rawValue)]) d' := by
  unfold ZyncBase.decodePair at hd
  cases hkey : key.toUsize with
  | none =>
    rw [hkey] at hd
    cases hd
  | some j =>
    rw [hkey] at hd
    dsimp only at hd
    split_ifs at hd with hseen
    · cases hd
      exact h.skip hkey (h.seen j hseen.2)
    · exact h.append hkey hd

/-- What each pair keeps as it is decoded holds after the scan, from the last pair to the first. -/
lemma scan_decodePairs {P : List (Payload × Payload) → Decoded → Prop}
    (hstep : ∀ {scanned d d' key rawValue}, P scanned d →
      decodePair constraints t key rawValue d = .ok d' → P (scanned ++ [(key, rawValue)]) d')
    (hps : sparsePairs items = some ps) {k : ℕ} (hk : k ≤ ps.length) (h : P scanned d)
    (hd : decodePairs constraints t items k d = .ok d') : P (scanned ++ (ps.take k).reverse) d' := by
  induction k generalizing scanned d with
  | zero =>
    cases hd
    simpa using h
  | succ k ih =>
    obtain ⟨hlen, hget⟩ := sparsePairs_get hps
    obtain ⟨hkey, hvalue⟩ := hget k ps[k] (getElem?_eq_getElem hk)
    rw [ZyncBase.decodePairs] at hd
    rw [elementAt, hkey, elementAt, hvalue, ok_bind, ok_bind] at hd
    obtain ⟨d₁, hd₁, hd⟩ := bind_eq_ok.mp hd
    have hrest := ih (by omega) (hstep h hd₁) hd
    rw [← take_concat_get' ps k hk, reverse_append, reverse_singleton, ← List.append_assoc]
    exact hrest

lemma scan_decodeColumnsFromPairs {P : List (Payload × Payload) → Decoded → Prop} (hempty : P [] {})
    (hstep : ∀ {scanned d d' key rawValue}, P scanned d →
      decodePair constraints t key rawValue d = .ok d' → P (scanned ++ [(key, rawValue)]) d')
    {columns : List ColumnValue}
    (h : decodeColumnsFromPairs constraints t (.arr items) = .ok columns) :
    ∃ ps seen, sparsePairs items = some ps ∧ P ps.reverse ⟨seen, columns⟩ := by
  change (if items.length % 2 ≠ 0 then _ else _) = _ at h
  split_ifs at h with hodd
  · cases h
  · obtain ⟨d, hd, h⟩ := bind_eq_ok.mp h
    cases h
    obtain ⟨ps, hps⟩ := sparsePairs_of_even (by omega : items.length % 2 = 0)
    obtain ⟨hlen, -⟩ := sparsePairs_get hps
    rw [hlen, Nat.mul_div_cancel_left _ (by omega : 0 < 2)] at hd
    have hscanned := scan_decodePairs hstep hps (le_refl _) hempty hd
    rw [nil_append, take_length] at hscanned
    exact ⟨ps, d.seen, hps, hscanned⟩

lemma columnsOf_decodeColumnsFromPairs {columns : List ColumnValue}
    (h : decodeColumnsFromPairs constraints t (.arr items) = .ok columns) :
    ∃ ps seen, sparsePairs items = some ps ∧ ColumnsOf t ps.reverse ⟨seen, columns⟩ :=
  scan_decodeColumnsFromPairs (ColumnsOf.empty t) (fun h hd => h.decodePair hd) h

end Meaning
end ZyncBase
