import ZyncBase.Authorization.DocAdmission
import ZyncBase.Storage.WriteWorker
import ZyncBase.Store.Columns

/-! Authorization of a create: a write condition is evaluated on the candidate document, and lowered
to a predicate that the row must satisfy. The two readings compared on the row that is created. -/
namespace ZyncBase

open AndOr DocPredicate List Formula Table

/-- The context of a write also knows the document and its owner. -/
structure CandidateContext extends EvalContext where
  docId : Option DocId := none
  ownerDocId : Option DocId := none

def resolveDocOperand (v : ContextVar) (ctx : CandidateContext) : Option Value :=
  if v.scope ≠ .doc then resolveContextVar v ctx.toEvalContext
  else if v.field = "id" then ctx.docId.map fun id => .scalar (.docId id)
  else if v.field = "owner_id" then ctx.ownerDocId.map fun id => .scalar (.docId id)
  else do
    let table ← ctx.valueTable
    let fieldIndex ← table.fieldIndex v.field
    let f ← table.fields[fieldIndex]?
    if f.kind = .system then none else resolveIncomingValueField v.field ctx.toEvalContext

def evaluateComparisonWithDoc (ctx : CandidateContext) (comp : Comparison) : Bool :=
  comparisonHolds comp (resolveDocOperand comp.lhs ctx) ctx.toEvalContext

/-- The truth of a condition on the candidate document. -/
def evaluateConditionWithDoc (ctx : CandidateContext) : AuthCondition → Bool :=
  eval (evaluateComparisonWithDoc ctx)

def authorizeWriteCondition (c : AuthCondition) (ctx : CandidateContext) (table : Table)
    (isCreate : Bool) : DocResult (Option FilterPredicate) :=
  if isCreate && !evaluateConditionWithDoc ctx c then .error .accessDenied
  else buildDocPredicate c ctx.toEvalContext table

/-- The context in which a write of the payload to a document is authorized. -/
def CandidateContext.ofWrite (base : EvalContext) (t : Table) (docId ownerDocId : DocId)
    (value : Payload) : CandidateContext :=
  { base with
    valuePayload := some value, valueTable := some t, presenceFields := none, actionFields := none
    docId := some docId, ownerDocId := some ownerDocId }

/-- The record of the row that a create stores. Users own themselves. -/
def createdRecord (t : Table) (namespaceId : ℤ) (docId ownerDocId : DocId)
    (columns : List ColumnValue) (createdAt : ℤ) : Record :=
  (newRow t namespaceId (if t.isUsersTable then docId else ownerDocId)
    (if t.isUsersTable then some (hexSlice docId) else none) columns createdAt).record docId

section Differences

variable (t : Table) (namespaceId : ℤ) (docId ownerDocId : DocId) (createdAt : ℤ)

/-- The fields whose value in the candidate is not that of the row, with both values. -/
def alteredField (field : String) : Option (Option Value × Value) :=
  if field = "namespace_id" then some (none, .scalar (.integer namespaceId))
  else if field = "owner_id" then
    if t.isUsersTable then some (some (.scalar (.docId ownerDocId)), .scalar (.docId docId))
    else none
  else if field = "created_at" ∨ field = "updated_at" then
    some (some .nil, .scalar (.integer createdAt))
  else none

variable (ctx : EvalContext) (r : Record)

/-- A comparison on the document that comes out otherwise on such a field. -/
def altersComparison (comp : Comparison) : Bool :=
  comp.lhs.scope = .doc &&
    match alteredField t namespaceId docId ownerDocId createdAt comp.lhs.field with
    | none => false
    | some (candidate, stored) =>
      comparisonHolds comp candidate ctx != comparisonHolds comp (some stored) ctx

mutual

/-- The altered comparisons change the truth of the condition. -/
def alters : AuthCondition → Bool
  | .boolean _ => false
  | .comparison comp => altersComparison t namespaceId docId ownerDocId createdAt ctx comp
  | .logicalAnd conds =>
    if conds.all (conditionHolds ctx t r) then altersSome conds else allBecome true conds
  | .logicalOr conds =>
    if conds.any (conditionHolds ctx t r) then allBecome false conds else altersSome conds

def altersSome : List AuthCondition → Bool
  | [] => false
  | c :: cs => alters c || altersSome cs

/-- With the altered comparisons, all terms have this truth. -/
def allBecome (b : Bool) : List AuthCondition → Bool
  | [] => true
  | c :: cs => (conditionHolds ctx t r c != alters c) == b && allBecome b cs

end

/-- The predicate decides otherwise than the condition on the row: it is not built for want of an
operand, or it misreads a disjunction, on a row on which the condition is true; or it takes a `notIn`
over the empty set for true on one on which the condition is false. -/
def misleads (c : AuthCondition) : Bool :=
  if conditionHolds ctx t r c then missesOperand ctx c || misread ctx t r c
  else foldedHolds ctx t r c && !misread ctx t r c && !missesOperand ctx c

lemma altersSome_eq (cs : List AuthCondition) : altersSome t namespaceId docId ownerDocId createdAt ctx r cs =
    cs.any (alters t namespaceId docId ownerDocId createdAt ctx r) := by
  induction cs with
  | nil => rfl
  | cons c cs ih => rw [altersSome, ih, any_cons]

lemma allBecome_eq (b : Bool) (cs : List AuthCondition) :
    allBecome t namespaceId docId ownerDocId createdAt ctx r b cs =
      cs.all fun c => (conditionHolds ctx t r c !=
        alters t namespaceId docId ownerDocId createdAt ctx r c) == b := by
  induction cs with
  | nil => rfl
  | cons c cs ih => rw [allBecome, ih, all_cons]

lemma alters_eq {leaf : Comparison → Bool}
    (hleaf : ∀ comp, leaf comp = (leafHolds ctx t r comp !=
      altersComparison t namespaceId docId ownerDocId createdAt ctx comp)) (c : AuthCondition) :
    eval leaf c =
      (conditionHolds ctx t r c != alters t namespaceId docId ownerDocId createdAt ctx r c) := by
  induction c using inductChildren with
  | hb b => cases b <;> rfl
  | hc comp => rw [eval_comparison, hleaf, conditionHolds, eval_comparison, alters]
  | ha cs ih =>
    have hcand : eval leaf (.logicalAnd cs) = cs.all fun c => conditionHolds ctx t r c !=
        alters t namespaceId docId ownerDocId createdAt ctx r c := by
      rw [eval, evalAll_eq]
      exact all_congr_of_mem ih
    have hrow : conditionHolds ctx t r (.logicalAnd cs) = cs.all (conditionHolds ctx t r) := by
      rw [conditionHolds, eval, evalAll_eq]
    rw [hcand, hrow, alters, altersSome_eq, allBecome_eq]
    cases hall : cs.all (conditionHolds ctx t r) with
    | false => simp
    | true =>
      rw [if_pos rfl, Bool.true_bne, not_any_eq_all_not]
      refine all_congr_of_mem fun c hc => ?_
      rw [all_eq_true.mp hall c hc, Bool.true_bne]
  | ho cs ih =>
    have hcand : eval leaf (.logicalOr cs) = !cs.all fun c => (conditionHolds ctx t r c !=
        alters t namespaceId docId ownerDocId createdAt ctx r c) == false := by
      rw [eval, evalAny_eq, not_all_eq_any_not]
      refine Bool.eq_iff_iff.mpr ?_
      rw [any_eq_true, any_eq_true]
      refine exists_congr fun c => and_congr_right fun hc => ?_
      rw [ih c hc]
      simp
    have hrow : conditionHolds ctx t r (.logicalOr cs) = cs.any (conditionHolds ctx t r) := by
      rw [conditionHolds, eval, evalAny_eq]
    rw [hcand, hrow, alters, altersSome_eq, allBecome_eq]
    cases hany : cs.any (conditionHolds ctx t r) with
    | true => simp
    | false =>
      rw [if_neg Bool.false_ne_true, Bool.false_bne, not_all_eq_any_not]
      refine Bool.eq_iff_iff.mpr ?_
      rw [any_eq_true, any_eq_true]
      refine exists_congr fun c => and_congr_right fun hc => ?_
      have hfalse : conditionHolds ctx t r c = false := by
        rw [any_eq_false] at hany
        exact Bool.eq_false_iff.mpr (hany c hc)
      rw [hfalse]
      simp

end Differences
lemma Table.fieldIndex_eq_some {t : Table} {name : String} {i : ℕ} :
    t.fieldIndex name = some i ↔ ∃ f, t.fields[i]? = some f ∧ f.name = name := by
  rw [fieldIndex, findIdx?_eq_some_iff_getElem]
  constructor
  · rintro ⟨hi, hname, -⟩
    exact ⟨_, getElem?_eq_getElem hi, by simpa using hname⟩
  · rintro ⟨f, hf, rfl⟩
    obtain ⟨hi, rfl⟩ := List.getElem?_eq_some_iff.mp hf
    refine ⟨hi, beq_self_eq_true _, fun j hj => ?_⟩
    have hnames : (t.fields.map Field.name).Nodup := t.names_nodup
    have hlen : (t.fields.map Field.name).length = t.fields.length := length_map _
    have hne := pairwise_iff_getElem.mp hnames j i (by omega) (by omega) hj
    simpa using hne

section Row

variable {t : Table} {namespaceId : ℤ} {docId ownerDocId : DocId} {columns : List ColumnValue} {createdAt : ℤ}

lemma length_foldl_set (columns : List ColumnValue) (fs : List Value) :
    (columns.foldl (fun fs c => fs.set (c.index - firstUserFieldIndex) c.value) fs).length = fs.length := by
  induction columns generalizing fs with
  | nil => rfl
  | cons c cs ih => rw [foldl_cons, ih, length_set]

lemma getElem?_setColumns (columns : List ColumnValue) (fs : List Value) (j : ℕ) :
    (columns.reverse.foldl (fun fs c => fs.set (c.index - firstUserFieldIndex) c.value) fs)[j]? =
      match columns.find? (·.index = firstUserFieldIndex + j) with
      | some c => fs[j]?.map fun _ => c.value
      | none => fs[j]? := by
  induction columns with
  | nil => rfl
  | cons c cs ih =>
    rw [reverse_cons, foldl_append, foldl_cons, foldl_nil, getElem?_set, find?_cons]
    have huser := c.user
    by_cases hj : c.index = firstUserFieldIndex + j
    · have hsub : c.index - firstUserFieldIndex = j := by omega
      rw [hsub, if_pos rfl, length_foldl_set, decide_eq_true hj]
      by_cases hlt : j < fs.length
      · simp [hlt]
      · simp [hlt]
    · rw [if_neg (by omega), ih, decide_eq_false hj]

lemma createdRecord_userField {i : ℕ} (hfirst : firstUserFieldIndex ≤ i) (hlast : i < t.fields.length - 2) :
    (createdRecord t namespaceId docId ownerDocId columns createdAt).values[i]? =
      some (((columns.find? (·.index = i)).map ColumnValue.value).getD .nil) := by
  obtain ⟨j, rfl⟩ := Nat.exists_eq_add_of_le hfirst
  rw [fields_length] at hlast
  have hthree : firstUserFieldIndex = 3 := rfl
  have hj : j < t.userFields.length := by omega
  have hlen : (List.replicate t.userFields.length Value.nil).length = t.userFields.length :=
    length_replicate
  have hget := getElem?_setColumns columns (List.replicate t.userFields.length Value.nil) j
  rw [getElem?_replicate, if_pos hj] at hget
  have hfields : (columns.reverse.foldl (fun fs c => fs.set (c.index - firstUserFieldIndex) c.value)
      (List.replicate t.userFields.length Value.nil))[j]? =
      some (((columns.find? (·.index = firstUserFieldIndex + j)).map ColumnValue.value).getD
        .nil) := by
    rw [hget]
    cases columns.find? (·.index = firstUserFieldIndex + j) <;> rfl
  rw [createdRecord, newRow, Row.insertColumns, Row.setColumns, Row.record, append_assoc,
    getElem?_append_right (by simp [firstUserFieldIndex]), getElem?_append_left]
  · rw [← hfields]
    congr 1
    simp [firstUserFieldIndex]
  · rw [length_foldl_set, hlen]
    simp only [firstUserFieldIndex, length_cons, length_nil]
    omega

lemma createdRecord_ownerId : (createdRecord t namespaceId docId ownerDocId columns createdAt).values[2]? =
    some (.scalar (.docId (if t.isUsersTable then docId else ownerDocId))) := rfl

lemma createdRecord_timestamp {i : ℕ} (hlast : t.fields.length - 2 ≤ i) (hi : i < t.fields.length) :
    (createdRecord t namespaceId docId ownerDocId columns createdAt).values[i]? =
      some (.scalar (.integer createdAt)) := by
  rw [fields_length] at hlast hi
  have hlen : (columns.reverse.foldl (fun fs c => fs.set (c.index - firstUserFieldIndex) c.value)
      (List.replicate t.userFields.length Value.nil)).length = t.userFields.length := by
    rw [length_foldl_set, length_replicate]
  rw [createdRecord, newRow, Row.insertColumns, Row.setColumns, Row.record, getElem?_append_right]
  · rw [length_append, hlen]
    simp only [length_cons, length_nil]
    rcases (by omega : i = t.userFields.length + 3 ∨ i = t.userFields.length + 4) with rfl | rfl
    · rw [show t.userFields.length + 3 - (0 + 1 + 1 + 1 + t.userFields.length) = 0 by omega]
      rfl
    · rw [show t.userFields.length + 4 - (0 + 1 + 1 + 1 + t.userFields.length) = 1 by omega]
      rfl
  · rw [length_append, hlen]
    simp only [length_cons, length_nil]
    omega

end Row

section Fields

variable {t : Table} {i : ℕ} {f : Field}

lemma Table.field_cases (hf : t.fields[i]? = some f) : (i = 0 ∧ f.name = "id" ∧ f.kind = .system) ∨
    (i = 1 ∧ f.name = "namespace_id" ∧ f.kind = .system) ∨
    (i = 2 ∧ f.name = "owner_id" ∧ f.kind = .system) ∨
    (firstUserFieldIndex ≤ i ∧ i < t.fields.length - 2 ∧ f.kind = .user) ∨
    (t.fields.length - 2 ≤ i ∧ i < t.fields.length ∧ f.kind = .timestamp ∧
      (f.name = "created_at" ∨ f.name = "updated_at")) := by
  obtain ⟨hi, -⟩ := List.getElem?_eq_some_iff.mp hf
  have hlen := t.fields_length
  have hthree : firstUserFieldIndex = 3 := rfl
  rw [fields, append_assoc] at hf
  rcases i with _ | _ | _ | j
  · cases hf
    exact .inl ⟨rfl, rfl, rfl⟩
  · cases hf
    exact .inr (.inl ⟨rfl, rfl, rfl⟩)
  · cases hf
    exact .inr (.inr (.inl ⟨rfl, rfl, rfl⟩))
  · right; right; right
    rw [getElem?_append_right (by simp [leadingSystemFields])] at hf
    change (t.userFields ++ trailingSystemFields)[j + 3 - 3]? = some f at hf
    rw [Nat.add_sub_cancel] at hf
    by_cases hj : j < t.userFields.length
    · rw [getElem?_append_left hj] at hf
      exact .inl ⟨by omega, by omega, (t.fields_wellFormed f (mem_of_getElem? hf)).kind⟩
    · rw [getElem?_append_right (by omega)] at hf
      right
      rcases (by omega : j = t.userFields.length ∨ j = t.userFields.length + 1) with rfl | rfl
      · rw [Nat.sub_self] at hf
        cases hf
        exact ⟨by omega, hi, rfl, .inl rfl⟩
      · rw [Nat.add_sub_cancel_left] at hf
        cases hf
        exact ⟨by omega, hi, rfl, .inr rfl⟩

lemma Table.getElem?_timestamps (t : Table) {j : ℕ} :
    t.fields[t.userFields.length + 3 + j]? = trailingSystemFields[j]? := by
  have hlen : (leadingSystemFields ++ t.userFields).length = t.userFields.length + 3 := by
    rw [length_append, Nat.add_comm]
    rfl
  rw [fields, getElem?_append_right (by omega), hlen, Nat.add_sub_cancel_left]

lemma Table.systemFields (t : Table) {name : String}
    (h : name = "id" ∨ name = "namespace_id" ∨ name = "owner_id" ∨ name = "created_at" ∨
      name = "updated_at") : ∃ (i : ℕ) (f : Field), t.fields[i]? = some f ∧ f.name = name ∧
      f.kind ≠ .user := by
  rcases h with rfl | rfl | rfl | rfl | rfl
  · exact ⟨0, _, rfl, rfl, by decide⟩
  · exact ⟨1, _, rfl, rfl, by decide⟩
  · exact ⟨2, _, rfl, rfl, by decide⟩
  · exact ⟨_, _, t.getElem?_timestamps (j := 0), rfl, by decide⟩
  · exact ⟨_, _, t.getElem?_timestamps (j := 1), rfl, by decide⟩

lemma Table.name_of_user (hf : t.fields[i]? = some f) (hkind : f.kind = .user) :
    f.name ≠ "id" ∧ f.name ≠ "namespace_id" ∧ f.name ≠ "owner_id" ∧ f.name ≠ "created_at" ∧
      f.name ≠ "updated_at" := by
  have hne {name : String} (h : name = "id" ∨ name = "namespace_id" ∨ name = "owner_id" ∨
      name = "created_at" ∨ name = "updated_at") : f.name ≠ name := by
    intro hname
    obtain ⟨j, g, hg, hgname, hgkind⟩ := t.systemFields h
    have hfi : t.fieldIndex name = some i := fieldIndex_eq_some.mpr ⟨f, hf, hname⟩
    rw [fieldIndex_eq_some.mpr ⟨g, hg, hgname⟩, Option.some.injEq] at hfi
    subst hfi
    rw [hf, Option.some.injEq] at hg
    subst hg
    exact hgkind hkind
  exact ⟨hne (by tauto), hne (by tauto), hne (by tauto), hne (by tauto), hne (by tauto)⟩

end Fields
section Candidate

variable {t : Table} {constraints : ℕ → Option Constraints} {items : List Payload} {columns : List ColumnValue}

lemma decodeSparse_eq (h : decodeColumnsFromPairs constraints t (.arr items) = .ok columns)
    {i : ℕ} {f : Field} (hf : t.fields[i]? = some f) :
    decodeSparse items i f.storageType f.itemsType =
      some (((columns.find? (·.index = i)).map ColumnValue.value).getD .nil) := by
  obtain ⟨ps, seen, hps, hcols⟩ := columnsOf_decodeColumnsFromPairs h
  rw [decodeSparse, findLastValue_of_pairs hps]
  cases hfind : ps.reverse.find? (isFor i) with
  | none =>
    have hcol : columns.find? (·.index = i) = none := hcols.absent i hfind
    rw [hcol]
    rfl
  | some p =>
    obtain ⟨c, g, hc, hg, hvalue⟩ := hcols.present i p hfind
    rw [hf, Option.some.injEq] at hg
    subst hg
    have hcol : columns.find? (·.index = i) = some c := hc
    rw [hcol]
    simp only [Option.map_some, Option.getD_some, hvalue]
    rfl

lemma column_of_unwritable (h : decodeColumnsFromPairs constraints t (.arr items) = .ok columns)
    {i : ℕ} (hi : t.fields.length - 2 ≤ i) : columns.find? (·.index = i) = none := by
  obtain ⟨ps, seen, -, hcols⟩ := columnsOf_decodeColumnsFromPairs h
  refine find?_eq_none.mpr fun c hc => ?_
  have := hcols.writable c hc
  simpa using by omega

variable (namespaceId : ℤ) (docId ownerDocId : DocId) (createdAt : ℤ)

/-- An operand on the candidate has the value of the field in the row, but for the fields whose value
is altered. -/
lemma resolveDocOperand_ofWrite (namespaceId : ℤ) (docId ownerDocId : DocId) (createdAt : ℤ)
    (base : EvalContext)
    (h : decodeColumnsFromPairs constraints t (.arr items) = .ok columns) {v : ContextVar}
    (hs : v.scope = .doc) :
    match alteredField t namespaceId docId ownerDocId createdAt v.field with
    | none => resolveDocOperand v (.ofWrite base t docId ownerDocId (.arr items)) = (t.fieldIndex v.field).bind
          ((createdRecord t namespaceId docId ownerDocId columns createdAt).values[·]?)
    | some (candidate, stored) =>
      resolveDocOperand v (.ofWrite base t docId ownerDocId (.arr items)) = candidate ∧
        (t.fieldIndex v.field).bind
          ((createdRecord t namespaceId docId ownerDocId columns createdAt).values[·]?) = some stored := by
  have hincoming : resolveIncomingValueField v.field
      (CandidateContext.ofWrite base t docId ownerDocId (.arr items)).toEvalContext =
      (t.fieldIndex v.field).bind fun i => t.fields[i]?.bind fun f =>
        decodeSparse items i f.storageType f.itemsType := rfl
  have hother (hid : v.field ≠ "id") (howner : v.field ≠ "owner_id") :
      resolveDocOperand v (.ofWrite base t docId ownerDocId (.arr items)) =
        (t.fieldIndex v.field).bind fun i => t.fields[i]?.bind fun f =>
          if f.kind = .system then none
          else (t.fieldIndex v.field).bind fun i => t.fields[i]?.bind fun f =>
            decodeSparse items i f.storageType f.itemsType := by
    rw [resolveDocOperand, if_neg (not_not.mpr hs), if_neg hid, if_neg howner, ← hincoming]
    rfl
  cases hindex : t.fieldIndex v.field with
  | none =>
    have hne {name : String} (h : name = "id" ∨ name = "namespace_id" ∨ name = "owner_id" ∨
        name = "created_at" ∨ name = "updated_at") : v.field ≠ name := by
      rintro rfl
      obtain ⟨i, f, hf, hname, -⟩ := t.systemFields h
      rw [fieldIndex_eq_some.mpr ⟨f, hf, hname⟩] at hindex
      cases hindex
    have hid : v.field ≠ "id" := hne (by tauto)
    have hns : v.field ≠ "namespace_id" := hne (by tauto)
    have howner : v.field ≠ "owner_id" := hne (by tauto)
    have hcreated : ¬ (v.field = "created_at" ∨ v.field = "updated_at") :=
      not_or.mpr ⟨hne (by tauto), hne (by tauto)⟩
    rw [alteredField, if_neg hns, if_neg howner, if_neg hcreated]
    dsimp only
    rw [hother hid howner, hindex]
    rfl
  | some i =>
    obtain ⟨f, hf, hname⟩ := fieldIndex_eq_some.mp hindex
    rw [Option.bind_some]
    rcases field_cases hf with ⟨rfl, hn, -⟩ | ⟨rfl, hn, hkind⟩ | ⟨rfl, hn, hkind⟩ |
      ⟨hfirst, hlast, hkind⟩ | ⟨hfirst, hlast, hkind, hn⟩
    · rw [hn] at hname
      rw [← hname]
      change resolveDocOperand v _ = _
      rw [resolveDocOperand, if_neg (not_not.mpr hs), if_pos hname.symm]
      rfl
    · rw [hn] at hname
      rw [← hname]
      refine ⟨?_, rfl⟩
      rw [hother (by rw [← hname]; decide) (by rw [← hname]; decide), hindex, Option.bind_some, hf,
        Option.bind_some, if_pos hkind]
    · rw [hn] at hname
      have hresolve : resolveDocOperand v (.ofWrite base t docId ownerDocId (.arr items)) =
          some (.scalar (.docId ownerDocId)) := by
        rw [resolveDocOperand, if_neg (not_not.mpr hs), if_neg (by rw [← hname]; decide), if_pos hname.symm]
        rfl
      rw [← hname, alteredField, if_neg (by decide), if_pos rfl, createdRecord_ownerId]
      by_cases husers : t.isUsersTable = true
      · rw [if_pos husers, if_pos husers]
        exact ⟨hresolve, rfl⟩
      · rw [if_neg husers, if_neg husers]
        exact hresolve
    · obtain ⟨hid, hns, howner, hcreated, hupdated⟩ := name_of_user hf hkind
      rw [hname] at hid hns howner hcreated hupdated
      rw [alteredField, if_neg hns, if_neg howner, if_neg (not_or.mpr ⟨hcreated, hupdated⟩)]
      change resolveDocOperand v _ = _
      rw [hother hid howner, hindex, Option.bind_some, hf, Option.bind_some, if_neg (by rw [hkind]; decide),
        Option.bind_some, hf, Option.bind_some, decodeSparse_eq h hf, createdRecord_userField hfirst hlast]
    · rw [hname] at hn
      have hid : v.field ≠ "id" := by rcases hn with hn | hn <;> rw [hn] <;> decide
      have hns : v.field ≠ "namespace_id" := by rcases hn with hn | hn <;> rw [hn] <;> decide
      have howner : v.field ≠ "owner_id" := by rcases hn with hn | hn <;> rw [hn] <;> decide
      rw [alteredField, if_neg hns, if_neg howner, if_pos hn]
      refine ⟨?_, createdRecord_timestamp hfirst hlast⟩
      rw [hother hid howner, hindex, Option.bind_some, hf, Option.bind_some, if_neg (by rw [hkind]; decide),
        Option.bind_some, hf, Option.bind_some, decodeSparse_eq h hf, column_of_unwritable h hfirst]
      rfl

lemma evaluateComparisonWithDoc_eq (base : EvalContext)
    (h : decodeColumnsFromPairs constraints t (.arr items) = .ok columns) (comp : Comparison) :
    evaluateComparisonWithDoc (.ofWrite base t docId ownerDocId (.arr items)) comp =
      (leafHolds (CandidateContext.ofWrite base t docId ownerDocId (.arr items)).toEvalContext t
          (createdRecord t namespaceId docId ownerDocId columns createdAt) comp !=
        altersComparison t namespaceId docId ownerDocId createdAt
          (CandidateContext.ofWrite base t docId ownerDocId (.arr items)).toEvalContext comp) := by
  rw [evaluateComparisonWithDoc, leafHolds, altersComparison]
  by_cases hs : comp.lhs.scope = .doc
  · have hresolve := resolveDocOperand_ofWrite namespaceId docId ownerDocId createdAt base h hs
    rw [if_pos hs, decide_eq_true hs, Bool.true_and]
    cases haltered : alteredField t namespaceId docId ownerDocId createdAt comp.lhs.field with
    | none =>
      rw [haltered] at hresolve
      rw [hresolve, Bool.bne_false]
    | some values =>
      obtain ⟨candidate, stored⟩ := values
      rw [haltered] at hresolve
      rw [hresolve.1, hresolve.2]
      dsimp only
      cases comparisonHolds comp candidate _ <;> cases comparisonHolds comp (some stored) _ <;> rfl
  · rw [if_neg hs, decide_eq_false hs, Bool.false_and, Bool.bne_false, resolveDocOperand, if_pos hs,
      evaluateComparison, if_neg hs]
    cases comparisonHolds comp _ _ <;> rfl

end Candidate

lemma admits_eq_misleads {c : AuthCondition} {ctx : EvalContext} {t : Table}
    (hv : validateDocPredicate c t = .ok ()) (r : Record) :
    (admits (buildDocPredicate c ctx t) r = some true ↔
      (conditionHolds ctx t r c != misleads t ctx r c) = true) := by
  have hmono : conditionHolds ctx t r c = true → foldedHolds ctx t r c = true :=
    foldedHolds_of_conditionHolds
  cases hmiss : missesOperand ctx c with
  | true =>
    rw [buildDocPredicate_missing hv hmiss, misleads, hmiss]
    cases conditionHolds ctx t r c <;> simp [admits]
  | false =>
    rw [admits_buildDocPredicate hv hmiss, misleads, hmiss]
    cases hf : foldedHolds ctx t r c <;> cases hc : conditionHolds ctx t r c <;>
      cases hm : misread ctx t r c <;> simp_all

/-- On the create path, the condition allows the write exactly when its predicate is satisfied by the
row that is created, unless one of the two, and not the other, is led astray: the condition by the
fields that the candidate has otherwise than the row, the predicate by its lowering. -/
theorem create_path_agrees_iff {c : AuthCondition} {t : Table} (base : EvalContext)
    (docId ownerDocId : DocId) {constraints : ℕ → Option Constraints} {items : List Payload}
    {columns : List ColumnValue} (namespaceId createdAt : ℤ) (hvalid : validateDocPredicate c t = .ok ())
    (hcolumns : decodeColumnsFromPairs constraints t (.arr items) = .ok columns) :
    let ctx := CandidateContext.ofWrite base t docId ownerDocId (.arr items)
    let row := createdRecord t namespaceId docId ownerDocId columns createdAt
    (evaluateConditionWithDoc ctx c = true ↔
        admits (buildDocPredicate c ctx.toEvalContext t) row = some true) ↔
      (alters t namespaceId docId ownerDocId createdAt ctx.toEvalContext row c = true ↔
        misleads t ctx.toEvalContext row c = true) := by
  intro ctx row
  rw [admits_eq_misleads hvalid, evaluateConditionWithDoc,
    alters_eq t namespaceId docId ownerDocId createdAt ctx.toEvalContext row
      (evaluateComparisonWithDoc_eq namespaceId docId ownerDocId createdAt base hcolumns)]
  cases conditionHolds ctx.toEvalContext t row c <;>
    cases alters t namespaceId docId ownerDocId createdAt ctx.toEvalContext row c <;>
    cases misleads t ctx.toEvalContext row c <;> decide

namespace CreateExample

open AdmissionExample

/-- A page with the title `a` by the author `c`. -/
def page : List Payload := [.uint 3, .str [97], .uint 4, .str [99]]

def pageColumns : List ColumnValue :=
  [⟨4, .scalar (.text [99]), by decide⟩, ⟨3, .scalar (.text [97]), first_user_column⟩]

lemma page_columns : decodeColumnsFromPairs (fun _ => none) pageTable (.arr page) = .ok pageColumns := rfl

def pageContext : CandidateContext := .ofWrite {} pageTable 7 8 (.arr page)

def pageRow : Record := createdRecord pageTable 1 7 8 pageColumns 5

/-- The two readings of a condition on the title alone. -/
theorem create_path_agrees_iff_title :
    (evaluateConditionWithDoc pageContext (docEquals "title" [97]) = true ↔
        admits (buildDocPredicate (docEquals "title" [97]) pageContext.toEvalContext pageTable)
          pageRow = some true) ↔
      (alters pageTable 1 7 8 5 pageContext.toEvalContext pageRow (docEquals "title" [97]) = true ↔
        misleads pageTable pageContext.toEvalContext pageRow (docEquals "title" [97]) = true) :=
  create_path_agrees_iff {} 7 8 1 5 rfl page_columns

/-- A page with the right title and another author may be created, but does not satisfy the predicate
of the condition that allowed it. -/
theorem titled_page_disagrees : validateDocPredicate titleOrAuthor pageTable = .ok () ∧
    decodeColumnsFromPairs (fun _ => none) pageTable (.arr page) = .ok pageColumns ∧
    evaluateConditionWithDoc pageContext titleOrAuthor = true ∧
    admits (buildDocPredicate titleOrAuthor pageContext.toEvalContext pageTable) pageRow = some false := by
  refine ⟨rfl, page_columns, ?_, ?_⟩
  · decide
  · decide

end CreateExample
end ZyncBase
