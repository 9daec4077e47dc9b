import ZyncBase.Sql.Where

/-! Rendering of filter predicates to SQL, and the WHERE expression that the text denotes. -/
namespace ZyncBase

open SqlBuf

inductive SqlError where
  | invalidConditionFormat | missingConditionValue | invalidConditionValue
  deriving DecidableEq, Repr

def requireValue (c : Condition) : Except SqlError Value :=
  match c.value with
  | none => .error .missingConditionValue
  | some v => .ok v

/-- The comparison behind an operator; `none` for the other operators. -/
def cmpOp : Operator → Option CmpOp
  | .eq => some .eq
  | .ne => some .ne
  | .gt => some .gt
  | .lt => some .lt
  | .gte => some .gte
  | .lte => some .lte
  | _ => none

def escapeLikePattern (text : Bytes) : Bytes := likeSyntax.escape text

def appendLikePredicate (b : SqlBuf) (v : Value) (pattern : LikePattern) : Except SqlError SqlBuf :=
  match v with
  | .scalar (.text text) =>
    .ok ((((b.appendSlice " LIKE ").appendSlice pattern.sql).appendSlice " ESCAPE '\\'").appendValue
      (.scalar (.text (escapeLikePattern text))))
  | _ => .error .invalidConditionValue

def appendArrayContainsSql (b : SqlBuf) (column : String) (v : Value) : SqlBuf :=
  (((b.appendSlice " IS NOT NULL AND EXISTS (SELECT 1 FROM json_each(").appendSlice
    column).appendSlice ") WHERE json_each.value = ?)").appendValue v

/-- One placeholder for each item of a membership operand. -/
def appendInItems (isFirst : Bool) (b : SqlBuf) : List ScalarValue → SqlBuf
  | [] => b
  | s :: ss =>
    let b := if isFirst then b else b.appendSlice ", "
    appendInItems false ((b.appendSlice "?").appendValue (.scalar s)) ss

def appendInPredicate (b : SqlBuf) (c : Condition) : SqlBuf :=
  let b := b.appendSlice (if c.op = .notIn then " NOT IN (" else " IN (")
  let b := match c.value with
    | some (.array items) => appendInItems true b items
    | some v => (b.appendSlice "?").appendValue v
    | none => b
  b.appendSlice ")"

def appendConditionTest (b : SqlBuf) (column : String) (c : Condition) : Except SqlError SqlBuf :=
  match c.op with
  | .eq | .ne | .gt | .lt | .gte | .lte => do
    let v ← requireValue c
    match cmpOp c.op with
    | some op => return (b.appendSlice op.sql).appendValue v
    | none => throw .invalidConditionFormat
  | .contains => do
    let v ← requireValue c
    if c.fieldType = .array then return appendArrayContainsSql b column v
    appendLikePredicate b v .anywhere
  | .startsWith => do appendLikePredicate b (← requireValue c) .atStart
  | .endsWith => do appendLikePredicate b (← requireValue c) .atEnd
  | .isIn | .notIn => .ok (appendInPredicate b c)
  | .isNull => .ok (b.appendSlice " IS NULL")
  | .isNotNull => .ok (b.appendSlice " IS NOT NULL")

def appendConditionSql (t : Table) (b : SqlBuf) (c : Condition) : Except SqlError SqlBuf :=
  match t.fields[c.fieldIndex]? with
  | none => .error .invalidConditionFormat
  | some f => appendConditionTest (b.appendSlice f.nameQuoted) f.nameQuoted c

/-- A separated list of conditions; returns whether the list is still empty. -/
def appendConditionList (t : Table) (sep : String) (isFirst : Bool) (b : SqlBuf) :
    List Condition → Except SqlError (Bool × SqlBuf)
  | [] => .ok (isFirst, b)
  | c :: cs => do
    let b := if isFirst then b else b.appendSlice sep
    appendConditionList t sep false (← appendConditionSql t b c) cs

/-- The OR clauses, continuing the AND list of the conditions. Empty clauses are skipped. -/
def appendClauses (t : Table) (isFirst : Bool) (b : SqlBuf) : List OrClause → Except SqlError SqlBuf
  | [] => .ok b
  | clause :: clauses =>
    if clause.isEmpty then appendClauses t isFirst b clauses
    else do
      let b := if isFirst then b else b.appendSlice " AND "
      let (_, b) ← appendConditionList t " OR " true (b.appendSlice "(") clause
      appendClauses t false (b.appendSlice ")") clauses

def appendFilterPredicateSql (t : Table) (b : SqlBuf) (p : FilterPredicate) : Except SqlError SqlBuf :=
  if p.isAlwaysTrue then .ok (b.appendSlice "1")
  else if p.isAlwaysFalse then .ok (b.appendSlice "0")
  else do
    let (isFirst, b) ← appendConditionList t " AND " true b (p.conditions.getD [])
    appendClauses t isFirst b (p.orClauses.getD [])

def conditionAtom (column : String) (c : Condition) : Except SqlError SqlAtom :=
  match c.op with
  | .eq | .ne | .gt | .lt | .gte | .lte => do
    let v ← requireValue c
    match cmpOp c.op with
    | some op => return .compare column op v
    | none => throw .invalidConditionFormat
  | .contains => do
    let v ← requireValue c
    if c.fieldType = .array then return .arrayContains column v
    likeAtom column v .anywhere
  | .startsWith => do likeAtom column (← requireValue c) .atStart
  | .endsWith => do likeAtom column (← requireValue c) .atEnd
  | .isIn | .notIn => .ok (.inList column (c.op = .notIn) (inOperands c.value))
  | .isNull => .ok (.isNull column false)
  | .isNotNull => .ok (.isNull column true)
where
  likeAtom (column : String) (v : Value) (pattern : LikePattern) : Except SqlError SqlAtom :=
    match v with
    | .scalar (.text text) =>
      .ok (.like column pattern (.scalar (.text (escapeLikePattern text))))
    | _ => .error .invalidConditionValue
  inOperands : Option Value → List Value
    | some (.array items) => items.map .scalar
    | some v => [v]
    | none => []

def fieldAtom (t : Table) (c : Condition) : Except SqlError SqlAtom :=
  match t.fields[c.fieldIndex]? with
  | none => .error .invalidConditionFormat
  | some f => conditionAtom f.nameQuoted c

def fieldAtoms (t : Table) : List Condition → Except SqlError (List SqlAtom)
  | [] => .ok []
  | c :: cs => do return (← fieldAtom t c) :: (← fieldAtoms t cs)

def clauseAtoms (t : Table) : List OrClause → Except SqlError (List (List SqlAtom))
  | [] => .ok []
  | clause :: clauses =>
    if clause.isEmpty then clauseAtoms t clauses
    else do return (← fieldAtoms t clause) :: (← clauseAtoms t clauses)

/-- The WHERE expression of a predicate. -/
def filterWhere (t : Table) (p : FilterPredicate) : Except SqlError SqlWhere :=
  if p.isAlwaysTrue then .ok .one
  else if p.isAlwaysFalse then .ok .zero
  else do
    let atoms ← fieldAtoms t (p.conditions.getD [])
    let groups ← clauseAtoms t (p.orClauses.getD [])
    return .allOf (atoms.map .atom ++ groups.map .anyOf)

lemma appendInItems_eq (isFirst : Bool) (b : SqlBuf) (items : List ScalarValue) :
    appendInItems isFirst b items =
      b ++ joinFrom ", " isFirst (items.map fun s => ⟨["?"], [.scalar s]⟩) := by
  induction items generalizing isFirst b with
  | nil => cases isFirst <;> simp [appendInItems, joinFrom, join, joinTail]
  | cons s ss ih =>
    rw [appendInItems, List.map_cons, joinFrom_cons, ih]
    cases isFirst <;>
      simp [append_def, appendSlice, appendValue, lit]

lemma appendInPredicate_eq (b : SqlBuf) (column : String) (c : Condition) :
    appendInPredicate (b.appendSlice column) c =
      b ++ (SqlAtom.inList column (c.op = .notIn) (conditionAtom.inOperands c.value)).print := by
  simp only [appendInPredicate, SqlAtom.print]
  cases hv : c.value with
  | none =>
    simp [conditionAtom.inOperands, join, appendSlice, append_def, lit]
  | some v =>
    cases v with
    | array items =>
      simp [conditionAtom.inOperands, appendInItems_eq, joinFrom, appendSlice,
        append_def, lit, Function.comp_def]
    | _ =>
      simp [conditionAtom.inOperands, join, joinTail, appendSlice,
        appendValue, append_def, lit]

lemma appendLikePredicate_eq (b : SqlBuf) (column : String) (v : Value) (pattern : LikePattern) :
    appendLikePredicate (b.appendSlice column) v pattern =
      (conditionAtom.likeAtom column v pattern).map (b ++ ·.print) := by
  unfold appendLikePredicate conditionAtom.likeAtom
  split <;> simp [Except.map, SqlAtom.print, appendSlice, appendValue, append_def]

lemma appendConditionTest_eq (b : SqlBuf) (column : String) (c : Condition) :
    appendConditionTest (b.appendSlice column) column c = (conditionAtom column c).map (b ++ ·.print) := by
  unfold appendConditionTest conditionAtom
  cases hop : c.op with
  | eq | ne | gt | lt | gte | lte =>
    cases hv : requireValue c <;>
      simp [bind, Except.bind, pure, Except.pure, Except.map, cmpOp, SqlAtom.print,
        appendSlice, appendValue, append_def]
  | contains =>
    cases hv : requireValue c with
    | error e => simp [bind, Except.bind, Except.map]
    | ok v =>
      by_cases ht : c.fieldType = .array
      · simp [ht, bind, Except.bind, pure, Except.pure, Except.map, appendArrayContainsSql,
          SqlAtom.print, appendSlice, appendValue, append_def]
      · simp [ht, bind, Except.bind, appendLikePredicate_eq]
  | startsWith | endsWith =>
    cases hv : requireValue c with
    | error e => simp [bind, Except.bind, Except.map]
    | ok v => simp [bind, Except.bind, appendLikePredicate_eq]
  | isIn | notIn => simp [Except.map, appendInPredicate_eq, hop]
  | isNull | isNotNull =>
    simp [Except.map, SqlAtom.print, appendSlice, append_def]

lemma appendConditionSql_eq (t : Table) (b : SqlBuf) (c : Condition) :
    appendConditionSql t b c = (fieldAtom t c).map (b ++ ·.print) := by
  simp only [appendConditionSql, fieldAtom]
  cases t.fields[c.fieldIndex]? with
  | none => rfl
  | some f => exact appendConditionTest_eq b f.nameQuoted c

lemma appendConditionList_eq (t : Table) (sep : String) (isFirst : Bool) (b : SqlBuf) (cs : List Condition) :
    appendConditionList t sep isFirst b cs = (fieldAtoms t cs).map fun atoms =>
      (isFirst && cs.isEmpty, b ++ joinFrom sep isFirst (atoms.map SqlAtom.print)) := by
  induction cs generalizing isFirst b with
  | nil =>
    cases isFirst <;>
      simp [appendConditionList, fieldAtoms, Except.map, joinFrom, join, joinTail]
  | cons c cs ih =>
    rw [appendConditionList, fieldAtoms]
    simp only [appendConditionSql_eq, bind, Except.bind]
    cases fieldAtom t c with
    | error e => rfl
    | ok a =>
      simp only [Except.map, ih]
      cases fieldAtoms t cs with
      | error e => rfl
      | ok atoms =>
        simp only [pure, Except.pure, List.map_cons, joinFrom_cons]
        cases isFirst <;> simp [appendSlice_eq]

lemma appendClauses_eq (t : Table) (isFirst : Bool) (b : SqlBuf) (clauses : List OrClause) :
    appendClauses t isFirst b clauses = (clauseAtoms t clauses).map fun groups =>
      b ++ joinFrom " AND " isFirst (groups.map fun g => (SqlConjunct.anyOf g).print) := by
  induction clauses generalizing isFirst b with
  | nil =>
    cases isFirst <;>
      simp [appendClauses, clauseAtoms, Except.map, joinFrom, join, joinTail]
  | cons clause clauses ih =>
    rw [appendClauses, clauseAtoms]
    cases he : clause.isEmpty with
    | true => exact ih isFirst b
    | false =>
      simp only [Bool.false_eq_true, if_false, appendConditionList_eq, bind, Except.bind]
      cases fieldAtoms t clause with
      | error e => rfl
      | ok atoms =>
        simp only [Except.map, ih]
        cases clauseAtoms t clauses with
        | error e => rfl
        | ok groups =>
          simp only [pure, Except.pure, List.map_cons, joinFrom_cons]
          cases isFirst <;>
            simp [appendSlice_eq, SqlConjunct.print, joinFrom]

lemma fieldAtoms_isEmpty (t : Table) (cs : List Condition) (atoms : List SqlAtom)
    (h : fieldAtoms t cs = .ok atoms) : cs.isEmpty = atoms.isEmpty := by
  cases cs with
  | nil => cases h; rfl
  | cons c cs =>
    obtain ⟨a, -, h⟩ := Outcome.bind_eq_ok.mp h
    obtain ⟨as, -, h⟩ := Outcome.bind_eq_ok.mp h
    cases h
    rfl

lemma appendFilterPredicateSql_eq (t : Table) (b : SqlBuf) (p : FilterPredicate) :
    appendFilterPredicateSql t b p = (filterWhere t p).map (b ++ ·.print) := by
  simp only [appendFilterPredicateSql, filterWhere]
  split_ifs with ht hf
  · simp [Except.map, SqlWhere.print, appendSlice_eq]
  · simp [Except.map, SqlWhere.print, appendSlice_eq]
  · simp only [appendConditionList_eq, bind, Except.bind]
    cases ha : fieldAtoms t (p.conditions.getD []) with
    | error e => rfl
    | ok atoms =>
      simp only [Except.map, appendClauses_eq]
      cases clauseAtoms t (p.orClauses.getD []) with
      | error e => rfl
      | ok groups =>
        simp only [pure, Except.pure, SqlWhere.print, List.map_append, List.map_map]
        have hempty : (p.conditions.getD []).isEmpty = atoms.isEmpty :=
          fieldAtoms_isEmpty t _ _ ha
        have hj := joinFrom_append " AND " true (atoms.map SqlAtom.print)
          (groups.map fun g => (SqlConjunct.anyOf g).print)
        rw [List.isEmpty_map] at hj
        rw [hempty, append_assoc, ← hj]
        rfl

end ZyncBase
