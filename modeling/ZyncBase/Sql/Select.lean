import ZyncBase.Lib.Keyset
import ZyncBase.Sql.FilterSql

/-! The SELECT of a query filter: how the reader renders it, the statement that the text denotes,
and the rows that the statement returns. -/
namespace ZyncBase

open SqlBuf Kleene

inductive ReadError where
  | invalidSortFormat | invalidMessageFormat
  | filter (error : SqlError)
  deriving DecidableEq, Repr

/-- The test of one sort key of an earlier clause: equal to the value of the cursor. -/
structure KeyTie where
  column : String
  required : Bool
  value : Value

/-- The test of the sort key that decides: after the value of the cursor. -/
structure KeyAfter where
  column : String
  required : Bool
  desc : Bool
  value : Value

structure CursorBranch where
  ties : List KeyTie
  after : KeyAfter

/-- One clause of ORDER BY. -/
structure OrderTerm where
  column : String
  desc : Bool
  nullsLast : Bool

/-- A SELECT of the rows of a namespace. -/
structure SqlSelect where
  table : Table
  namespaceId : ℤ
  filter : Option SqlWhere
  cursor : Option (List CursorBranch)
  orderBy : List OrderTerm
  limit : Option ℕ

section Rendering

variable (t : Table)

/-- The column of a field, arrays as JSON text. -/
def projectedColumnSql (f : Field) : String :=
  if f.storageType = .array then "json(" ++ f.nameQuoted ++ ") AS " ++ f.nameQuoted
  else f.nameQuoted

def selectFromSql : String :=
  "SELECT " ++ ", ".intercalate (t.fields.map projectedColumnSql) ++ " FROM \"" ++ t.name ++ "\""

def sortField (d : SortDescriptor) : Field :=
  t.fields[d.fieldIndex]?.getD { name := "", declaredType := .text, storageType := .text }

/-- Equality on the keys before the one that decides. -/
def appendTies (b : SqlBuf) : List (SortDescriptor × Value) → SqlBuf
  | [] => b
  | (d, v) :: ties =>
    let f := sortField t d
    let b := b.appendSlice f.nameQuoted
    let b := b.appendSlice (if f.required then " = ? AND " else " IS ? AND ")
    appendTies (b.appendValue v) ties

def appendAfter (b : SqlBuf) (d : SortDescriptor) (v : Value) : SqlBuf :=
  let f := sortField t d
  let op := if d.desc then CmpOp.lt.sql else CmpOp.gt.sql
  if f.required then ((b.appendSlice f.nameQuoted).appendSlice op).appendValue v
  else
    let b := b.appendSlice "? IS NOT NULL AND ("
    let b := (b.appendSlice f.nameQuoted).appendSlice " IS NULL OR "
    let b := ((b.appendSlice f.nameQuoted).appendSlice op).appendSlice ")"
    -- the guard and the comparison bind the value each
    (b.appendValue v).appendValue v

def appendBranches (ties : List (SortDescriptor × Value)) (b : SqlBuf) : List (SortDescriptor × Value) → SqlBuf
  | [] => b
  | (d, v) :: keys =>
    let b := if ties.isEmpty then b else b.appendSlice " OR "
    let b := appendTies t (b.appendSlice "(") ties
    let b := (appendAfter t b d v).appendSlice ")"
    appendBranches (ties ++ [(d, v)]) b keys

def appendCursorPredicateSql (b : SqlBuf) (descriptors : List SortDescriptor)
    (cursorValues : List Value) : SqlBuf :=
  if descriptors.isEmpty then b
  else (appendBranches t [] (b.appendSlice "(") (descriptors.zip cursorValues)).appendSlice ")"

/-- The clauses of ORDER BY, each after the first behind a comma. -/
def appendOrderTerms (isFirst : Bool) (b : SqlBuf) : List SortDescriptor → SqlBuf
  | [] => b
  | d :: ds =>
    let f := sortField t d
    let b := if isFirst then b else b.appendSlice ", "
    let b := (b.appendSlice f.nameQuoted).appendSlice (if d.desc then " DESC" else " ASC")
    appendOrderTerms false (if f.required then b else b.appendSlice " NULLS LAST") ds

def appendOrderBySql (b : SqlBuf) (descriptors : List SortDescriptor) : SqlBuf :=
  appendOrderTerms t true (b.appendSlice " ORDER BY ") descriptors

def appendWhereConditions (b : SqlBuf) (filter : QueryFilter) : Except SqlError SqlBuf := do
  let hasConditions := !filter.predicate.isAlwaysTrue
  if !hasConditions && filter.after.isNone then return b
  let b := b.appendSlice " AND ("
  let b ← if hasConditions then appendFilterPredicateSql t b filter.predicate else pure b
  match filter.after with
  | none => return b.appendSlice ")"
  | some cursor =>
    let b := if hasConditions then b.appendSlice " AND " else b
    return (appendCursorPredicateSql t b filter.orderBy cursor.values).appendSlice ")"

/-- One row more than the page holds, unless the limit is the greatest of its type. -/
def effectiveLimit (limit : ℕ) : ℕ := if limit = 2 ^ 32 - 1 then limit else limit + 1

def buildSelectQuery (namespaceId : ℤ) (filter : QueryFilter) : Except ReadError SqlBuf :=
  if filter.orderBy.any fun d => t.fields.length ≤ d.fieldIndex then .error .invalidSortFormat
  else
    let b := appendSlice {} (selectFromSql t)
    let b := ((b.appendSlice " WHERE ").appendSlice "\"namespace_id\"").appendSlice " = ?"
    let b := b.appendValue (.scalar (.integer namespaceId))
    match appendWhereConditions t b filter with
    | .error e => .error (.filter e)
    | .ok b =>
      let b := appendOrderBySql t b filter.orderBy
      match filter.limit with
      | none => .ok b
      | some limit =>
        .ok ((b.appendSlice " LIMIT ?").appendValue (.scalar (.integer (effectiveLimit limit))))

end Rendering

section Printing

namespace SqlBuf

/-- Printed parts one after the other. -/
def concat : List SqlBuf → SqlBuf
  | [] => {}
  | b :: bs => b ++ concat bs

end SqlBuf

def KeyTie.print (k : KeyTie) : SqlBuf :=
  ⟨[k.column, if k.required then " = ? AND " else " IS ? AND "], [k.value]⟩

def KeyAfter.op (k : KeyAfter) : CmpOp := if k.desc then .lt else .gt

def KeyAfter.print (k : KeyAfter) : SqlBuf :=
  if k.required then ⟨[k.column, k.op.sql], [k.value]⟩
  else ⟨["? IS NOT NULL AND (", k.column, " IS NULL OR ", k.column, k.op.sql, ")"], [k.value, k.value]⟩

def CursorBranch.print (branch : CursorBranch) : SqlBuf :=
  lit "(" ++ (concat (branch.ties.map KeyTie.print) ++
    (branch.after.print ++ lit ")"))

def OrderTerm.print (o : OrderTerm) : SqlBuf :=
  ⟨[o.column, if o.desc then " DESC" else " ASC"] ++ if o.nullsLast then [" NULLS LAST"] else [], []⟩

def printCursor (branches : List CursorBranch) : SqlBuf :=
  lit "(" ++ (join " OR " (branches.map CursorBranch.print) ++ lit ")")

/-- The conditions besides the namespace. -/
def printConditions (filter : Option SqlWhere) (cursor : Option (List CursorBranch)) : SqlBuf :=
  match filter, cursor with
  | none, none => {}
  | some e, none => lit " AND (" ++ (e.print ++ lit ")")
  | none, some branches => lit " AND (" ++ (printCursor branches ++ lit ")")
  | some e, some branches =>
    lit " AND (" ++ (e.print ++ (lit " AND " ++ (printCursor branches ++
      lit ")")))

def SqlSelect.print (q : SqlSelect) : SqlBuf :=
  ⟨[selectFromSql q.table, " WHERE ", "\"namespace_id\"", " = ?"],
      [.scalar (.integer q.namespaceId)]⟩ ++ (printConditions q.filter q.cursor ++ (lit " ORDER BY " ++
    (join ", " (q.orderBy.map OrderTerm.print) ++ match q.limit with
      | none => {}
      | some n => ⟨[" LIMIT ?"], [.scalar (.integer n)]⟩)))

end Printing

section Statement

variable (t : Table)

def keyTie (key : SortDescriptor × Value) : KeyTie :=
  ⟨(sortField t key.1).nameQuoted, (sortField t key.1).required, key.2⟩

def keyAfter (d : SortDescriptor) (v : Value) : KeyAfter :=
  ⟨(sortField t d).nameQuoted, (sortField t d).required, d.desc, v⟩

def orderTerm (d : SortDescriptor) : OrderTerm :=
  ⟨(sortField t d).nameQuoted, d.desc, !(sortField t d).required⟩

def cursorBranches (ties : List (SortDescriptor × Value)) : List (SortDescriptor × Value) → List CursorBranch
  | [] => []
  | (d, v) :: keys => ⟨ties.map (keyTie t), keyAfter t d v⟩ :: cursorBranches (ties ++ [(d, v)]) keys

def filterConditions (p : FilterPredicate) : Except SqlError (Option SqlWhere) :=
  if p.isAlwaysTrue then .ok none else (filterWhere t p).map some

/-- The statement that the rendered text denotes. -/
def selectStatement (namespaceId : ℤ) (filter : QueryFilter) : Except ReadError SqlSelect :=
  if filter.orderBy.any fun d => t.fields.length ≤ d.fieldIndex then .error .invalidSortFormat
  else
    match filterConditions t filter.predicate with
    | .error e => .error (.filter e)
    | .ok conditions =>
      .ok
        { table := t
          namespaceId
          filter := conditions
          cursor := filter.after.map fun c => cursorBranches t [] (filter.orderBy.zip c.values)
          orderBy := filter.orderBy.map (orderTerm t)
          limit := filter.limit.map effectiveLimit }

lemma appendTies_eq (b : SqlBuf) (ties : List (SortDescriptor × Value)) :
    appendTies t b ties = b ++ concat ((ties.map (keyTie t)).map KeyTie.print) := by
  induction ties generalizing b with
  | nil => simp [appendTies, concat]
  | cons key ties ih =>
    obtain ⟨d, v⟩ := key
    rw [appendTies, ih]
    simp [concat, KeyTie.print, keyTie, appendSlice, appendValue, append_def]

lemma appendAfter_eq (b : SqlBuf) (d : SortDescriptor) (v : Value) :
    appendAfter t b d v = b ++ (keyAfter t d v).print := by
  unfold appendAfter KeyAfter.print KeyAfter.op keyAfter
  dsimp only
  split_ifs
  all_goals simp [appendSlice, appendValue, append_def]

lemma appendBranches_eq (ties : List (SortDescriptor × Value)) (b : SqlBuf)
    (keys : List (SortDescriptor × Value)) :
    appendBranches t ties b keys = b ++ joinFrom " OR " ties.isEmpty
        ((cursorBranches t ties keys).map CursorBranch.print) := by
  induction keys generalizing ties b with
  | nil => cases h : ties.isEmpty <;> simp [appendBranches, cursorBranches, joinFrom,
      join, joinTail]
  | cons key keys ih =>
    obtain ⟨d, v⟩ := key
    have hgrown : (ties ++ [(d, v)]).isEmpty = false := by simp
    rw [appendBranches, ih, hgrown, cursorBranches, List.map_cons, joinFrom_cons,
      appendTies_eq, appendAfter_eq]
    cases ties.isEmpty <;> simp [CursorBranch.print, appendSlice_eq]

lemma appendCursorPredicateSql_eq (b : SqlBuf) {descriptors : List SortDescriptor}
    (h : descriptors ≠ []) (cursorValues : List Value) :
    appendCursorPredicateSql t b descriptors cursorValues =
      b ++ printCursor (cursorBranches t [] (descriptors.zip cursorValues)) := by
  unfold appendCursorPredicateSql printCursor
  rw [if_neg (by simpa using h), appendBranches_eq]
  simp [appendSlice_eq, joinFrom]

lemma appendOrderTerms_eq (isFirst : Bool) (b : SqlBuf) (ds : List SortDescriptor) :
    appendOrderTerms t isFirst b ds =
      b ++ joinFrom ", " isFirst ((ds.map (orderTerm t)).map OrderTerm.print) := by
  induction ds generalizing isFirst b with
  | nil => cases isFirst <;> simp [appendOrderTerms, joinFrom, join, joinTail]
  | cons d ds ih =>
    rw [appendOrderTerms, ih, List.map_cons, List.map_cons, joinFrom_cons]
    cases isFirst <;> cases hr : (sortField t d).required <;>
      simp [OrderTerm.print, orderTerm, hr, appendSlice, append_def, lit]

lemma appendWhereConditions_eq (b : SqlBuf) {filter : QueryFilter} (h : filter.orderBy ≠ []) :
    appendWhereConditions t b filter = (filterConditions t filter.predicate).map fun conditions =>
      b ++ printConditions conditions
        (filter.after.map fun c => cursorBranches t [] (filter.orderBy.zip c.values)) := by
  unfold appendWhereConditions filterConditions
  cases hc : filter.predicate.isAlwaysTrue with
  | true =>
    cases filter.after with
    | none => simp [printConditions, Except.map, pure, Except.pure]
    | some c =>
      simp [printConditions, Except.map, bind, Except.bind, pure, Except.pure,
        appendCursorPredicateSql_eq t _ h, appendSlice_eq]
  | false =>
    simp only [Bool.not_false, if_true, appendFilterPredicateSql_eq, bind,
      Except.bind, Bool.false_eq_true, if_false]
    cases filterWhere t filter.predicate with
    | error e => cases filter.after <;> simp [Except.map]
    | ok w =>
      cases filter.after with
      | none => simp [printConditions, Except.map, pure, Except.pure, appendSlice_eq]
      | some c =>
        simp [printConditions, Except.map, pure, Except.pure, appendCursorPredicateSql_eq t _ h,
          appendSlice_eq]

lemma buildSelectQuery_eq (namespaceId : ℤ) {filter : QueryFilter} (h : filter.orderBy ≠ []) :
    buildSelectQuery t namespaceId filter = (selectStatement t namespaceId filter).map SqlSelect.print := by
  unfold buildSelectQuery selectStatement
  split_ifs
  · rfl
  · dsimp only
    rw [appendWhereConditions_eq t _ h]
    cases filterConditions t filter.predicate with
    | error e => rfl
    | ok conditions =>
      have horder := appendOrderTerms_eq t true
      cases hl : filter.limit with
      | none =>
        simp [Except.map, SqlSelect.print, appendOrderBySql, horder, appendSlice,
          appendValue, append_def, lit, joinFrom]
      | some limit =>
        simp [Except.map, SqlSelect.print, appendOrderBySql, horder, appendSlice,
          appendValue, append_def, lit, joinFrom]

end Statement

section Meaning

variable (enc : Encodings)

/-- `IS` compares nulls as equal, and is never unknown. -/
def sqlIs (a b : SqlValue) : Bool :=
  if a = .null ∨ b = .null then a = b else sqlOrder enc a b = .eq

def KeyTie.eval (row : String → SqlValue) (k : KeyTie) : Truth :=
  let a := row k.column
  let b := bindValue enc k.value
  if k.required then sqlCompare enc CmpOp.eq.test a b else some (sqlIs enc a b)

def KeyAfter.eval (row : String → SqlValue) (k : KeyAfter) : Truth :=
  let a := row k.column
  let b := bindValue enc k.value
  if k.required then sqlCompare enc k.op.test a b
  else and3 (some (b ≠ .null)) (or3 (some (a = .null)) (sqlCompare enc k.op.test a b))

def CursorBranch.eval (row : String → SqlValue) (branch : CursorBranch) : Truth :=
  and3 (all3 (branch.ties.map (KeyTie.eval enc row))) (branch.after.eval enc row)

def evalCursor (row : String → SqlValue) (branches : List CursorBranch) : Truth :=
  any3 (branches.map (CursorBranch.eval enc row))

/-- Nulls are the least values, so they come first in ascending order unless NULLS LAST says
otherwise. -/
def OrderTerm.compare (o : OrderTerm) (a b : SqlValue) : Ordering :=
  let nullAfter := o.nullsLast || o.desc
  if a = .null then if b = .null then .eq else if nullAfter then .gt else .lt
  else if b = .null then if nullAfter then .lt else .gt
  else if o.desc then (sqlOrder enc a b).swap else sqlOrder enc a b

/-- The first term that tells the rows apart decides. -/
def orderCompare : List OrderTerm → (String → SqlValue) → (String → SqlValue) → Ordering
  | [], _, _ => .eq
  | o :: os, a, b => (o.compare enc (a o.column) (b o.column)).then (orderCompare os a b)

namespace SqlSelect

def evalConditions (q : SqlSelect) (row : String → SqlValue) : Truth :=
  and3 (q.filter.elim (some true) (SqlWhere.eval enc row))
    (q.cursor.elim (some true) (evalCursor enc row))

def evalWhere (q : SqlSelect) (row : String → SqlValue) : Truth :=
  and3 (sqlCompare enc CmpOp.eq.test (row "\"namespace_id\"") (.integer q.namespaceId))
    (q.evalConditions enc row)

/-- The rows that the statement returns, in order. -/
def run (q : SqlSelect) (rows : List Record) : List Record :=
  let found := rows.filter fun r => q.evalWhere enc (storedRow q.table r) = some true
  let sorted := Keyset.sort
    (fun a b => orderCompare enc q.orderBy (storedRow q.table a) (storedRow q.table b)) found
  match q.limit with
  | none => sorted
  | some n => sorted.take n

end SqlSelect
end Meaning
end ZyncBase
