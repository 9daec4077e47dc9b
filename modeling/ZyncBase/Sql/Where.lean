import ZyncBase.Query.Parser
import ZyncBase.Sql.Value

/-! The WHERE expressions that filter predicates are rendered to, by the shape of SQL's grammar:
a conjunction of atoms and of parenthesised disjunctions. Each prints as text with its bound
values in order, and has a three-valued meaning on a row. -/
namespace ZyncBase

inductive CmpOp where
  | eq | ne | gt | lt | gte | lte
  deriving DecidableEq, Repr

namespace CmpOp

def sql : CmpOp → String
  | eq => " = ?"
  | ne => " != ?"
  | gt => " > ?"
  | lt => " < ?"
  | gte => " >= ?"
  | lte => " <= ?"

def test : CmpOp → Ordering → Bool
  | eq, o => o = .eq
  | ne, o => o ≠ .eq
  | gt, o => o = .gt
  | lt, o => o = .lt
  | gte, o => o ≠ .lt
  | lte, o => o ≠ .gt

end CmpOp

/-- The patterns built around a bound operand. -/
inductive LikePattern where
  | anywhere | atStart | atEnd
  deriving DecidableEq, Repr

namespace LikePattern

def sql : LikePattern → String
  | anywhere => "'%' || ? || '%'"
  | atStart => "? || '%'"
  | atEnd => "'%' || ?"

end LikePattern

/-- An atomic test of one column, named by its quoted identifier. -/
inductive SqlAtom where
  | compare (column : String) (op : CmpOp) (operand : Value)
  | like (column : String) (pattern : LikePattern) (operand : Value)
  | arrayContains (column : String) (operand : Value)
  | inList (column : String) (negated : Bool) (operands : List Value)
  | isNull (column : String) (negated : Bool)

inductive SqlConjunct where
  | atom (a : SqlAtom)
  | anyOf (atoms : List SqlAtom)

inductive SqlWhere where
  | one
  | zero
  | allOf (conjuncts : List SqlConjunct)

/-- SQL text as the fragments appended so far, with the values to bind. -/
structure SqlBuf where
  fragments : List String := []
  values : List Value := []
  deriving DecidableEq, Repr

namespace SqlBuf

def appendSlice (b : SqlBuf) (s : String) : SqlBuf := { b with fragments := b.fragments ++ [s] }
def appendValue (b : SqlBuf) (v : Value) : SqlBuf := { b with values := b.values ++ [v] }

/-- Everything of one buffer before everything of another. -/
def append (a b : SqlBuf) : SqlBuf := ⟨a.fragments ++ b.fragments, a.values ++ b.values⟩

instance : Append SqlBuf := ⟨append⟩

def text (b : SqlBuf) : String := String.join b.fragments

lemma append_def (a b : SqlBuf) : a ++ b = ⟨a.fragments ++ b.fragments, a.values ++ b.values⟩ := rfl

@[simp] lemma append_assoc (a b c : SqlBuf) : a ++ b ++ c = a ++ (b ++ c) := by
  simp [append_def]

@[simp] lemma append_empty (a : SqlBuf) : a ++ ({} : SqlBuf) = a := by simp [append_def]

@[simp] lemma empty_append (a : SqlBuf) : ({} : SqlBuf) ++ a = a := by simp [append_def]

def lit (s : String) : SqlBuf := ⟨[s], []⟩

lemma appendSlice_eq (b : SqlBuf) (s : String) : b.appendSlice s = b ++ lit s := by
  simp [append_def, appendSlice, lit]

/-- Printed parts, each preceded by the separator. -/
def joinTail (sep : String) : List SqlBuf → SqlBuf
  | [] => {}
  | b :: bs => lit sep ++ (b ++ joinTail sep bs)

/-- Printed parts with a separator between neighbours. -/
def join (sep : String) : List SqlBuf → SqlBuf
  | [] => {}
  | b :: bs => b ++ joinTail sep bs

/-- The rest of a separated list, `isFirst` when nothing has been printed yet. -/
def joinFrom (sep : String) (isFirst : Bool) (bs : List SqlBuf) : SqlBuf :=
  if isFirst then join sep bs else joinTail sep bs

lemma joinFrom_cons (sep : String) (isFirst : Bool) (b : SqlBuf) (bs : List SqlBuf) :
    joinFrom sep isFirst (b :: bs) = (if isFirst then {} else lit sep) ++ (b ++ joinFrom sep false bs) := by
  cases isFirst <;> simp [joinFrom, join, joinTail]

lemma joinFrom_append (sep : String) (isFirst : Bool) (as bs : List SqlBuf) :
    joinFrom sep isFirst (as ++ bs) = joinFrom sep isFirst as ++ joinFrom sep (isFirst && as.isEmpty) bs := by
  induction as generalizing isFirst with
  | nil => cases isFirst <;> simp [joinFrom, join, joinTail]
  | cons a as ih =>
    rw [List.cons_append, joinFrom_cons, joinFrom_cons, ih]
    simp

end SqlBuf

namespace SqlAtom

def print : SqlAtom → SqlBuf
  | compare column op operand => ⟨[column, op.sql], [operand]⟩
  | like column pattern operand => ⟨[column, " LIKE ", pattern.sql, " ESCAPE '\\'"], [operand]⟩
  | arrayContains column operand =>
    ⟨[column, " IS NOT NULL AND EXISTS (SELECT 1 FROM json_each(", column,
      ") WHERE json_each.value = ?)"], [operand]⟩
  | inList column negated operands =>
    ⟨[column, if negated then " NOT IN (" else " IN ("], []⟩ ++
      (SqlBuf.join ", " (operands.map fun v => ⟨["?"], [v]⟩) ++ SqlBuf.lit ")")
  | isNull column negated => ⟨[column, if negated then " IS NOT NULL" else " IS NULL"], []⟩

end SqlAtom

def SqlConjunct.print : SqlConjunct → SqlBuf
  | atom a => a.print
  | anyOf atoms =>
    SqlBuf.lit "(" ++ (SqlBuf.join " OR " (atoms.map SqlAtom.print) ++ SqlBuf.lit ")")

def SqlWhere.print : SqlWhere → SqlBuf
  | one => SqlBuf.lit "1"
  | zero => SqlBuf.lit "0"
  | allOf conjuncts => SqlBuf.join " AND " (conjuncts.map SqlConjunct.print)

def storedRow (t : Table) (r : Record) (column : String) : SqlValue :=
  match (t.fields.zip r.values).find? fun p => p.1.nameQuoted == column with
  | some p => storedValue p.2
  | none => .null

/-- The characters of LIKE patterns: percent, underscore and the backslash escape. -/
def likeSyntax : TextMatch.Syntax UInt8 := { any := 37, one := 95, esc := 92 }

def LikePattern.bytes (operand : Bytes) : LikePattern → Bytes
  | anywhere => likeSyntax.any :: operand ++ [likeSyntax.any]
  | atStart => operand ++ [likeSyntax.any]
  | atEnd => likeSyntax.any :: operand

section Meaning

variable (enc : Encodings) (row : String → SqlValue)

/-- LIKE is rendered for text columns only; a null operand makes it unknown. -/
def sqlLike (pattern : LikePattern) : SqlValue → SqlValue → Kleene.Truth
  | .text a, .text b => some (TextMatch.like asciiLower likeSyntax a (pattern.bytes b))
  | .null, _ => none
  | _, .null => none
  | _, _ => some false

/-- The rows of `json_each` on a column; null has none. -/
def sqlJsonEach : SqlValue → List SqlValue
  | .jsonb items => items.map (jsonEachValue enc.hex)
  | _ => []

def sqlIn (a : SqlValue) (operands : List Value) : Kleene.Truth :=
  Kleene.any3 (operands.map fun v => sqlCompare enc CmpOp.eq.test a (bindValue enc v))

def SqlAtom.eval : SqlAtom → Kleene.Truth
  | compare column op operand => sqlCompare enc op.test (row column) (bindValue enc operand)
  | like column pattern operand => sqlLike pattern (row column) (bindValue enc operand)
  | arrayContains column operand =>
    Kleene.and3 (some (row column ≠ .null))
      (some ((sqlJsonEach enc (row column)).any fun item =>
        sqlCompare enc CmpOp.eq.test item (bindValue enc operand) = some true))
  | inList column negated operands =>
    if negated then Kleene.not3 (sqlIn enc (row column) operands)
    else sqlIn enc (row column) operands
  | isNull column negated => some ((row column = .null) != negated)

def SqlConjunct.eval : SqlConjunct → Kleene.Truth
  | atom a => a.eval enc row
  | anyOf atoms => Kleene.any3 (atoms.map (SqlAtom.eval enc row))

def SqlWhere.eval : SqlWhere → Kleene.Truth
  | one => some true
  | zero => some false
  | allOf conjuncts => Kleene.all3 (conjuncts.map (SqlConjunct.eval enc row))

def SqlWhere.selects (e : SqlWhere) : Bool := e.eval enc row = some true

end Meaning
end ZyncBase
