import ZyncBase.Lib.Placeholders
import ZyncBase.Sql.Select

/-! Statements with their values written in, and the placeholders that the rendered text has in
their stead. -/
namespace ZyncBase

open List Outcome Placeholders

abbrev WrittenSql := Written Char Value

def sqlChars (s : String) : WrittenSql := chars s.toList

@[simp] lemma sqlChars_empty : sqlChars "" = [] := rfl

def Plain (s : String) : Prop := '?' ∉ s.toList

instance (s : String) : Decidable (Plain s) := inferInstanceAs (Decidable ('?' ∉ s.toList))

variable {s : String}

lemma Plain.of_chars {cs : List Char} (hs : s = String.ofList cs) (h : '?' ∉ cs) : Plain s := by
  rw [Plain, hs, String.toList_ofList]
  exact h

variable {before : String}

lemma toList_around {after : String} {cs cs₁ cs₂ : List Char}
    (hs : s = String.ofList cs) (hb : before = String.ofList cs₁) (ha : after = String.ofList cs₂)
    (hsplit : cs = cs₁ ++ '?' :: cs₂) : s.toList = before.toList ++ '?' :: after.toList := by
  rw [hs, hb, ha, hsplit, String.toList_ofList, String.toList_ofList, String.toList_ofList]

lemma toList_ending {cs cs₁ : List Char} (hs : s = String.ofList cs)
    (hb : before = String.ofList cs₁) (hsplit : cs = cs₁ ++ ['?']) : s.toList = before.toList ++ ['?'] := by
  rw [hs, hb, hsplit, String.toList_ofList, String.toList_ofList]

/-- Names as the schema parser accepts them: letters, digits and underscores. -/
structure Table.PlainNames (t : Table) : Prop where
  name : ∀ ch ∈ t.name.toList, ch.isAlphanum ∨ ch = '_'
  fields : ∀ f ∈ t.userFields, ∀ ch ∈ f.name.toList, ch.isAlphanum ∨ ch = '_'

namespace SqlBuf

/-- The text and the values of the buffer are those of the written statement. -/
structure Reads (b : SqlBuf) (w : WrittenSql) : Prop where
  reads : Placeholders.Reads '?' b.text.toList b.values w

lemma text_append (a b : SqlBuf) : (a ++ b).text.toList = a.text.toList ++ b.text.toList := by
  rw [append_def]
  simp only [text, String.toList_join, flatMap_append]

namespace Reads

variable {a b : SqlBuf} {v w : WrittenSql}

lemma append (ha : a.Reads v) (hb : b.Reads w) : (a ++ b).Reads (v ++ w) := by
  refine ⟨?_⟩
  rw [text_append]
  exact ha.reads.append hb.reads

lemma empty : ({} : SqlBuf).Reads [] := ⟨Placeholders.Reads.nil⟩

lemma lit (h : Plain s) : (lit s).Reads (sqlChars s) := by
  refine ⟨?_⟩
  rw [text, String.toList_join]
  simpa [SqlBuf.lit, sqlChars] using Placeholders.Reads.chars h

lemma around {after : String} (hb : Plain before) (ha : Plain after)
    (hs : s.toList = before.toList ++ '?' :: after.toList) (v : Value) :
    (⟨[s], [v]⟩ : SqlBuf).Reads (sqlChars before ++ (slot v ++ sqlChars after)) := by
  refine ⟨?_⟩
  rw [text, String.toList_join]
  simpa [hs, sqlChars] using (Placeholders.Reads.chars hb).append
    ((Placeholders.Reads.slot v).append (Placeholders.Reads.chars ha))

lemma ending (hb : Plain before) (hs : s.toList = before.toList ++ ['?'])
    (v : Value) : (⟨[s], [v]⟩ : SqlBuf).Reads (sqlChars before ++ slot v) := by
  have h := around hb (by decide : Plain "") hs v
  rwa [sqlChars_empty, append_nil] at h

lemma starting {after : String} (ha : Plain after) (hs : s.toList = '?' :: after.toList)
    (v : Value) : (⟨[s], [v]⟩ : SqlBuf).Reads (slot v ++ sqlChars after) := by
  have h := around (by decide : Plain "") ha hs v
  rwa [sqlChars_empty, nil_append] at h

lemma mark (v : Value) : (⟨["?"], [v]⟩ : SqlBuf).Reads (slot v) := by
  have h := ending (by decide : Plain "") (by decide : "?".toList = _) v
  rwa [sqlChars_empty, nil_append] at h

lemma joinTail {sep : String} (hs : Plain sep) {bs : List SqlBuf} {ws : List WrittenSql}
    (h : List.Forall₂ Reads bs ws) :
    (SqlBuf.joinTail sep bs).Reads (ws.flatMap fun w => sqlChars sep ++ w) := by
  induction h with
  | nil => exact empty
  | cons hb _ ih =>
    rw [SqlBuf.joinTail, List.flatMap_cons, List.append_assoc]
    exact (lit hs).append (hb.append ih)

end Reads
end SqlBuf

/-- Written parts with a separator between neighbours. -/
def joinWritten (sep : String) : List WrittenSql → WrittenSql
  | [] => []
  | w :: ws => w ++ ws.flatMap fun w => sqlChars sep ++ w

lemma SqlBuf.Reads.join {sep : String} (hs : Plain sep) {bs : List SqlBuf}
    {ws : List WrittenSql} (h : List.Forall₂ SqlBuf.Reads bs ws) :
    (SqlBuf.join sep bs).Reads (joinWritten sep ws) := by
  cases h with
  | nil => exact empty
  | cons hb h => exact hb.append (joinTail hs h)

lemma SqlBuf.Reads.concat {bs : List SqlBuf} {ws : List WrittenSql}
    (h : List.Forall₂ SqlBuf.Reads bs ws) : (SqlBuf.concat bs).Reads ws.flatten := by
  induction h with
  | nil => exact empty
  | cons hb _ ih => exact hb.append ih

section Written

def CmpOp.symbol : CmpOp → String
  | eq => " = "
  | ne => " != "
  | gt => " > "
  | lt => " < "
  | gte => " >= "
  | lte => " <= "

def LikePattern.written (operand : Value) : LikePattern → WrittenSql
  | anywhere => sqlChars "'%' || " ++ (slot operand ++ sqlChars " || '%'")
  | atStart => slot operand ++ sqlChars " || '%'"
  | atEnd => sqlChars "'%' || " ++ slot operand

def SqlAtom.written : SqlAtom → WrittenSql
  | compare column op operand => sqlChars column ++ (sqlChars op.symbol ++ slot operand)
  | like column pattern operand =>
    sqlChars column ++ (sqlChars " LIKE " ++ (pattern.written operand ++
      sqlChars " ESCAPE '\\'"))
  | arrayContains column operand =>
    sqlChars column ++ (sqlChars " IS NOT NULL AND EXISTS (SELECT 1 FROM json_each(" ++
      (sqlChars column ++ (sqlChars ") WHERE json_each.value = " ++
        (slot operand ++ sqlChars ")"))))
  | inList column negated operands =>
    sqlChars column ++ (sqlChars (if negated then " NOT IN (" else " IN (") ++
      (joinWritten ", " (operands.map slot) ++ sqlChars ")"))
  | isNull column negated =>
    sqlChars column ++ sqlChars (if negated then " IS NOT NULL" else " IS NULL")

def SqlAtom.column : SqlAtom → String
  | compare column _ _ => column
  | like column _ _ => column
  | arrayContains column _ => column
  | inList column _ _ => column
  | isNull column _ => column

def SqlConjunct.written : SqlConjunct → WrittenSql
  | atom a => a.written
  | anyOf atoms =>
    sqlChars "(" ++ (joinWritten " OR " (atoms.map SqlAtom.written) ++ sqlChars ")")

def SqlWhere.written : SqlWhere → WrittenSql
  | one => sqlChars "1"
  | zero => sqlChars "0"
  | allOf conjuncts => joinWritten " AND " (conjuncts.map SqlConjunct.written)

def KeyTie.written (k : KeyTie) : WrittenSql :=
  sqlChars k.column ++ (sqlChars (if k.required then " = " else " IS ") ++
    (slot k.value ++ sqlChars " AND "))

def KeyAfter.written (k : KeyAfter) : WrittenSql :=
  if k.required then sqlChars k.column ++ (sqlChars k.op.symbol ++ slot k.value)
  else slot k.value ++ (sqlChars " IS NOT NULL AND (" ++ (sqlChars k.column ++
    (sqlChars " IS NULL OR " ++ (sqlChars k.column ++ (sqlChars k.op.symbol ++
      (slot k.value ++ sqlChars ")"))))))

def CursorBranch.written (branch : CursorBranch) : WrittenSql :=
  sqlChars "(" ++ ((branch.ties.map KeyTie.written).flatten ++
    (branch.after.written ++ sqlChars ")"))

def OrderTerm.written (o : OrderTerm) : WrittenSql :=
  sqlChars o.column ++ (sqlChars (if o.desc then " DESC" else " ASC") ++
    sqlChars (if o.nullsLast then " NULLS LAST" else ""))

def writtenCursor (branches : List CursorBranch) : WrittenSql :=
  sqlChars "(" ++ (joinWritten " OR " (branches.map CursorBranch.written) ++ sqlChars ")")

def writtenConditions (filter : Option SqlWhere) (cursor : Option (List CursorBranch)) :
    WrittenSql :=
  match filter, cursor with
  | none, none => []
  | some e, none => sqlChars " AND (" ++ (e.written ++ sqlChars ")")
  | none, some branches => sqlChars " AND (" ++ (writtenCursor branches ++ sqlChars ")")
  | some e, some branches =>
    sqlChars " AND (" ++ (e.written ++ (sqlChars " AND " ++ (writtenCursor branches ++
      sqlChars ")")))

def writtenLimit : Option ℕ → WrittenSql
  | none => []
  | some n => sqlChars " LIMIT " ++ slot (.scalar (.integer n))

def SqlSelect.written (q : SqlSelect) : WrittenSql :=
  sqlChars (selectFromSql q.table) ++ (sqlChars " WHERE " ++ (sqlChars "\"namespace_id\"" ++
    (sqlChars " = " ++ (slot (.scalar (.integer q.namespaceId)) ++
      (writtenConditions q.filter q.cursor ++ (sqlChars " ORDER BY " ++
        (joinWritten ", " (q.orderBy.map OrderTerm.written) ++ writtenLimit q.limit)))))))

end Written

section Reading

lemma SqlBuf.Reads.compare (op : CmpOp) (v : Value) :
    (⟨[op.sql], [v]⟩ : SqlBuf).Reads (sqlChars op.symbol ++ slot v) := by
  have hsymbol : Plain op.symbol := by cases op <;> decide
  have hsql : op.sql.toList = op.symbol.toList ++ ['?'] := by cases op <;> decide
  exact .ending hsymbol hsql v

lemma LikePattern.reads (pattern : LikePattern) (v : Value) :
    (⟨[pattern.sql], [v]⟩ : SqlBuf).Reads (pattern.written v) := by
  cases pattern with
  | anywhere => exact .around (by decide) (by decide) (by decide) v
  | atStart => exact .starting (by decide) (by decide) v
  | atEnd => exact .ending (by decide) (by decide) v

lemma SqlAtom.reads {a : SqlAtom} (h : Plain a.column) : a.print.Reads a.written := by
  have hcolumn := SqlBuf.Reads.lit h
  cases a with
  | compare column op operand => exact hcolumn.append (.compare op operand)
  | like column pattern operand =>
    have hescape := SqlBuf.Reads.lit (by decide : Plain " ESCAPE '\\'")
    exact hcolumn.append ((SqlBuf.Reads.lit (by decide : Plain " LIKE ")).append
      ((pattern.reads operand).append hescape))
  | arrayContains column operand =>
    have heach : Plain " IS NOT NULL AND EXISTS (SELECT 1 FROM json_each(" :=
      .of_chars rfl (by decide)
    have hwhere : Plain ") WHERE json_each.value = " := .of_chars rfl (by decide)
    have hvalue := SqlBuf.Reads.around hwhere (by decide : Plain ")") (toList_around
      (rfl : ") WHERE json_each.value = ?)" = String.ofList _) rfl rfl rfl) operand
    exact hcolumn.append ((SqlBuf.Reads.lit heach).append (hcolumn.append hvalue))
  | inList column negated operands =>
    have hop : Plain (if negated then " NOT IN (" else " IN (") := by cases negated <;> decide
    have hitems : List.Forall₂ SqlBuf.Reads (operands.map fun v => ⟨["?"], [v]⟩) (operands.map slot) := by
      rw [forall₂_map_left_iff, forall₂_map_right_iff, forall₂_same]
      exact fun v _ => .mark v
    exact hcolumn.append ((SqlBuf.Reads.lit hop).append
      ((SqlBuf.Reads.join (by decide : Plain ", ") hitems).append
        (.lit (by decide : Plain ")"))))
  | isNull column negated =>
    have hop : Plain (if negated then " IS NOT NULL" else " IS NULL") := by
      cases negated <;> decide
    exact hcolumn.append (.lit hop)

lemma SqlBuf.Reads.map {α : Type*} {as : List α} (print : α → SqlBuf) (text : α → WrittenSql)
    (h : ∀ a ∈ as, (print a).Reads (text a)) : List.Forall₂ SqlBuf.Reads (as.map print) (as.map text) := by
  rw [forall₂_map_left_iff, forall₂_map_right_iff, forall₂_same]
  exact h

def SqlConjunct.atoms : SqlConjunct → List SqlAtom
  | atom a => [a]
  | anyOf atoms => atoms

lemma SqlConjunct.reads {c : SqlConjunct} (h : ∀ a ∈ c.atoms, Plain a.column) : c.print.Reads c.written := by
  cases c with
  | atom a => exact a.reads (h a mem_cons_self)
  | anyOf atoms =>
    exact (SqlBuf.Reads.lit (by decide : Plain "(")).append
      ((SqlBuf.Reads.join (by decide : Plain " OR ")
        (SqlBuf.Reads.map _ _ fun a ha => a.reads (h a ha))).append (.lit (by decide : Plain ")")))

def SqlWhere.conjuncts : SqlWhere → List SqlConjunct
  | one => []
  | zero => []
  | allOf conjuncts => conjuncts

lemma SqlWhere.reads {e : SqlWhere} (h : ∀ c ∈ e.conjuncts, ∀ a ∈ c.atoms, Plain a.column) :
    e.print.Reads e.written := by
  cases e with
  | one => exact .lit (by decide : Plain "1")
  | zero => exact .lit (by decide : Plain "0")
  | allOf conjuncts =>
    exact .join (by decide : Plain " AND ") (SqlBuf.Reads.map _ _ fun c hc => c.reads (h c hc))

lemma KeyTie.reads {k : KeyTie} (h : Plain k.column) : k.print.Reads k.written := by
  have hvalue : (⟨[if k.required then " = ? AND " else " IS ? AND "], [k.value]⟩ : SqlBuf).Reads
      (sqlChars (if k.required then " = " else " IS ") ++ (slot k.value ++ sqlChars " AND ")) := by
    cases k.required with
    | true => exact .around (by decide) (by decide) (by decide) k.value
    | false => exact .around (by decide) (by decide) (by decide) k.value
  exact (SqlBuf.Reads.lit h).append hvalue

lemma KeyAfter.print_optional {k : KeyAfter} (h : k.required = false) :
    k.print = ⟨["? IS NOT NULL AND ("], [k.value]⟩ ++ (SqlBuf.lit k.column ++
      (SqlBuf.lit " IS NULL OR " ++ (SqlBuf.lit k.column ++ (⟨[k.op.sql], [k.value]⟩ ++
        SqlBuf.lit ")")))) := by
  rw [KeyAfter.print, h]
  rfl

lemma KeyAfter.reads {k : KeyAfter} (h : Plain k.column) : k.print.Reads k.written := by
  have hcolumn := SqlBuf.Reads.lit h
  cases hr : k.required with
  | true =>
    rw [KeyAfter.print, KeyAfter.written, hr, if_pos rfl, if_pos rfl]
    exact hcolumn.append (.compare k.op k.value)
  | false =>
    have hguard : (⟨["? IS NOT NULL AND ("], [k.value]⟩ : SqlBuf).Reads
        (slot k.value ++ sqlChars " IS NOT NULL AND (") :=
      .starting (by decide) (by decide) k.value
    rw [KeyAfter.print_optional hr, KeyAfter.written, hr, if_neg Bool.false_ne_true,
      ← append_assoc (slot k.value), ← append_assoc (sqlChars k.op.symbol)]
    exact hguard.append (hcolumn.append ((SqlBuf.Reads.lit (by decide : Plain " IS NULL OR ")).append
      (hcolumn.append ((SqlBuf.Reads.compare k.op k.value).append
        (.lit (by decide : Plain ")"))))))

def CursorBranch.columns (branch : CursorBranch) : List String :=
  branch.after.column :: branch.ties.map KeyTie.column

lemma CursorBranch.reads {branch : CursorBranch} (h : ∀ column ∈ branch.columns, Plain column) :
    branch.print.Reads branch.written := by
  rw [columns, forall_mem_cons] at h
  have hties : (SqlBuf.concat (branch.ties.map KeyTie.print)).Reads (branch.ties.map KeyTie.written).flatten :=
    .concat (SqlBuf.Reads.map _ _ fun k hk => k.reads (h.2 _ (mem_map_of_mem hk)))
  exact (SqlBuf.Reads.lit (by decide : Plain "(")).append (hties.append
    ((KeyAfter.reads h.1).append (.lit (by decide : Plain ")"))))

lemma OrderTerm.reads {o : OrderTerm} (h : Plain o.column) : o.print.Reads o.written := by
  have hdirection : Plain (if o.desc then " DESC" else " ASC") := by cases o.desc <;> decide
  have hprint : o.print = SqlBuf.lit o.column ++ (SqlBuf.lit (if o.desc then " DESC" else " ASC") ++
      if o.nullsLast then SqlBuf.lit " NULLS LAST" else {}) := by
    rw [OrderTerm.print]
    cases o.nullsLast <;> rfl
  rw [hprint, OrderTerm.written]
  refine (SqlBuf.Reads.lit h).append ((SqlBuf.Reads.lit hdirection).append ?_)
  cases o.nullsLast with
  | true => exact .lit (by decide : Plain " NULLS LAST")
  | false => exact .empty

lemma printCursor_reads {branches : List CursorBranch}
    (h : ∀ branch ∈ branches, ∀ column ∈ branch.columns, Plain column) :
    (printCursor branches).Reads (writtenCursor branches) :=
  (SqlBuf.Reads.lit (by decide : Plain "(")).append
    ((SqlBuf.Reads.join (by decide : Plain " OR ")
      (SqlBuf.Reads.map _ _ fun b hb => b.reads (h b hb))).append (.lit (by decide : Plain ")")))

/-- The columns that a statement compares or sorts. -/
structure SqlSelect.PlainColumns (q : SqlSelect) : Prop where
  filter : ∀ e, q.filter = some e → ∀ c ∈ e.conjuncts, ∀ a ∈ c.atoms, Plain a.column
  cursor : ∀ branches, q.cursor = some branches → ∀ branch ∈ branches, ∀ column ∈ branch.columns, Plain column
  orderBy : ∀ o ∈ q.orderBy, Plain o.column
  projection : Plain (selectFromSql q.table)

lemma SqlSelect.PlainColumns.conditions {q : SqlSelect} (h : q.PlainColumns) :
    (printConditions q.filter q.cursor).Reads (writtenConditions q.filter q.cursor) := by
  have hopening := SqlBuf.Reads.lit (by decide : Plain " AND (")
  have hclosing := SqlBuf.Reads.lit (by decide : Plain ")")
  cases hf : q.filter with
  | none =>
    cases hc : q.cursor with
    | none => exact .empty
    | some branches => exact hopening.append ((printCursor_reads (h.cursor _ hc)).append hclosing)
  | some e =>
    have he := SqlWhere.reads (h.filter e hf)
    cases hc : q.cursor with
    | none => exact hopening.append (he.append hclosing)
    | some branches =>
      exact hopening.append (he.append ((SqlBuf.Reads.lit (by decide : Plain " AND ")).append
        ((printCursor_reads (h.cursor _ hc)).append hclosing)))

lemma SqlSelect.reads {q : SqlSelect} (h : q.PlainColumns) : q.print.Reads q.written := by
  have hnamespace : (⟨[" = ?"], [.scalar (.integer q.namespaceId)]⟩ : SqlBuf).Reads
      (sqlChars " = " ++ slot (.scalar (.integer q.namespaceId))) :=
    .compare .eq _
  have hhead : (⟨[selectFromSql q.table, " WHERE ", "\"namespace_id\"", " = ?"],
      [.scalar (.integer q.namespaceId)]⟩ : SqlBuf).Reads
      (sqlChars (selectFromSql q.table) ++ (sqlChars " WHERE " ++ (sqlChars "\"namespace_id\"" ++
        (sqlChars " = " ++ slot (.scalar (.integer q.namespaceId)))))) :=
    (SqlBuf.Reads.lit h.projection).append ((SqlBuf.Reads.lit (by decide : Plain " WHERE ")).append
      ((SqlBuf.Reads.lit (by decide : Plain "\"namespace_id\"")).append hnamespace))
  have horder := SqlBuf.Reads.join (by decide : Plain ", ")
    (SqlBuf.Reads.map OrderTerm.print OrderTerm.written fun o ho => OrderTerm.reads (h.orderBy o ho))
  have hall {b : SqlBuf} {w : WrittenSql} (hlimit : b.Reads w) := hhead.append
    (h.conditions.append ((SqlBuf.Reads.lit (by decide : Plain " ORDER BY ")).append
      (horder.append hlimit)))
  rw [SqlSelect.print, SqlSelect.written]
  cases q.limit with
  | none =>
    have hlimit : ({} : SqlBuf).Reads (writtenLimit none) := .empty
    simpa only [append_assoc] using hall hlimit
  | some n =>
    have hlimit : (⟨[" LIMIT ?"], [.scalar (.integer n)]⟩ : SqlBuf).Reads (writtenLimit (some n)) :=
      .ending (by decide) (by decide) _
    simpa only [append_assoc] using hall hlimit

end Reading

section Names

variable {t : Table}

lemma Plain.append {s' : String} (h : Plain s) (h' : Plain s') : Plain (s ++ s') := by
  rw [Plain, String.toList_append, mem_append, not_or]
  exact ⟨h, h'⟩

lemma Plain.intercalate {sep : String} {parts : List String} (hs : Plain sep)
    (h : ∀ s ∈ parts, Plain s) : Plain (sep.intercalate parts) := by
  induction parts with
  | nil => exact of_chars (rfl : _ = String.ofList []) not_mem_nil
  | cons s parts ih =>
    rw [forall_mem_cons] at h
    cases parts with
    | nil =>
      rw [String.intercalate_singleton]
      exact h.1
    | cons s' parts =>
      rw [String.intercalate_cons_cons]
      exact (h.1.append hs).append (ih h.2)

lemma Plain.of_name (h : ∀ ch ∈ s.toList, ch.isAlphanum ∨ ch = '_') : Plain s := by
  intro hmem
  cases h '?' hmem with
  | inl h => exact absurd h (by decide)
  | inr h => exact absurd h (by decide)

lemma Plain.quoted (h : Plain s) : Plain ("\"" ++ s ++ "\"") :=
  ((by decide : Plain "\"").append h).append (by decide)

namespace Table.PlainNames

lemma nameQuoted (ht : t.PlainNames) {f : Field} (hf : f ∈ t.fields) : Plain f.nameQuoted := by
  refine Plain.quoted ?_
  simp only [Table.fields, leadingSystemFields, trailingSystemFields, mem_append, mem_cons,
    not_mem_nil, or_false] at hf
  rcases hf with ((rfl | rfl | rfl) | hf) | rfl | rfl
  case inl.inr => exact .of_name (ht.fields f hf)
  all_goals decide

lemma projected (ht : t.PlainNames) : Plain (", ".intercalate (t.fields.map projectedColumnSql)) := by
  refine .intercalate (by decide) fun s hs => ?_
  obtain ⟨f, hf, rfl⟩ := mem_map.mp hs
  have hname := ht.nameQuoted hf
  rw [projectedColumnSql]
  split_ifs
  · exact (((by decide : Plain "json(").append hname).append (by decide)).append hname
  · exact hname

lemma selectFromSql (ht : t.PlainNames) : Plain (selectFromSql t) :=
  ((((by decide : Plain "SELECT ").append ht.projected).append (by decide)).append
    (.of_name ht.name)).append (by decide)

lemma sortField (ht : t.PlainNames) (d : SortDescriptor) : Plain (sortField t d).nameQuoted := by
  rw [ZyncBase.sortField]
  cases hf : t.fields[d.fieldIndex]? with
  | none => decide
  | some f => exact ht.nameQuoted (mem_of_getElem? hf)

end Table.PlainNames

lemma likeAtom_column {column : String} {v : Value} {pattern : LikePattern} {a : SqlAtom}
    (h : conditionAtom.likeAtom column v pattern = .ok a) : a.column = column := by
  unfold conditionAtom.likeAtom at h
  split at h
  · cases h
    rfl
  · cases h

lemma conditionAtom_column {column : String} {c : Condition} {a : SqlAtom}
    (h : conditionAtom column c = .ok a) : a.column = column := by
  unfold conditionAtom at h
  cases hop : c.op with
  | eq | ne | gt | lt | gte | lte =>
    rw [hop] at h
    obtain ⟨v, -, h⟩ := bind_eq_ok.mp h
    cases h
    rfl
  | contains =>
    rw [hop] at h
    obtain ⟨v, -, h⟩ := bind_eq_ok.mp h
    by_cases harr : c.fieldType = .array
    · rw [if_pos harr] at h
      cases h
      rfl
    · rw [if_neg harr] at h
      exact likeAtom_column h
  | startsWith | endsWith =>
    rw [hop] at h
    obtain ⟨v, -, h⟩ := bind_eq_ok.mp h
    exact likeAtom_column h
  | isIn | notIn | isNull | isNotNull =>
    rw [hop] at h
    cases h
    rfl

variable (ht : t.PlainNames)
include ht

lemma fieldAtom_plain {c : Condition} {a : SqlAtom} (h : fieldAtom t c = .ok a) : Plain a.column := by
  rw [fieldAtom] at h
  cases hf : t.fields[c.fieldIndex]? with
  | none =>
    rw [hf] at h
    cases h
  | some f =>
    rw [hf] at h
    exact conditionAtom_column h ▸ ht.nameQuoted (mem_of_getElem? hf)

lemma fieldAtoms_plain {cs : List Condition} {as : List SqlAtom} (h : fieldAtoms t cs = .ok as) :
    ∀ a ∈ as, Plain a.column := by
  induction cs generalizing as with
  | nil =>
    cases h
    exact fun _ h => absurd h not_mem_nil
  | cons c cs ih =>
    obtain ⟨a, ha, h⟩ := bind_eq_ok.mp h
    obtain ⟨rest, hrest, h⟩ := bind_eq_ok.mp h
    cases h
    exact forall_mem_cons.mpr ⟨fieldAtom_plain ht ha, ih hrest⟩

lemma clauseAtoms_plain {clauses : List OrClause} {groups : List (List SqlAtom)}
    (h : clauseAtoms t clauses = .ok groups) : ∀ as ∈ groups, ∀ a ∈ as, Plain a.column := by
  induction clauses generalizing groups with
  | nil =>
    cases h
    exact fun _ h => absurd h not_mem_nil
  | cons clause clauses ih =>
    rw [clauseAtoms] at h
    by_cases hempty : clause.isEmpty
    · rw [if_pos hempty] at h
      exact ih h
    · rw [if_neg hempty] at h
      obtain ⟨as, has, h⟩ := bind_eq_ok.mp h
      obtain ⟨rest, hrest, h⟩ := bind_eq_ok.mp h
      cases h
      exact forall_mem_cons.mpr ⟨fieldAtoms_plain ht has, ih hrest⟩

lemma filterWhere_plain {p : FilterPredicate} {e : SqlWhere} (h : filterWhere t p = .ok e) :
    ∀ c ∈ e.conjuncts, ∀ a ∈ c.atoms, Plain a.column := by
  unfold filterWhere at h
  split_ifs at h
  · cases h
    exact fun _ h => absurd h not_mem_nil
  · cases h
    exact fun _ h => absurd h not_mem_nil
  · obtain ⟨as, has, h⟩ := bind_eq_ok.mp h
    obtain ⟨groups, hgroups, h⟩ := bind_eq_ok.mp h
    cases h
    intro c hc a ha
    rcases mem_append.mp hc with hc | hc
    · obtain ⟨b, hb, rfl⟩ := mem_map.mp hc
      obtain rfl := mem_singleton.mp ha
      exact fieldAtoms_plain ht has a hb
    · obtain ⟨group, hgroup, rfl⟩ := mem_map.mp hc
      exact clauseAtoms_plain ht hgroups group hgroup a ha

lemma cursorBranches_plain (ties keys : List (SortDescriptor × Value)) :
    ∀ branch ∈ cursorBranches t ties keys, ∀ column ∈ branch.columns, Plain column := by
  induction keys generalizing ties with
  | nil => exact fun _ h => absurd h not_mem_nil
  | cons key keys ih =>
    obtain ⟨d, v⟩ := key
    rw [cursorBranches, forall_mem_cons]
    refine ⟨?_, ih _⟩
    rw [CursorBranch.columns, forall_mem_cons]
    refine ⟨ht.sortField d, fun column hcolumn => ?_⟩
    obtain ⟨k, hk, rfl⟩ := mem_map.mp hcolumn
    obtain ⟨tie, -, rfl⟩ := mem_map.mp hk
    exact ht.sortField tie.1

lemma selectStatement_plain {namespaceId : ℤ} {filter : QueryFilter} {q : SqlSelect}
    (h : selectStatement t namespaceId filter = .ok q) : q.PlainColumns := by
  unfold selectStatement at h
  split_ifs at h
  cases hconditions : filterConditions t filter.predicate with
  | error e =>
    rw [hconditions] at h
    cases h
  | ok conditions =>
    rw [hconditions] at h
    cases h
    refine ⟨fun e he => ?_, fun branches hbranches => ?_, fun o ho => ?_, ht.selectFromSql⟩
    · obtain rfl : conditions = some e := he
      unfold filterConditions at hconditions
      split_ifs at hconditions
      · cases hconditions
      · obtain ⟨w, hw, hsome⟩ := map_eq_ok.mp hconditions
        cases hsome
        exact filterWhere_plain ht hw
    · obtain ⟨cursor, -, rfl⟩ := Option.map_eq_some_iff.mp hbranches
      exact cursorBranches_plain ht _ _
    · obtain ⟨d, -, rfl⟩ := mem_map.mp ho
      exact ht.sortField d

end Names
end ZyncBase
