import ZyncBase.Storage.WriteStatements
import ZyncBase.Sql.FilterAgreement

/-! The statements of the storage engine with the values written in. Each placeholder of a text is
bound with the value that is written in its place. -/
namespace ZyncBase

open List Outcome Placeholders Value Binder

/-- The placeholders of the text and the bindings are those of the written statement: as many, and
the binding of each placeholder has its number and the value written in its place. -/
structure BoundStatement.BindsSlots (st : BoundStatement) (w : WrittenSql) : Prop where
  text : st.text.toList = blank '?' w
  count : st.bound.length = st.text.toList.count '?'
  placeholder : ∀ p, st.text.toList[p]? = some '?' → ∃ v, w[p]? = some (.inr v) ∧
    st.bound[(st.text.toList.take p).count '?']? = some ((st.text.toList.take p).count '?' + 1, v)

lemma BoundStatement.BindsSlots.of_reads {st : BoundStatement} {vs : List Value} {w : WrittenSql}
    (h : Placeholders.Reads '?' st.text.toList vs w) (hbound : st.bound = numbered 1 vs) :
    st.BindsSlots w := by
  refine ⟨h.text, ?_, fun p hp => ?_⟩
  · rw [hbound, length_numbered, h.count]
  · obtain ⟨v, hv, hvs⟩ := h.at_mark hp
    refine ⟨v, hv, ?_⟩
    rw [hbound, getElem?_numbered 1 hvs, Nat.add_comm]

section Binding

/-- The binder has bound the values in order. -/
structure Binder.Holds (b : Binder) (vs : List Value) : Prop where
  bindIdx : b.bindIdx = 1 + vs.length
  bound : b.bound = numbered 1 vs

namespace Binder.Holds

variable {b : Binder} {vs : List Value}

lemma empty : Holds {} [] := ⟨rfl, rfl⟩

lemma bindValue (h : b.Holds vs) (v : Value) : (b.bindValue v).Holds (vs ++ [v]) := by
  refine ⟨?_, ?_⟩
  · rw [Binder.bindValue, h.bindIdx, length_append, length_singleton, Nat.add_assoc]
  · rw [Binder.bindValue, h.bound, h.bindIdx, numbered_append]
    rfl

lemma bindDocIdNamespace (h : b.Holds vs) (id : DocId) (namespaceId : ℤ) :
    ((b.bindDocIdNamespace id namespaceId).advance 2).Holds
      (vs ++ [scalar (.docId id), .scalar (.integer namespaceId)]) := by
  refine ⟨?_, ?_⟩
  · rw [advance, Binder.bindDocIdNamespace, h.bindIdx, length_append, Nat.add_assoc]
    rfl
  · rw [advance, Binder.bindDocIdNamespace, h.bound, h.bindIdx, numbered_append]
    rfl

lemma bindValueSlice (h : b.Holds vs) (us : List Value) : (b.bindValueSlice us).Holds (vs ++ us) := by
  induction us generalizing b vs with
  | nil => rwa [append_nil]
  | cons u us ih =>
    have := ih (h.bindValue u)
    rwa [append_assoc] at this

lemma bindGuard (h : b.Holds vs) (guard : Option SqlBuf) :
    (b.bindGuard guard).Holds (vs ++ (guard.map SqlBuf.values).getD []) := by
  cases guard with
  | none =>
    rw [Option.map_none, Option.getD_none, append_nil]
    exact h
  | some rg => exact h.bindValueSlice rg.values

end Binder.Holds

lemma numbered_eq_mapIdx (vs : List Value) : (vs.mapIdx fun i v => (i + 1, v)) = numbered 1 vs := by
  refine ext_getElem? fun k => ?_
  rw [getElem?_mapIdx]
  cases hv : vs[k]? with
  | none =>
    rw [List.getElem?_eq_none_iff] at hv
    rw [getElem?_eq_none (by rw [length_numbered]; exact hv), Option.map_none]
  | some v => rw [getElem?_numbered 1 hv, Option.map_some, Nat.add_comm]

end Binding

section Appending

/-- The rest of a separated list, `isFirst` when nothing has been written yet. -/
def joinWrittenFrom (sep : String) (isFirst : Bool) (ws : List WrittenSql) : WrittenSql :=
  if isFirst then joinWritten sep ws else ws.flatMap fun w => sqlChars sep ++ w

lemma joinWrittenFrom_cons (sep : String) (isFirst : Bool) (w : WrittenSql)
    (ws : List WrittenSql) : joinWrittenFrom sep isFirst (w :: ws) =
      (if isFirst then [] else sqlChars sep) ++ (w ++ joinWrittenFrom sep false ws) := by
  cases isFirst <;> simp [joinWrittenFrom, joinWritten]

lemma joinWritten_concat (sep : String) (ws : List WrittenSql) (w : WrittenSql) :
    joinWritten sep (ws ++ [w]) = joinWritten sep ws ++ ((if ws.isEmpty then [] else sqlChars sep) ++ w) := by
  cases ws <;> simp [joinWritten]

/-- The text of the buffer, with these values bound, is the written one. -/
structure SqlBuf.ReadsWith (b : SqlBuf) (vs : List Value) (w : WrittenSql) : Prop where
  reads : Placeholders.Reads '?' b.text.toList vs w

namespace SqlBuf.ReadsWith

variable {b : SqlBuf} {vs us : List Value} {v w : WrittenSql} {s : String}

lemma empty : SqlBuf.ReadsWith {} [] [] := ⟨Placeholders.Reads.nil⟩

lemma slice (h : b.ReadsWith vs w) (hs : (⟨[s], us⟩ : SqlBuf).Reads v) :
    (b.appendSlice s).ReadsWith (vs ++ us) (w ++ v) := by
  refine ⟨?_⟩
  have hfragment := hs.reads
  rw [SqlBuf.text, String.toList_join, flatMap_singleton] at hfragment
  rw [appendSlice_eq, text_append, SqlBuf.text, SqlBuf.text, String.toList_join,
    String.toList_join, SqlBuf.lit, flatMap_singleton]
  have hb := h.reads
  rw [SqlBuf.text, String.toList_join] at hb
  exact hb.append hfragment

lemma plain (h : b.ReadsWith vs w) (hs : Plain s) : (b.appendSlice s).ReadsWith vs (w ++ sqlChars s) := by
  have := h.slice (SqlBuf.Reads.lit hs)
  rwa [append_nil] at this

lemma items (h : b.ReadsWith vs w) {parts : List String} (hparts : ∀ s ∈ parts, Plain s) (isFirst : Bool) :
    (appendItems isFirst b parts).ReadsWith vs (w ++ joinWrittenFrom ", " isFirst (parts.map sqlChars)) := by
  induction parts generalizing isFirst b w with
  | nil => cases isFirst <;> simpa [appendItems, joinWrittenFrom, joinWritten] using h
  | cons s parts ih =>
    rw [forall_mem_cons] at hparts
    rw [appendItems, map_cons, joinWrittenFrom_cons]
    cases isFirst with
    | true => simpa using ih (h.plain hparts.1) hparts.2 false
    | false => simpa using ih ((h.plain (by decide : Plain ", ")).plain hparts.1) hparts.2 false

end SqlBuf.ReadsWith

lemma BoundStatement.BindsSlots.of_readsWith {buf : SqlBuf} {b : Binder} {vs : List Value}
    {w : WrittenSql} (h : buf.ReadsWith vs w) (hb : b.Holds vs) :
    BoundStatement.BindsSlots ⟨buf.text, b.bound⟩ w :=
  .of_reads h.reads hb.bound

lemma SqlBuf.Reads.merge {s s' : String} {us us' : List Value} {v w : WrittenSql}
    (h : (⟨[s], us⟩ : SqlBuf).Reads v) (h' : (⟨[s'], us'⟩ : SqlBuf).Reads w) :
    (⟨[s ++ s'], us ++ us'⟩ : SqlBuf).Reads (v ++ w) := by
  have hv := h.reads
  have hw := h'.reads
  refine ⟨?_⟩
  rw [SqlBuf.text, String.toList_join, flatMap_singleton] at hv hw ⊢
  rw [String.toList_append]
  exact hv.append hw

end Appending

section Written

variable (t : Table)

/-- A column with the value that it is given, an array as binary JSON. -/
structure SqlAssignment where
  column : String
  jsonb : Bool
  value : Value

namespace SqlAssignment

def writtenValue (a : SqlAssignment) : WrittenSql :=
  if a.jsonb then sqlChars "jsonb(" ++ (slot a.value ++ sqlChars ")") else slot a.value

def written (a : SqlAssignment) : WrittenSql :=
  sqlChars a.column ++ (sqlChars " = " ++ a.writtenValue)

end SqlAssignment

def fieldAssignment (f : Field) (v : Value) : SqlAssignment :=
  ⟨f.nameQuoted, f.storageType = .array, v⟩

def fieldAssignments (fields : List Field) (columns : List ColumnValue) : List SqlAssignment :=
  List.zipWith fieldAssignment fields (columns.map ColumnValue.value)

/-- What an upsert inserts: the system columns around the columns of the operation. -/
def upsertAssignments (namespaceId : ℤ) (ownerId : DocId) (createdAt : ℤ) (op : UpsertOp)
    (fields : List Field) : List SqlAssignment :=
  [⟨"\"id\"", false, .scalar (.docId op.id)⟩, ⟨"\"namespace_id\"", false, .scalar (.integer namespaceId)⟩,
    ⟨"\"owner_id\"", false, .scalar (.docId ownerId)⟩] ++
  (if t.isUsersTable then [⟨"\"external_id\"", false, .scalar (.text (hexSlice op.id))⟩] else []) ++
  fieldAssignments fields op.columns ++
  [⟨"\"created_at\"", false, .scalar (.integer createdAt)⟩,
    ⟨"\"updated_at\"", false, .scalar (.integer createdAt)⟩]

def updateAssignments (op : UpdateOp) (fields : List Field) : List SqlAssignment :=
  fieldAssignments fields op.columns ++ [⟨"\"updated_at\"", false, .scalar (.integer op.timestamp)⟩]

def writtenInsert (assignments : List SqlAssignment) : WrittenSql :=
  sqlChars "INSERT INTO " ++ sqlChars t.nameQuoted ++ sqlChars " (" ++
    joinWritten ", " (assignments.map fun a => sqlChars a.column) ++ sqlChars ") VALUES (" ++
    joinWritten ", " (assignments.map SqlAssignment.writtenValue) ++ sqlChars ")"

def writtenConflict (columns : List String) : WrittenSql :=
  sqlChars " ON CONFLICT(" ++ sqlChars "\"id\"" ++ sqlChars ") DO UPDATE SET " ++
    joinWritten ", " (columns.map fun column => sqlChars (column ++ " = excluded." ++ column))

def writtenUpsertWhere : WrittenSql :=
  sqlChars " WHERE " ++ sqlChars t.nameQuoted ++ sqlChars "." ++ sqlChars "\"namespace_id\"" ++
    sqlChars " = excluded." ++ sqlChars "\"namespace_id\""

def writtenGuard : Option SqlWhere → WrittenSql
  | none => []
  | some e => sqlChars " AND (" ++ (e.written ++ sqlChars ")")

def writtenReturning : WrittenSql :=
  sqlChars " RETURNING " ++ sqlChars (", ".intercalate (t.fields.map projectedColumnSql))

def writtenDocumentWhere (id : DocId) (namespaceId : ℤ) : WrittenSql :=
  sqlChars " WHERE " ++ sqlChars "\"id\"" ++ sqlChars "=" ++ slot (scalar (.docId id)) ++
    sqlChars " AND " ++ sqlChars "\"namespace_id\"" ++ sqlChars "=" ++
    slot (scalar (.integer namespaceId))

def writtenUpsert (assignments : List SqlAssignment) (fields : List Field)
    (guard : Option SqlWhere) : WrittenSql :=
  writtenInsert t assignments ++ writtenConflict (fields.map Field.nameQuoted ++ ["\"updated_at\""]) ++
    writtenUpsertWhere t ++ writtenGuard guard ++ writtenReturning t

def writtenUpdate (assignments : List SqlAssignment) (id : DocId) (namespaceId : ℤ)
    (guard : Option SqlWhere) : WrittenSql :=
  sqlChars "UPDATE " ++ sqlChars t.nameQuoted ++ sqlChars " SET " ++
    joinWritten ", " (assignments.map SqlAssignment.written) ++ writtenDocumentWhere id namespaceId ++
    writtenGuard guard ++ writtenReturning t

def writtenDelete (id : DocId) (namespaceId : ℤ) (guard : Option SqlWhere) : WrittenSql :=
  sqlChars "DELETE FROM " ++ sqlChars t.nameQuoted ++ writtenDocumentWhere id namespaceId ++
    writtenGuard guard ++ writtenReturning t

def writtenSelectDocument (id : DocId) (namespaceId : ℤ) : WrittenSql :=
  sqlChars (selectFromSql t) ++ writtenDocumentWhere id namespaceId

def writtenReferentialLookup (f : Field) (parentId : DocId) : WrittenSql :=
  sqlChars (selectFromSql t) ++ sqlChars " WHERE " ++ sqlChars f.nameQuoted ++ sqlChars "=" ++
    slot (scalar (.docId parentId)) ++ sqlChars " ORDER BY " ++ sqlChars "\"id\""

def writtenResolveNamespace (nspace : Bytes) : WrittenSql :=
  sqlChars "INSERT INTO _zync_namespaces (name)\nVALUES (" ++ slot (scalar (.text nspace)) ++
    sqlChars ")\nON CONFLICT(name) DO UPDATE SET name = excluded.name\nRETURNING id"

/-- The row of a user that is seen for the first time. -/
def userAssignments (namespaceId : ℤ) (externalId : Bytes) (newUserId : DocId) (timestamp : ℤ) :
    List SqlAssignment :=
  [⟨"\"id\"", false, .scalar (.docId newUserId)⟩, ⟨"\"namespace_id\"", false, .scalar (.integer namespaceId)⟩,
    ⟨"\"owner_id\"", false, .scalar (.docId newUserId)⟩,
    ⟨"\"external_id\"", false, .scalar (.text externalId)⟩,
    ⟨"\"created_at\"", false, .scalar (.integer timestamp)⟩,
    ⟨"\"updated_at\"", false, .scalar (.integer timestamp)⟩]

def writtenResolveUser (assignments : List SqlAssignment) : WrittenSql :=
  sqlChars "INSERT INTO \"users\" (" ++
    joinWritten ", " (assignments.map fun a => sqlChars a.column) ++ sqlChars ")\nVALUES (" ++
    joinWritten ", " (assignments.map SqlAssignment.writtenValue) ++
    sqlChars (")\nON CONFLICT(\"namespace_id\", \"external_id\") DO UPDATE SET \"external_id\" = " ++
      "excluded.\"external_id\"\nRETURNING \"id\"")

end Written

variable {fields : List Field} {rendered : Option SqlBuf}

section Values

lemma fieldAssignment_columns {values : List Value} (hlen : fields.length = values.length) :
    (List.zipWith fieldAssignment fields values).map SqlAssignment.column = fields.map Field.nameQuoted ∧
      (List.zipWith fieldAssignment fields values).map SqlAssignment.value = values := by
  induction fields generalizing values with
  | nil =>
    obtain rfl := length_eq_zero_iff.mp hlen.symm
    exact ⟨rfl, rfl⟩
  | cons f fields ih =>
    cases values with
    | nil => cases hlen
    | cons v values =>
      obtain ⟨hcolumns, hvalues⟩ := ih (Nat.succ.inj hlen)
      rw [zipWith_cons_cons, map_cons, map_cons, map_cons, hcolumns, hvalues]
      exact ⟨rfl, rfl⟩

lemma valuePlaceholder_reads (f : Field) (v : Value) :
    (⟨[if f.storageType = .array then "jsonb(?)" else "?"], [v]⟩ : SqlBuf).Reads
      (fieldAssignment f v).writtenValue := by
  by_cases h : f.storageType = .array
  · simp only [h, if_true, SqlAssignment.writtenValue, fieldAssignment, decide_true]
    exact .around (by decide) (by decide) (by decide) v
  · simp only [h, if_false, SqlAssignment.writtenValue, fieldAssignment, decide_false, Bool.false_eq_true]
    exact .mark v

lemma commaPlaceholder_reads (v : Value) : (⟨[", ?"], [v]⟩ : SqlBuf).Reads (sqlChars ", " ++ slot v) :=
  .ending (by decide) (by decide) v

namespace SqlBuf.ReadsWith

variable {b : SqlBuf} {vs : List Value} {w : WrittenSql}

lemma fieldPlaceholders (h : b.ReadsWith vs w) {columns : List Value} (hlen : fields.length = columns.length) :
    (appendFieldPlaceholders b fields).ReadsWith (vs ++ columns)
      (w ++ (List.zipWith fieldAssignment fields columns).flatMap fun a =>
        sqlChars ", " ++ a.writtenValue) := by
  induction fields generalizing columns b vs w with
  | nil =>
    obtain rfl := length_eq_zero_iff.mp hlen.symm
    simpa [appendFieldPlaceholders] using h
  | cons f fields ih =>
    cases columns with
    | nil => cases hlen
    | cons v columns =>
      have hcomma : (if f.storageType = .array then ", jsonb(?)" else ", ?") =
          ", " ++ (if f.storageType = .array then "jsonb(?)" else "?") := by
        split_ifs <;> rfl
      have hfirst : (⟨[if f.storageType = .array then ", jsonb(?)" else ", ?"], [v]⟩ : SqlBuf).Reads
          (sqlChars ", " ++ (fieldAssignment f v).writtenValue) := by
        rw [hcomma]
        exact (SqlBuf.Reads.lit (by decide : Plain ", ")).merge (valuePlaceholder_reads f v)
      have := ih (h.slice hfirst) (Nat.succ.inj hlen)
      rw [appendFieldPlaceholders, zipWith_cons_cons, flatMap_cons]
      simpa only [List.append_assoc, singleton_append] using this

lemma threePlaceholders_reads (u v w : Value) : (⟨[") VALUES (?, ?, ?"], [u, v, w]⟩ : SqlBuf).Reads
    (sqlChars ") VALUES (" ++ slot u ++ (sqlChars ", " ++ slot v ++ (sqlChars ", " ++ slot w))) := by
  have hfirst : (⟨[") VALUES (?"], [u]⟩ : SqlBuf).Reads (sqlChars ") VALUES (" ++ slot u) :=
    .ending (by decide) (by decide) u
  have htext : ") VALUES (?, ?, ?" = ") VALUES (?" ++ (", ?" ++ ", ?") := rfl
  rw [htext]
  exact hfirst.merge ((commaPlaceholder_reads v).merge (commaPlaceholder_reads w))

lemma lastPlaceholders_reads (u v : Value) :
    (⟨[", ?, ?)"], [u, v]⟩ : SqlBuf).Reads
      (sqlChars ", " ++ slot u ++ (sqlChars ", " ++ (slot v ++ sqlChars ")"))) := by
  have hlast : (⟨[", ?)"], [v]⟩ : SqlBuf).Reads (sqlChars ", " ++ (slot v ++ sqlChars ")")) :=
    .around (by decide) (by decide) (by decide) v
  have htext : ", ?, ?)" = ", ?" ++ ", ?)" := rfl
  rw [htext]
  exact (commaPlaceholder_reads u).merge hlast

lemma writtenValue_scalar (column : String) (v : Value) :
    SqlAssignment.writtenValue ⟨column, false, v⟩ = slot v := rfl

lemma valuePlaceholders (h : b.ReadsWith vs w) (t : Table) (namespaceId : ℤ) (ownerId : DocId)
    (createdAt : ℤ) (op : UpsertOp)
    (hlen : fields.length = op.columns.length) :
    (appendValuePlaceholders t b fields).ReadsWith
      (vs ++ (upsertAssignments t namespaceId ownerId createdAt op fields).map SqlAssignment.value)
      (w ++ (sqlChars ") VALUES (" ++ joinWritten ", "
        ((upsertAssignments t namespaceId ownerId createdAt op fields).map
          SqlAssignment.writtenValue) ++ sqlChars ")")) := by
  have hlen' : fields.length = (op.columns.map ColumnValue.value).length := by
    rw [length_map, hlen]
  have hvalues := (fieldAssignment_columns hlen').2
  have hthree := h.slice (threePlaceholders_reads (.scalar (.docId op.id))
    (.scalar (.integer namespaceId)) (.scalar (.docId ownerId)))
  have hlast := lastPlaceholders_reads (.scalar (.integer createdAt)) (.scalar (.integer createdAt))
  rw [appendValuePlaceholders, upsertAssignments, fieldAssignments]
  cases hu : t.isUsersTable with
  | true =>
    have hall := ((hthree.slice (commaPlaceholder_reads (.scalar (.text (hexSlice op.id))))
      ).fieldPlaceholders hlen').slice hlast
    simpa [joinWritten, hvalues, writtenValue_scalar, flatMap_map, -map_zipWith] using hall
  | false =>
    have hall := (hthree.fieldPlaceholders hlen').slice hlast
    simpa [joinWritten, hvalues, writtenValue_scalar, flatMap_map, -map_zipWith] using hall

lemma guard (h : b.ReadsWith vs w) {e : Option SqlWhere}
    (hrendered : Option.Rel SqlBuf.Reads rendered (e.map fun e => writtenGuard (some e))) :
    (appendGuard b (rendered.map SqlBuf.text)).ReadsWith
      (vs ++ (rendered.map SqlBuf.values).getD []) (w ++ writtenGuard e) := by
  cases e with
  | none =>
    cases hrendered
    simpa [appendGuard, writtenGuard] using h
  | some e =>
    cases hrendered with
    | @some rg _ hrg =>
      refine h.slice (s := rg.text) ⟨?_⟩
      rw [SqlBuf.text, String.toList_join, flatMap_singleton]
      exact hrg.reads

variable {t : Table} (ht : t.PlainNames)
include ht

lemma tableName : Plain t.nameQuoted := .quoted (.of_name ht.name)

lemma insertColumns (h : b.ReadsWith vs w) (hfields : ∀ f ∈ fields, f ∈ t.fields) :
    (appendInsertColumnList t b fields).ReadsWith vs
      (w ++ sqlChars "INSERT INTO " ++ sqlChars t.nameQuoted ++ sqlChars " (" ++ joinWritten ", "
        ((["\"id\"", "\"namespace_id\"", "\"owner_id\""] ++
          (if t.isUsersTable then ["\"external_id\""] else []) ++ fields.map Field.nameQuoted ++
          ["\"created_at\"", "\"updated_at\""]).map sqlChars)) := by
  have hnames : ∀ s ∈ ["\"id\"", "\"namespace_id\"", "\"owner_id\""] ++
      (if t.isUsersTable then ["\"external_id\""] else []) ++ fields.map Field.nameQuoted ++
      ["\"created_at\"", "\"updated_at\""], Plain s := by
    have hleading : ∀ s ∈ ["\"id\"", "\"namespace_id\"", "\"owner_id\""], Plain s := by decide
    have htrailing : ∀ s ∈ ["\"created_at\"", "\"updated_at\""], Plain s := by decide
    have hexternal : ∀ s ∈ (if t.isUsersTable then ["\"external_id\""] else []), Plain s := by
      cases t.isUsersTable <;> decide
    intro s hs
    rcases mem_append.mp hs with hs | hs
    · rcases mem_append.mp hs with hs | hs
      · exact (mem_append.mp hs).elim (hleading s) (hexternal s)
      · obtain ⟨f, hf, rfl⟩ := mem_map.mp hs
        exact ht.nameQuoted (hfields f hf)
    · exact htrailing s hs
  have hall := (((h.plain (by decide : Plain "INSERT INTO ")).plain (tableName ht)).plain
    (by decide : Plain " (")).items hnames true
  rw [joinWrittenFrom, if_pos rfl] at hall
  exact hall

lemma conflict (h : b.ReadsWith vs w) (hfields : ∀ f ∈ fields, f ∈ t.fields) :
    (appendOnConflictUpdateSet b fields).ReadsWith vs
      (w ++ writtenConflict (fields.map Field.nameQuoted ++ ["\"updated_at\""])) := by
  have hnames : ∀ s ∈ (fields.map fun f => f.nameQuoted ++ " = excluded." ++ f.nameQuoted) ++
      ["\"updated_at\" = excluded.\"updated_at\""], Plain s := by
    intro s hs
    rcases mem_append.mp hs with hs | hs
    · obtain ⟨f, hf, rfl⟩ := mem_map.mp hs
      have hname := ht.nameQuoted (hfields f hf)
      exact (hname.append (by decide)).append hname
    · obtain rfl := mem_singleton.mp hs
      exact .of_chars rfl (by decide)
  have hall := (((h.plain (by decide : Plain " ON CONFLICT(")).plain
    (by decide : Plain "\"id\"")).plain (by decide : Plain ") DO UPDATE SET ")).items hnames true
  have hlast : "\"updated_at\"" ++ " = excluded." ++ "\"updated_at\"" =
      "\"updated_at\" = excluded.\"updated_at\"" := rfl
  rw [appendOnConflictUpdateSet]
  simpa [writtenConflict, joinWrittenFrom, Function.comp_def, hlast] using hall

lemma returning (h : b.ReadsWith vs w) : (appendReturning t b).ReadsWith vs (w ++ writtenReturning t) := by
  have hall := (h.plain (by decide : Plain " RETURNING ")).plain ht.projected
  rw [List.append_assoc] at hall
  exact hall

lemma upsertWhere (h : b.ReadsWith vs w) {e : Option SqlWhere}
    (hrendered : Option.Rel SqlBuf.Reads rendered (e.map fun e => writtenGuard (some e))) :
    (appendUpsertWhereClause t b (rendered.map SqlBuf.text)).ReadsWith
      (vs ++ (rendered.map SqlBuf.values).getD []) (w ++ writtenUpsertWhere t ++ writtenGuard e) := by
  have hall := ((((((h.plain (by decide : Plain " WHERE ")).plain (tableName ht)).plain
    (by decide : Plain ".")).plain (by decide : Plain "\"namespace_id\"")).plain
    (by decide : Plain " = excluded.")).plain (by decide : Plain "\"namespace_id\"")).guard hrendered
  rw [appendUpsertWhereClause, writtenUpsertWhere]
  simpa only [List.append_assoc] using hall

omit ht in
lemma documentWhere (h : b.ReadsWith vs w) (id : DocId) (namespaceId : ℤ) {e : Option SqlWhere}
    (hrendered : Option.Rel SqlBuf.Reads rendered (e.map fun e => writtenGuard (some e))) :
    (appendDocIdNamespaceWhere b (rendered.map SqlBuf.text)).ReadsWith
      (vs ++ [scalar (.docId id), .scalar (.integer namespaceId)] ++
        (rendered.map SqlBuf.values).getD [])
      (w ++ writtenDocumentWhere id namespaceId ++ writtenGuard e) := by
  have hid : (⟨["=? AND "], [.scalar (.docId id)]⟩ : SqlBuf).Reads
      (sqlChars "=" ++ (slot (scalar (.docId id)) ++ sqlChars " AND ")) :=
    .around (by decide) (by decide) (by decide) _
  have hnamespace : (⟨["=?"], [.scalar (.integer namespaceId)]⟩ : SqlBuf).Reads
      (sqlChars "=" ++ slot (scalar (.integer namespaceId))) :=
    .ending (by decide) (by decide) _
  have hall := (((((h.plain (by decide : Plain " WHERE ")).plain (by decide : Plain "\"id\"")).slice
    hid).plain (by decide : Plain "\"namespace_id\"")).slice hnamespace).guard hrendered
  rw [appendDocIdNamespaceWhere, writtenDocumentWhere]
  simpa only [List.append_assoc, singleton_append, cons_append, nil_append] using hall

lemma updateColumns (h : b.ReadsWith vs w) (hfields : ∀ f ∈ fields, f ∈ t.fields)
    {values : List Value} (hlen : fields.length = values.length) (isFirst : Bool) :
    (appendUpdateColumns isFirst b fields).1 = (isFirst && fields.isEmpty) ∧
      (appendUpdateColumns isFirst b fields).2.ReadsWith (vs ++ values)
        (w ++ joinWrittenFrom ", " isFirst
          ((List.zipWith fieldAssignment fields values).map SqlAssignment.written)) := by
  induction fields generalizing values b vs w isFirst with
  | nil =>
    obtain rfl := length_eq_zero_iff.mp hlen.symm
    cases isFirst <;> exact ⟨rfl, by simpa [appendUpdateColumns, joinWrittenFrom, joinWritten] using h⟩
  | cons f fields ih =>
    cases values with
    | nil => cases hlen
    | cons v values =>
      rw [forall_mem_cons] at hfields
      have hseparated : (if isFirst then b else b.appendSlice ", ").ReadsWith vs
          (w ++ if isFirst then [] else sqlChars ", ") := by
        cases isFirst with
        | true => simpa using h
        | false => exact h.plain (by decide : Plain ", ")
      have hfirst := ((hseparated.plain (ht.nameQuoted hfields.1)).plain
        (by decide : Plain " = ")).slice (valuePlaceholder_reads f v)
      obtain ⟨hempty, hrest⟩ := ih hfirst hfields.2 (Nat.succ.inj hlen) false
      refine ⟨by rw [appendUpdateColumns, hempty]; simp, ?_⟩
      rw [appendUpdateColumns, zipWith_cons_cons, map_cons, joinWrittenFrom_cons]
      simpa only [SqlAssignment.written, List.append_assoc, singleton_append,
        cons_append, nil_append, fieldAssignment] using hrest

end SqlBuf.ReadsWith
end Values

section Statements

variable {t : Table} {namespaceId : ℤ} {st : BoundStatement}

lemma getColumnFields_eq_ok {columns : List ColumnValue} (h : columns.mapM (getColumnField t) = .ok fields) :
    fields.length = columns.length ∧ ∀ f ∈ fields, f ∈ t.fields := by
  rw [mapM_eq_ok] at h
  refine ⟨h.length_eq.symm, ?_⟩
  induction h with
  | nil => exact fun _ h => absurd h not_mem_nil
  | @cons c f _ _ hf _ ih =>
    refine forall_mem_cons.mpr ⟨?_, ih⟩
    rw [getColumnField] at hf
    cases hc : t.fields[c.index]? with
    | none =>
      rw [hc] at hf
      cases hf
    | some g =>
      rw [hc] at hf
      cases hf
      exact mem_of_getElem? hc

variable (ht : t.PlainNames)
include ht

lemma renderGuardClause_reads {g : Option FilterPredicate} (h : renderGuardClause t g = .ok rendered) :
    ∃ e, renderAndClause t g = .ok e ∧
      Option.Rel SqlBuf.Reads rendered (e.map fun e => writtenGuard (some e)) := by
  unfold renderGuardClause at h
  cases g with
  | none =>
    cases h
    exact ⟨none, rfl, .none⟩
  | some p =>
    dsimp only at h
    by_cases htrue : p.isAlwaysTrue
    · rw [if_pos htrue] at h
      cases h
      exact ⟨none, by rw [renderAndClause]; exact if_pos htrue, .none⟩
    · rw [if_neg htrue, appendFilterPredicateSql_eq] at h
      cases hw : filterWhere t p with
      | error e =>
        rw [hw] at h
        cases h
      | ok e =>
        rw [hw] at h
        cases h
        refine ⟨some e, ?_, .some ?_⟩
        · rw [renderAndClause, if_neg htrue, hw]
        · have hopening : (SqlBuf.appendSlice {} " AND (").Reads (sqlChars " AND (") :=
            .lit (by decide)
          have hall := (hopening.append (SqlWhere.reads (filterWhere_plain ht hw))).append
            (.lit (by decide : Plain ")"))
          rw [append_assoc] at hall
          rw [SqlBuf.appendSlice_eq]
          exact hall

omit ht in
lemma upsertAssignments_columns (namespaceId : ℤ) (ownerId : DocId) (createdAt : ℤ)
    {op : UpsertOp} (hlen : fields.length = op.columns.length) :
    (upsertAssignments t namespaceId ownerId createdAt op fields).map SqlAssignment.column =
      ["\"id\"", "\"namespace_id\"", "\"owner_id\""] ++
        (if t.isUsersTable then ["\"external_id\""] else []) ++ fields.map Field.nameQuoted ++
        ["\"created_at\"", "\"updated_at\""] := by
  have hlen' : fields.length = (op.columns.map ColumnValue.value).length := by
    rw [length_map, hlen]
  have hcolumns := (fieldAssignment_columns hlen').1
  rw [upsertAssignments, map_append, map_append, map_append, fieldAssignments, hcolumns]
  cases t.isUsersTable <;> rfl

/-- An upsert binds the placeholder of each inserted column, and those of its guard, with the values
that are written there. -/
lemma upsertStatement_binds {op : UpsertOp} {ownerId : DocId} {createdAt : ℤ}
    (h : upsertStatement t namespaceId op ownerId createdAt = .ok st) :
    ∃ fields e, op.columns.mapM (getColumnField t) = .ok fields ∧ renderAndClause t op.guardPredicate = .ok e ∧
      st.BindsSlots (writtenUpsert t
        (upsertAssignments t namespaceId ownerId createdAt op fields) fields e) := by
  obtain ⟨rendered, hrendered, h⟩ := bind_eq_ok.mp h
  obtain ⟨sql, hsql, h⟩ := bind_eq_ok.mp h
  obtain ⟨fields, hfields, hsql⟩ := bind_eq_ok.mp hsql
  cases hsql
  cases h
  obtain ⟨e, he, hguard⟩ := renderGuardClause_reads ht hrendered
  obtain ⟨hlen, hmem⟩ := getColumnFields_eq_ok hfields
  refine ⟨fields, e, hfields, he, ?_⟩
  have hvalues : (fieldAssignments fields op.columns).map SqlAssignment.value =
      op.columns.map ColumnValue.value :=
    (fieldAssignment_columns (by rw [length_map, hlen])).2
  have htext := ((((SqlBuf.ReadsWith.empty.insertColumns ht hmem).valuePlaceholders t namespaceId
    ownerId createdAt op hlen).conflict ht hmem).upsertWhere ht hguard).returning ht
  rw [← upsertAssignments_columns namespaceId ownerId createdAt hlen] at htext
  have howner := (Holds.empty.bindDocIdNamespace op.id namespaceId).bindValue (.scalar (.docId ownerId))
  have hexternal {b : Binder} {vs : List Value} (hb : b.Holds vs) :
      (if t.isUsersTable then b.bindValue (scalar (.text (hexSlice op.id))) else b).Holds
        (vs ++ if t.isUsersTable then [scalar (.text (hexSlice op.id))] else []) := by
    cases t.isUsersTable with
    | true => exact hb.bindValue _
    | false =>
      rw [if_neg Bool.false_ne_true, if_neg Bool.false_ne_true, append_nil]
      exact hb
  have hbinder := ((((hexternal howner).bindValueSlice (op.columns.map ColumnValue.value)).bindValue
    (.scalar (.integer createdAt))).bindValue (scalar (.integer createdAt))).bindGuard rendered
  have hvs : [] ++ [scalar (.docId op.id), .scalar (.integer namespaceId)] ++
      [scalar (.docId ownerId)] ++
      (if t.isUsersTable then [scalar (.text (hexSlice op.id))] else []) ++
      op.columns.map ColumnValue.value ++ [scalar (.integer createdAt)] ++
      [scalar (.integer createdAt)] ++ (rendered.map SqlBuf.values).getD [] =
      [] ++ (upsertAssignments t namespaceId ownerId createdAt op fields).map SqlAssignment.value ++
        (rendered.map SqlBuf.values).getD [] := by
    rw [upsertAssignments, map_append, map_append, hvalues]
    cases t.isUsersTable <;> simp
  rw [hvs] at hbinder
  have hall := BoundStatement.BindsSlots.of_readsWith htext hbinder
  simpa only [writtenUpsert, writtenInsert, map_map, Function.comp_def, append_assoc, nil_append] using hall

lemma updateColumnSet_reads {b : SqlBuf} {w : WrittenSql} (h : b.ReadsWith [] w) {op : UpdateOp}
    (hfields : op.columns.mapM (getColumnField t) = .ok fields) :
    (appendUpdateColumnSet b fields).ReadsWith
      (op.columns.map ColumnValue.value ++ [scalar (.integer op.timestamp)])
      (w ++ joinWritten ", " ((updateAssignments op fields).map SqlAssignment.written)) := by
  obtain ⟨hlen, hmem⟩ := getColumnFields_eq_ok hfields
  have hlen' : fields.length = (op.columns.map ColumnValue.value).length := by
    rw [length_map, hlen]
  obtain ⟨hempty, hcolumns⟩ := h.updateColumns ht hmem hlen' true
  have htimestamp : (⟨[" = ?"], [.scalar (.integer op.timestamp)]⟩ : SqlBuf).Reads
      (sqlChars " = " ++ slot (scalar (.integer op.timestamp))) := .compare .eq _
  have hsome : (List.zipWith fieldAssignment fields (op.columns.map ColumnValue.value)).isEmpty =
      fields.isEmpty := by
    cases fields with
    | nil => rfl
    | cons f fields =>
      cases hc : op.columns.map ColumnValue.value with
      | nil =>
        rw [hc] at hlen'
        cases hlen'
      | cons v vs => rfl
  rw [appendUpdateColumnSet]
  rcases hres : appendUpdateColumns true b fields with ⟨isFirst, b'⟩
  rw [hres] at hempty hcolumns
  rw [updateAssignments, map_append, map_singleton, joinWritten_concat, isEmpty_map,
    fieldAssignments, hsome, ← hempty.trans (Bool.true_and _)]
  have hseparated : (if isFirst then b' else b'.appendSlice ", ").ReadsWith
      ([] ++ op.columns.map ColumnValue.value)
      (w ++ joinWritten ", " ((List.zipWith fieldAssignment fields
        (op.columns.map ColumnValue.value)).map SqlAssignment.written) ++
        if isFirst then [] else sqlChars ", ") := by
    rw [joinWrittenFrom, if_pos rfl] at hcolumns
    cases isFirst with
    | true =>
      rw [if_pos rfl, if_pos rfl, append_nil]
      exact hcolumns
    | false => exact hcolumns.plain (by decide : Plain ", ")
  have hall := (hseparated.plain (by decide : Plain "\"updated_at\"")).slice htimestamp
  simpa only [SqlAssignment.written, SqlBuf.ReadsWith.writtenValue_scalar, append_assoc,
    nil_append] using hall

/-- An update binds the placeholder of each column that it sets, then those of the row and of its
guard. -/
lemma updateStatement_binds {op : UpdateOp} (h : updateStatement t namespaceId op = .ok st) :
    ∃ fields e, op.columns.mapM (getColumnField t) = .ok fields ∧ renderAndClause t op.guardPredicate = .ok e ∧
      st.BindsSlots (writtenUpdate t (updateAssignments op fields) op.id namespaceId e) := by
  obtain ⟨rendered, hrendered, h⟩ := bind_eq_ok.mp h
  obtain ⟨sql, hsql, h⟩ := bind_eq_ok.mp h
  obtain ⟨fields, hfields, hsql⟩ := bind_eq_ok.mp hsql
  cases hsql
  cases h
  obtain ⟨e, he, hguard⟩ := renderGuardClause_reads ht hrendered
  refine ⟨fields, e, hfields, he, ?_⟩
  have hhead := ((SqlBuf.ReadsWith.empty.plain (by decide : Plain "UPDATE ")).plain
    (SqlBuf.ReadsWith.tableName ht)).plain (by decide : Plain " SET ")
  have htext := ((updateColumnSet_reads ht hhead hfields).documentWhere op.id namespaceId
    hguard).returning ht
  have hbinder := (((Holds.empty.bindValueSlice (op.columns.map ColumnValue.value)).bindValue
    (.scalar (.integer op.timestamp))).bindDocIdNamespace op.id namespaceId).bindGuard rendered
  have hall := BoundStatement.BindsSlots.of_readsWith htext hbinder
  simpa only [writtenUpdate, append_assoc, nil_append] using hall

lemma deleteStatement_binds {op : DeleteOp} (h : deleteStatement t namespaceId op = .ok st) :
    ∃ e, renderAndClause t op.guardPredicate = .ok e ∧ st.BindsSlots (writtenDelete t op.id namespaceId e) := by
  obtain ⟨rendered, hrendered, h⟩ := bind_eq_ok.mp h
  cases h
  obtain ⟨e, he, hguard⟩ := renderGuardClause_reads ht hrendered
  refine ⟨e, he, ?_⟩
  have hhead := (SqlBuf.ReadsWith.empty.plain (by decide : Plain "DELETE FROM ")).plain
    (SqlBuf.ReadsWith.tableName ht)
  have hnone : Option.Rel SqlBuf.Reads none ((none : Option SqlWhere).map
      fun e => writtenGuard (some e)) := .none
  have htext := ((hhead.documentWhere op.id namespaceId hnone).guard hguard).returning ht
  have hbinder := (Holds.empty.bindDocIdNamespace op.id namespaceId).bindGuard rendered
  have hall := BoundStatement.BindsSlots.of_readsWith htext (by simpa using hbinder)
  rw [writtenDelete, deleteDocumentSql, deleteDocumentSqlPrefix]
  simpa [writtenGuard] using hall

lemma selectDocumentStatement_binds (id : DocId) : (selectDocumentStatement t namespaceId id).BindsSlots
    (writtenSelectDocument t id namespaceId) := by
  have hhead := SqlBuf.ReadsWith.empty.plain ht.selectFromSql
  have hnone : Option.Rel SqlBuf.Reads none ((none : Option SqlWhere).map
      fun e => writtenGuard (some e)) := .none
  have htext := hhead.documentWhere id namespaceId hnone
  have hbinder := Holds.empty.bindDocIdNamespace id namespaceId
  have hall := BoundStatement.BindsSlots.of_readsWith htext (by simpa using hbinder)
  rw [selectDocumentStatement, selectDocumentSql, writtenSelectDocument]
  simpa [writtenGuard, advance] using hall

lemma referentialLookupStatement_binds {f : Field} (hf : f ∈ t.fields) (parentId : DocId) :
    (referentialLookupStatement t f parentId).BindsSlots (writtenReferentialLookup t f parentId) := by
  have hparent : (⟨["=? ORDER BY "], [.scalar (.docId parentId)]⟩ : SqlBuf).Reads
      (sqlChars "=" ++ (slot (scalar (.docId parentId)) ++ sqlChars " ORDER BY ")) :=
    .around (by decide) (by decide) (by decide) _
  have htext := ((((SqlBuf.ReadsWith.empty.plain ht.selectFromSql).plain
    (by decide : Plain " WHERE ")).plain (ht.nameQuoted hf)).slice hparent).plain
    (by decide : Plain "\"id\"")
  have hbinder := Holds.empty.bindValue (scalar (.docId parentId))
  have hall := BoundStatement.BindsSlots.of_readsWith htext hbinder
  rw [referentialLookupStatement, referentialLookupSql, writtenReferentialLookup]
  simpa using hall

lemma selectQueryStatement_binds {filter : QueryFilter} (horder : filter.orderBy ≠ [])
    (h : selectQueryStatement t namespaceId filter = .ok st) :
    ∃ q, selectStatement t namespaceId filter = .ok q ∧ st.BindsSlots q.written := by
  obtain ⟨sql, hsql, h⟩ := bind_eq_ok.mp h
  cases h
  rw [buildSelectQuery_eq t namespaceId horder] at hsql
  obtain ⟨q, hq, rfl⟩ := map_eq_ok.mp hsql
  exact ⟨q, hq, .of_reads (SqlSelect.reads (selectStatement_plain ht hq)).reads (numbered_eq_mapIdx _)⟩

omit ht in
lemma resolveNamespaceStatement_binds (nspace : Bytes) :
    (resolveNamespaceStatement nspace).BindsSlots (writtenResolveNamespace nspace) := by
  have hbinder := Holds.empty.bindValue (scalar (.text nspace))
  have hhead : (⟨["INSERT INTO _zync_namespaces (name)\nVALUES (?"],
      [.scalar (.text nspace)]⟩ : SqlBuf).Reads
      (sqlChars "INSERT INTO _zync_namespaces (name)\nVALUES (" ++
        slot (scalar (.text nspace))) :=
    .ending (.of_chars rfl (by decide)) (toList_ending
      (rfl : "INSERT INTO _zync_namespaces (name)\nVALUES (?" = String.ofList _) rfl rfl) _
  have hall := hhead.merge (SqlBuf.Reads.lit (.of_chars rfl (by decide) :
    Plain ")\nON CONFLICT(name) DO UPDATE SET name = excluded.name\nRETURNING id"))
  have hreads := hall.reads
  rw [SqlBuf.text, String.toList_join, flatMap_singleton] at hreads
  exact .of_reads hreads hbinder.bound

/-- The text of the user's statement, cut where its columns and its values begin. -/
def resolveUserPieces : List String :=
  ["INSERT INTO \"users\" (", "\"id\"", ", ", "\"namespace_id\"", ", ", "\"owner_id\"", ", ",
    "\"external_id\"", ", ", "\"created_at\"", ", ", "\"updated_at\"", ")\nVALUES (",
    "?", ", ", "?", ", ", "?", ", ", "?", ", ", "?", ", ", "?",
    ")\nON CONFLICT(\"namespace_id\", \"external_id\") DO UPDATE SET \"external_id\" = " ++
      "excluded.\"external_id\"\nRETURNING \"id\""]

omit ht in
lemma join_resolveUserPieces : resolveUserSql = String.join resolveUserPieces := by
  decide +kernel

omit ht in
lemma resolveUserStatement_binds (namespaceId : ℤ) (externalId : Bytes) (newUserId : DocId)
    (timestamp : ℤ) : (resolveUserStatement namespaceId externalId newUserId timestamp).BindsSlots
      (writtenResolveUser (userAssignments namespaceId externalId newUserId timestamp)) := by
  have hbinder := (((((Holds.empty.bindValue (scalar (.docId newUserId))).bindValue
    (.scalar (.integer namespaceId))).bindValue (scalar (.docId newUserId))).bindValue
    (.scalar (.text externalId))).bindValue (scalar (.integer timestamp))).bindValue
    (.scalar (.integer timestamp))
  have hcolumns : List.Forall₂ SqlBuf.Reads
      ((userAssignments namespaceId externalId newUserId timestamp).map fun a => .lit a.column)
      ((userAssignments namespaceId externalId newUserId timestamp).map fun a =>
        sqlChars a.column) := by
    refine SqlBuf.Reads.map _ _ fun a ha => .lit ?_
    simp only [userAssignments, mem_cons, not_mem_nil, or_false] at ha
    rcases ha with rfl | rfl | rfl | rfl | rfl | rfl <;> exact .of_chars rfl (by decide)
  have hvalues : List.Forall₂ SqlBuf.Reads
      ((userAssignments namespaceId externalId newUserId timestamp).map fun a => ⟨["?"], [a.value]⟩)
      ((userAssignments namespaceId externalId newUserId timestamp).map
        SqlAssignment.writtenValue) := by
    refine SqlBuf.Reads.map _ _ fun a ha => ?_
    simp only [userAssignments, mem_cons, not_mem_nil, or_false] at ha
    rcases ha with rfl | rfl | rfl | rfl | rfl | rfl <;> exact .mark _
  have hcomma : Plain ", " := by decide
  have hall := ((((SqlBuf.Reads.lit (by decide : Plain "INSERT INTO \"users\" (")).append
    (.join hcomma hcolumns)).append (.lit (by decide : Plain ")\nVALUES ("))).append
    (.join hcomma hvalues)).append (SqlBuf.Reads.lit (.append (.of_chars rfl (by decide))
      (.of_chars rfl (by decide)) : Plain
      (")\nON CONFLICT(\"namespace_id\", \"external_id\") DO UPDATE SET \"external_id\" = " ++
        "excluded.\"external_id\"\nRETURNING \"id\"")))
  have hreads : Placeholders.Reads '?' (String.join resolveUserPieces).toList
      [.scalar (.docId newUserId), .scalar (.integer namespaceId), .scalar (.docId newUserId),
        .scalar (.text externalId), .scalar (.integer timestamp), .scalar (.integer timestamp)]
      (writtenResolveUser (userAssignments namespaceId externalId newUserId timestamp)) :=
    hall.reads
  rw [← join_resolveUserPieces] at hreads
  exact .of_reads hreads hbinder.bound

/-- The statements that the storage engine builds on a table with plain names, whatever the query,
the operation and its guard: the placeholders are bound, each with the value that its slot of the
statement denotes, and nothing else is bound. -/
theorem statements_bind_slots (namespaceId : ℤ) :
    (∀ filter st, filter.orderBy ≠ [] → selectQueryStatement t namespaceId filter = .ok st →
      ∃ q, selectStatement t namespaceId filter = .ok q ∧ st.BindsSlots q.written) ∧
    (∀ id, (selectDocumentStatement t namespaceId id).BindsSlots
      (writtenSelectDocument t id namespaceId)) ∧
    (∀ f ∈ t.fields, ∀ parentId, (referentialLookupStatement t f parentId).BindsSlots
      (writtenReferentialLookup t f parentId)) ∧
    (∀ op ownerId createdAt st, upsertStatement t namespaceId op ownerId createdAt = .ok st →
      ∃ fields e, op.columns.mapM (getColumnField t) = .ok fields ∧
        renderAndClause t op.guardPredicate = .ok e ∧
        st.BindsSlots (writtenUpsert t
          (upsertAssignments t namespaceId ownerId createdAt op fields) fields e)) ∧
    (∀ op st, updateStatement t namespaceId op = .ok st →
      ∃ fields e, op.columns.mapM (getColumnField t) = .ok fields ∧
        renderAndClause t op.guardPredicate = .ok e ∧
        st.BindsSlots (writtenUpdate t (updateAssignments op fields) op.id namespaceId e)) ∧
    (∀ op st, deleteStatement t namespaceId op = .ok st → ∃ e, renderAndClause t op.guardPredicate = .ok e ∧
        st.BindsSlots (writtenDelete t op.id namespaceId e)) ∧
    (∀ nspace, (resolveNamespaceStatement nspace).BindsSlots (writtenResolveNamespace nspace)) ∧
    ∀ externalId newUserId timestamp,
      (resolveUserStatement namespaceId externalId newUserId timestamp).BindsSlots
        (writtenResolveUser (userAssignments namespaceId externalId newUserId timestamp)) := by
  refine ⟨?_, selectDocumentStatement_binds ht, ?_, ?_, ?_, ?_, ?_, ?_⟩
  · intro filter st horder h
    exact selectQueryStatement_binds ht horder h
  · intro f hf parentId
    exact referentialLookupStatement_binds ht hf parentId
  · intro op ownerId createdAt st h
    exact upsertStatement_binds ht h
  · intro op st h
    exact updateStatement_binds ht h
  · intro op st h
    exact deleteStatement_binds ht h
  · exact resolveNamespaceStatement_binds
  · exact resolveUserStatement_binds namespaceId

end Statements

namespace StatementBindingsExample

open AgreementExample

lemma plain_of_all {name : String} (h : (name.toList.all fun ch => ch.isAlphanum || decide (ch = '_')) = true) :
    ∀ ch ∈ name.toList, ch.isAlphanum ∨ ch = '_' := by
  intro ch hch
  simpa using all_eq_true.mp h ch hch

lemma noteTable_plainNames : noteTable.PlainNames where
  name := plain_of_all (by decide)
  fields := by
    intro f hf
    obtain rfl := mem_singleton.mp hf
    exact plain_of_all (by decide)

/-- Sets the title of a note that has another one. -/
def retitle : UpdateOp where
  tableIndex := 0
  id := 6
  namespaceId := 1
  columns := [⟨3, .scalar (.text [97]), first_user_column⟩]
  guardPredicate := some { conditions := some [⟨3, .ne, some (.scalar (.text [98])), .text, none⟩] }
  timestamp := 20

/-- The title, the time, the row and the title of the guard are bound in this order. -/
theorem retitle_binds_slots : ∃ st, updateStatement noteTable 1 retitle = .ok st ∧
    st.bound = [(1, .scalar (.text [97])), (2, .scalar (.integer 20)), (3, .scalar (.docId 6)),
      (4, .scalar (.integer 1)), (5, .scalar (.text [98]))] ∧
    ∃ fields e, retitle.columns.mapM (getColumnField noteTable) = .ok fields ∧
      renderAndClause noteTable retitle.guardPredicate = .ok e ∧
      st.BindsSlots (writtenUpdate noteTable (updateAssignments retitle fields) 6 1 e) :=
  ⟨_, rfl, rfl, (statements_bind_slots noteTable_plainNames 1).2.2.2.2.1 retitle _ rfl⟩

end StatementBindingsExample
end ZyncBase
