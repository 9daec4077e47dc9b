import ZyncBase.Migration.Steps
import ZyncBase.Schema.Parse

/-! Names of managed indexes: what they tell about the index, and which of them fall among those kept
for another table. -/
namespace ZyncBase

open Catalog SchemaParse List

lemma hasDouble_of_isValidSchemaIdentifier {name : String} (h : isValidSchemaIdentifier name) :
    DoubledSeparator.hasDouble '_' name.toList = false := by
  unfold isValidSchemaIdentifier at h
  split at h
  · cases h
  · rename_i first rest hlist
    rw [hlist]
    simp_all

namespace ManagedIndex

/-- What tells apart the indexes of a table that are unique, or are not: the kind, and the field or
the constraint. -/
def subject (t : Table) : ManagedIndex → String × Option String
  | namespaceId => ("namespace", none)
  | owner => ("owner", none)
  | createdAt => ("created_at", none)
  | usersIdentity => ("identity", none)
  | field i => ("field", some (t.userFieldName i))
  | unique i => ("constraint", some (toString i))

def detailText : Option String → List Char
  | some value => '_' :: '_' :: value.toList
  | none => []

lemma detailText_injective : Function.Injective detailText := by
  intro detail detail' h
  cases detail <;> cases detail' <;> simp_all [detailText, String.toList_inj]

/-- What follows the table in the name. -/
def ending (t : Table) (m : ManagedIndex) : List Char :=
  (m.subject t).1.toList ++ detailText (m.subject t).2

def start (unique : Bool) : List Char := (if unique then "uidx__" else "idx__").toList

lemma toList_name (t : Table) (m : ManagedIndex) :
    (m.name t).toList = start m.isUnique ++ (t.name.toList ++ '_' :: '_' :: m.ending t) := by
  cases m <;> simp [name, managedIndexName, start, ending, subject, isUnique, detailText]

lemma head?_ending (t : Table) (m : ManagedIndex) : (m.ending t).head? ≠ some '_' := by
  cases m <;> simp [ending, subject]

lemma ending_ne_nil (t : Table) (m : ManagedIndex) : m.ending t ≠ [] := by
  cases m <;> simp [ending, subject]

lemma subject_of_ending {t t' : Table} {m m' : ManagedIndex} (hunique : m.isUnique = m'.isUnique)
    (h : m.ending t = m'.ending t') : m.subject t = m'.subject t' := by
  cases m <;> cases m'
  case field.field | unique.unique =>
    exact congrArg (Prod.mk _) (detailText_injective (append_cancel_left h))
  all_goals simp_all [ending, subject, isUnique]

lemma start_isPrefix {u u' : Bool} {xs ys : List Char} :
    start u ++ xs <+: start u' ++ ys ↔ u = u' ∧ xs <+: ys := by
  cases u <;> cases u' <;> simp [start, cons_prefix_cons]

variable {t t' : Table}

lemma hasManagedPrefix_iff (ht : isValidSchemaIdentifier t.name)
    (ht' : isValidSchemaIdentifier t'.name) (m : ManagedIndex) (unique : Bool) :
    hasManagedPrefix (m.name t') t.name (if unique then "uidx__" else "idx__") = true ↔
      unique = m.isUnique ∧ (t'.name = t.name ∨ t'.name = t.name ++ "_") := by
  have hpre := DoubledSeparator.separated_isPrefix_iff
    (hasDouble_of_isValidSchemaIdentifier ht) (hasDouble_of_isValidSchemaIdentifier ht')
    (m.head?_ending t')
  have hwords : t'.name.toList = t.name.toList ∨ t'.name.toList = t.name.toList ++ ['_'] ↔
      t'.name = t.name ∨ t'.name = t.name ++ "_" := by
    have happend : t.name.toList ++ ['_'] = (t.name ++ "_").toList := by simp
    rw [happend, String.toList_inj, String.toList_inj]
  have hstart : ((if unique then "uidx__" else "idx__") ++ t.name ++ "__").toList =
      start unique ++ (t.name.toList ++ ['_', '_']) := by
    simp [start]
  unfold hasManagedPrefix
  rw [hstart, toList_name, decide_eq_true_eq, start_isPrefix, hpre, hwords]
  refine and_iff_left_of_imp ?_
  rintro ⟨rfl, hname⟩
  have hending := length_pos_iff.mpr (m.ending_ne_nil t')
  rcases hname with hname | hname
  all_goals
    simp only [hname, String.toList_append, length_append, length_cons, length_nil]
    omega

lemma isReservedManagedIndexName_iff (ht : isValidSchemaIdentifier t.name)
    (ht' : isValidSchemaIdentifier t'.name) (m : ManagedIndex) :
    isReservedManagedIndexName (m.name t') t.name = true ↔ t'.name = t.name ∨ t'.name = t.name ++ "_" := by
  have hplain := hasManagedPrefix_iff ht ht' m false
  have hunique := hasManagedPrefix_iff ht ht' m true
  rw [if_neg Bool.false_ne_true] at hplain
  rw [if_pos rfl] at hunique
  rw [isReservedManagedIndexName, Bool.or_eq_true, hplain, hunique]
  cases m.isUnique <;> simp

lemma name_injective (ht : isValidSchemaIdentifier t.name) (ht' : isValidSchemaIdentifier t'.name)
    {m m' : ManagedIndex} (h : m.name t = m'.name t') :
    t.name = t'.name ∧ m.isUnique = m'.isUnique ∧ m.subject t = m'.subject t' := by
  have hown := (isReservedManagedIndexName_iff ht ht m).mpr (.inl rfl)
  have hown' := (isReservedManagedIndexName_iff ht' ht' m').mpr (.inl rfl)
  rw [h] at hown
  rw [← h] at hown'
  have htable : t.name = t'.name := by
    rcases (isReservedManagedIndexName_iff ht ht' m').mp hown with hsame | hlonger
    · exact hsame.symm
    · rcases (isReservedManagedIndexName_iff ht' ht m).mp hown' with hsame | hlonger'
      · exact hsame
      · rw [hlonger] at hlonger'
        have hlength := congrArg (fun s : String => s.toList.length) hlonger'
        simp at hlength
  have hlist := congrArg String.toList h
  rw [toList_name, toList_name] at hlist
  obtain ⟨hunique, -⟩ := start_isPrefix.mp ⟨[], (append_nil _).trans hlist⟩
  rw [hunique, htable] at hlist
  have hending := append_cancel_left (append_cancel_left hlist)
  exact ⟨htable, hunique, subject_of_ending hunique (by simpa using hending)⟩

end ManagedIndex

lemma Change.get_of_run {d : Dialect SqlValue} {c : Change} {db db' : Db SqlValue}
    (hid : c.kind ≠ .createTable → ∃ r, db.get (c.table.key d) = some r ∧ "id" ∈ r.columnNames)
    (h : c.run d db = some db') {key : String} (hkey : c.table.key d ≠ key) : db'.get key = db.get key := by
  by_cases hkind : c.kind = .createTable
  · obtain ⟨kind, t, field⟩ := c
    cases hkind
    exact (Table.sets_of_generateDDL h).1.get_of_ne hkey
  · obtain ⟨r, hr, hcolumn⟩ := hid hkind
    exact (Change.sets_of_run hr hcolumn h).2.get_of_ne hkey

/-- Names of managed indexes tell the table, whether the index is unique, and what it is on, and changes
of one table keep the indexes of another. The names of another table are not taken for those of the
table exactly when the other is not called like it with an underscore at the end. -/
theorem managed_names_iff (d : Dialect SqlValue) {t t' : Table} (ht : isValidSchemaIdentifier t.name)
    (ht' : isValidSchemaIdentifier t'.name) :
    ((∀ m m' : ManagedIndex, m.name t = m'.name t' →
        t.name = t'.name ∧ m.isUnique = m'.isUnique ∧ m.subject t = m'.subject t') ∧
      (∀ m : ManagedIndex, isReservedManagedIndexName (m.name t') t.name → t'.name = t.name) ∧
      ∀ (c : Change) (db db' : Db SqlValue), c.table = t →
        (c.kind ≠ .createTable → ∃ r, db.get (t.key d) = some r ∧ "id" ∈ r.columnNames) →
        c.run d db = some db' → t.key d ≠ t'.key d →
        indexList d db' t'.name = indexList d db t'.name) ↔ t'.name ≠ t.name ++ "_" := by
  constructor
  · rintro ⟨-, hreserved, -⟩ hname
    have hsame := hreserved .owner
      ((ManagedIndex.isReservedManagedIndexName_iff ht ht' .owner).mpr (Or.inr hname))
    have hlength := congrArg (fun s : String => s.toList.length) (hname.symm.trans hsame)
    simp at hlength
  · intro hname
    refine ⟨fun m m' => ManagedIndex.name_injective ht ht', fun m hreserved => ?_, ?_⟩
    · exact ((ManagedIndex.isReservedManagedIndexName_iff ht ht' m).mp hreserved).resolve_right hname
    · rintro c db db' rfl hid hrun hkey
      rw [indexList, indexList]
      exact congrArg (fun r => (Option.map Relation.indexes r).getD []) (Change.get_of_run hid hrun hkey)

namespace IndexNamesExample

def table (name : String) : Table where
  name := name
  userFields := []
  fields_wellFormed := no_fields_wellFormed
  names_nodup := system_names_nodup

def untyped : Affinity where
  convert := fun _ v => v
  length := fun _ => none
  convert_eq_null := fun _ _ => Iff.rfl
  convert_convert := fun _ _ => rfl
  convert_blob := fun _ => rfl
  length_null := rfl

theorem managed_names_tasks :
    isReservedManagedIndexName (ManagedIndex.owner.name (table "notes")) "tasks" = false := by
  have htasks : isValidSchemaIdentifier (table "tasks").name := by decide
  have hnotes : isValidSchemaIdentifier (table "notes").name := by decide
  have hnames := (managed_names_iff (sqlite untyped) htasks hnotes).mpr (by decide)
  exact Bool.eq_false_iff.mpr fun h => absurd (hnames.2.1 .owner h) (by decide)

/-- The index on the owners of `a_` falls among those of `a`. -/
theorem reserved_for_shorter : ¬ ∀ (t t' : Table) (m : ManagedIndex), isValidTableIdentifier t.name →
    isValidTableIdentifier t'.name → isReservedManagedIndexName (m.name t') t.name → t'.name = t.name := by
  intro h
  exact absurd (h (table "a") (table "a_") .owner (by decide) (by decide) (by decide)) (by decide)

end IndexNamesExample
end ZyncBase
