import ZyncBase.Query.QueryShape
import ZyncBase.Sql.Select

/-! Queries of one shape are rendered to one text, with as many values to bind. -/
namespace ZyncBase

open FilterPredicate List Condition

namespace SqlBuf

/-- Buffers with one text and as many values. -/
structure Alike (a b : SqlBuf) : Prop where
  fragments : a.fragments = b.fragments
  values : a.values.length = b.values.length

namespace Alike

@[refl] lemma refl (a : SqlBuf) : Alike a a := ⟨rfl, rfl⟩

lemma append {a b c d : SqlBuf} (h : Alike a b) (g : Alike c d) : Alike (a ++ c) (b ++ d) := by
  refine ⟨?_, ?_⟩
  · change a.fragments ++ c.fragments = b.fragments ++ d.fragments
    rw [h.fragments, g.fragments]
  · change (a.values ++ c.values).length = (b.values ++ d.values).length
    rw [length_append, length_append, h.values, g.values]

lemma joinTail {sep : String} {as bs : List SqlBuf} (h : List.Forall₂ Alike as bs) :
    Alike (joinTail sep as) (joinTail sep bs) := by
  induction h with
  | nil => rfl
  | cons hab _ ih => exact (refl _).append (hab.append ih)

lemma join {sep : String} {as bs : List SqlBuf} (h : List.Forall₂ Alike as bs) :
    Alike (join sep as) (join sep bs) := by
  cases h with
  | nil => rfl
  | cons hab h => exact hab.append (joinTail h)

lemma concat {as bs : List SqlBuf} (h : List.Forall₂ Alike as bs) : Alike (concat as) (concat bs) := by
  induction h with
  | nil => rfl
  | cons hab _ ih => exact hab.append ih

end Alike
end SqlBuf

open SqlBuf (Alike)

/-- Both sides render, to buffers that are alike. -/
def RenderAlike {α : Type} (print : α → SqlBuf) (x y : Except SqlError α) : Prop :=
  ∃ a b, x = .ok a ∧ y = .ok b ∧ Alike (print a) (print b)

section Conditions

lemma alike_inList (column : String) (negated : Bool) {vs ws : List Value} (h : vs.length = ws.length) :
    Alike (SqlAtom.inList column negated vs).print (SqlAtom.inList column negated ws).print := by
  have hitems : List.Forall₂ Alike (vs.map fun v => ⟨["?"], [v]⟩) (ws.map fun v => ⟨["?"], [v]⟩) := by
    induction vs generalizing ws with
    | nil =>
      cases ws with
      | nil => exact .nil
      | cons w ws => cases h
    | cons v vs ih =>
      cases ws with
      | nil => cases h
      | cons w ws => exact .cons ⟨rfl, rfl⟩ (ih (Nat.succ.inj h))
  exact (Alike.refl _).append ((Alike.join hitems).append (.refl _))

lemma requireValue_of_hasOperand {c : Condition} (h : c.HasOperand)
    (hn : c.op.isNullary = false) : ∃ v, requireValue c = .ok v ∧ c.value = some v := by
  obtain ⟨v, hv⟩ := Option.isSome_iff_exists.mp (h hn)
  exact ⟨v, by rw [requireValue, hv], hv⟩

lemma likeAtom_alike {column : String} {pattern : LikePattern} {v w : Value}
    (hv : ∃ text, some v = some (.scalar (.text text)))
    (hw : ∃ text, some w = some (.scalar (.text text))) :
    RenderAlike SqlAtom.print (conditionAtom.likeAtom column v pattern)
      (conditionAtom.likeAtom column w pattern) := by
  obtain ⟨x, hx⟩ := hv
  obtain ⟨y, hy⟩ := hw
  cases hx
  cases hy
  exact ⟨_, _, rfl, rfl, rfl, rfl⟩

variable {t : Table}

lemma conditionAtom_alike {a b : Condition} (ha : a.Shaped t) (hb : b.Shaped t)
    (h : a.SameShape b) (column : String) :
    RenderAlike SqlAtom.print (conditionAtom column a) (conditionAtom column b) := by
  have hop := h.op
  have hlike := ha.like
  have hlike' := hb.like
  have hmem := ha.membership
  have hmem' := hb.membership
  have hlen := h.membership
  have hft := h.fieldType
  unfold conditionAtom
  cases hb' : b.op with
  | isNull | isNotNull =>
    rw [hb'] at hop
    rw [hop]
    exact ⟨_, _, rfl, rfl, .refl _⟩
  | isIn | notIn =>
    rw [hb'] at hop
    rw [hop]
    obtain ⟨as, hva⟩ := hmem (by simp [isMembership, hop])
    obtain ⟨bs, hvb⟩ := hmem' (by simp [isMembership, hb'])
    refine ⟨_, _, rfl, rfl, ?_⟩
    rw [hva, hvb]
    refine alike_inList _ _ ?_
    have hl := hlen (by simp [isMembership, hop])
    rw [operandLength, operandLength, hva, hvb] at hl
    simpa [conditionAtom.inOperands] using hl
  | startsWith | endsWith =>
    rw [hb'] at hop
    obtain ⟨v, hv, hva⟩ := requireValue_of_hasOperand ha.operand (by rw [hop]; rfl)
    obtain ⟨w, hw, hvb⟩ := requireValue_of_hasOperand hb.operand (by rw [hb']; rfl)
    rw [hop, hv, hw]
    rw [hva] at hlike
    rw [hvb] at hlike'
    exact likeAtom_alike (hlike (by simp [isLike, hop])) (hlike' (by simp [isLike, hb']))
  | contains =>
    rw [hb'] at hop
    obtain ⟨v, hv, hva⟩ := requireValue_of_hasOperand ha.operand (by rw [hop]; rfl)
    obtain ⟨w, hw, hvb⟩ := requireValue_of_hasOperand hb.operand (by rw [hb']; rfl)
    rw [hop, hv, hw, hft]
    by_cases harr : b.fieldType = .array
    · simp only [harr, if_true]
      exact ⟨_, _, rfl, rfl, rfl, rfl⟩
    · rw [hva] at hlike
      rw [hvb] at hlike'
      simp only [harr, if_false]
      exact likeAtom_alike (hlike (by simp [isLike, hop, hft, harr]))
        (hlike' (by simp [isLike, hb', harr]))
  | eq | ne | gt | lt | gte | lte =>
    rw [hb'] at hop
    obtain ⟨v, hv, hva⟩ := requireValue_of_hasOperand ha.operand (by rw [hop]; rfl)
    obtain ⟨w, hw, hvb⟩ := requireValue_of_hasOperand hb.operand (by rw [hb']; rfl)
    rw [hop, hv, hw]
    exact ⟨_, _, rfl, rfl, rfl, rfl⟩

lemma fieldAtom_alike {a b : Condition} (ha : a.Shaped t) (hb : b.Shaped t)
    (h : a.SameShape b) : RenderAlike SqlAtom.print (fieldAtom t a) (fieldAtom t b) := by
  obtain ⟨f, hf, -, -⟩ := ha.field
  have hg : t.fields[b.fieldIndex]? = some f := h.fieldIndex ▸ hf
  rw [fieldAtom, fieldAtom, hf, hg]
  exact conditionAtom_alike ha hb h _

abbrev AtomsAlike : List SqlAtom → List SqlAtom → Prop :=
  List.Forall₂ fun x y => Alike x.print y.print

lemma fieldAtoms_alike {as bs : List Condition} (ha : ∀ a ∈ as, a.Shaped t)
    (hb : ∀ b ∈ bs, b.Shaped t) (h : List.Forall₂ SameShape as bs) :
    ∃ xs ys, fieldAtoms t as = .ok xs ∧ fieldAtoms t bs = .ok ys ∧ AtomsAlike xs ys := by
  induction h with
  | nil => exact ⟨[], [], rfl, rfl, .nil⟩
  | cons hab _ ih =>
    rw [forall_mem_cons] at ha hb
    obtain ⟨x, y, hx, hy, hxy⟩ := fieldAtom_alike ha.1 hb.1 hab
    obtain ⟨xs, ys, hxs, hys, hall⟩ := ih ha.2 hb.2
    refine ⟨x :: xs, y :: ys, ?_, ?_, .cons hxy hall⟩
    · rw [fieldAtoms, hx, hxs]
      rfl
    · rw [fieldAtoms, hy, hys]
      rfl

lemma clauseAtoms_alike {cs ds : List OrClause} (hc : ∀ clause ∈ cs, ∀ a ∈ clause, a.Shaped t)
    (hd : ∀ clause ∈ ds, ∀ a ∈ clause, a.Shaped t)
    (h : List.Forall₂ (List.Forall₂ SameShape) cs ds) :
    ∃ xs ys, clauseAtoms t cs = .ok xs ∧ clauseAtoms t ds = .ok ys ∧ List.Forall₂ AtomsAlike xs ys := by
  induction h with
  | nil => exact ⟨[], [], rfl, rfl, .nil⟩
  | cons hab _ ih =>
    rw [forall_mem_cons] at hc hd
    obtain ⟨xs, ys, hxs, hys, hall⟩ := ih hc.2 hd.2
    cases hab with
    | nil => exact ⟨xs, ys, hxs, hys, hall⟩
    | cons h₁ h₂ =>
      obtain ⟨x, y, hx, hy, hxy⟩ := fieldAtoms_alike hc.1 hd.1 (.cons h₁ h₂)
      refine ⟨x :: xs, y :: ys, ?_, ?_, .cons hxy hall⟩
      · rw [clauseAtoms, hx, hxs]
        rfl
      · rw [clauseAtoms, hy, hys]
        rfl

lemma atomsAlike_print {xs ys : List SqlAtom} (h : AtomsAlike xs ys) :
    List.Forall₂ Alike (xs.map SqlAtom.print) (ys.map SqlAtom.print) := by
  rw [forall₂_map_left_iff, forall₂_map_right_iff]
  exact h

lemma conjuncts_alike {xs ys : List SqlAtom} {xss yss : List (List SqlAtom)}
    (h : AtomsAlike xs ys) (hs : List.Forall₂ AtomsAlike xss yss) :
    List.Forall₂ Alike ((xs.map SqlConjunct.atom ++ xss.map SqlConjunct.anyOf).map SqlConjunct.print)
      ((ys.map SqlConjunct.atom ++ yss.map SqlConjunct.anyOf).map SqlConjunct.print) := by
  rw [map_append, map_append, map_map, map_map, map_map, map_map]
  refine rel_append ?_ ?_
  · exact atomsAlike_print h
  · rw [forall₂_map_left_iff, forall₂_map_right_iff]
    refine hs.imp fun xs ys hxy => ?_
    exact (Alike.refl _).append ((Alike.join (atomsAlike_print hxy)).append (.refl _))

variable {f g : QueryFilter}

lemma QueryFilter.SameShape.isAlwaysTrue_eq (h : f.SameShape g) :
    f.predicate.isAlwaysTrue = g.predicate.isAlwaysTrue := by
  rw [isAlwaysTrue, isAlwaysTrue, hasClauses,
    hasClauses, h.state, h.conditions.length_eq, h.clauses.length_eq]

lemma QueryFilter.Shaped.clause (h : f.Shaped t) :
    ∀ clause ∈ f.predicate.orClauses.getD [], ∀ c ∈ clause, c.Shaped t :=
  fun _ hm c hc => h.conditions c (mem_allConditions_of_clause hm hc)

lemma filterConditions_alike (hf : f.Shaped t) (hg : g.Shaped t) (h : f.SameShape g) :
    ∃ x y, filterConditions t f.predicate = .ok x ∧ filterConditions t g.predicate = .ok y ∧
      Option.Rel (fun a b : SqlWhere => Alike a.print b.print) x y := by
  simp only [filterConditions, filterWhere, ← h.isAlwaysTrue_eq, isAlwaysFalse, ← h.state]
  cases f.predicate.isAlwaysTrue with
  | true => exact ⟨none, none, rfl, rfl, .none⟩
  | false =>
    by_cases hfalse : f.predicate.state = .matchNone
    · simp only [hfalse, decide_true, if_true, Bool.false_eq_true, if_false]
      exact ⟨some .zero, some .zero, rfl, rfl, .some (.refl _)⟩
    · simp only [hfalse, decide_false, Bool.false_eq_true, if_false]
      obtain ⟨xs, ys, hxs, hys, hall⟩ := fieldAtoms_alike
        (fun a ha => hf.conditions a (mem_allConditions_of_conditions ha))
        (fun b hb => hg.conditions b (mem_allConditions_of_conditions hb))
        h.conditions
      obtain ⟨xss, yss, hxss, hyss, halls⟩ := clauseAtoms_alike hf.clause hg.clause h.clauses
      rw [hxs, hys, hxss, hyss]
      exact ⟨_, _, rfl, rfl, .some (Alike.join (conjuncts_alike hall halls))⟩

end Conditions

section Statements

variable {t : Table} {f g : QueryFilter}

abbrev SameKeys : List (SortDescriptor × Value) → List (SortDescriptor × Value) → Prop :=
  List.Forall₂ fun a b => a.1 = b.1

lemma sameKeys_zip {ds : List SortDescriptor} {vs ws : List Value}
    (hv : vs.length = ds.length) (hw : ws.length = ds.length) : SameKeys (ds.zip vs) (ds.zip ws) := by
  induction ds generalizing vs ws with
  | nil => exact .nil
  | cons d ds ih =>
    cases vs with
    | nil => cases hv
    | cons v vs =>
      cases ws with
      | nil => cases hw
      | cons w ws => exact .cons rfl (ih (Nat.succ.inj hv) (Nat.succ.inj hw))

lemma keyTie_alike {a b : SortDescriptor × Value} (h : a.1 = b.1) :
    Alike (keyTie t a).print (keyTie t b).print := by
  rw [keyTie, keyTie, h]
  exact ⟨rfl, rfl⟩

lemma keyAfter_alike (d : SortDescriptor) (v w : Value) :
    Alike (keyAfter t d v).print (keyAfter t d w).print := by
  cases hr : (sortField t d).required <;> simp only [KeyAfter.print, keyAfter, hr]
  all_goals exact ⟨rfl, rfl⟩

lemma cursorBranches_alike {ties ties' keys keys' : List (SortDescriptor × Value)}
    (ht : SameKeys ties ties') (h : SameKeys keys keys') :
    List.Forall₂ Alike ((cursorBranches t ties keys).map CursorBranch.print)
      ((cursorBranches t ties' keys').map CursorBranch.print) := by
  induction h generalizing ties ties' with
  | nil => exact .nil
  | @cons a b keys keys' hab _ ih =>
    obtain ⟨d, v⟩ := a
    obtain ⟨e, w⟩ := b
    obtain rfl : d = e := hab
    have hties : List.Forall₂ Alike ((ties.map (keyTie t)).map KeyTie.print)
        ((ties'.map (keyTie t)).map KeyTie.print) := by
      rw [map_map, map_map, forall₂_map_left_iff, forall₂_map_right_iff]
      exact ht.imp fun _ _ hab => keyTie_alike hab
    have hbranch : Alike (CursorBranch.print ⟨ties.map (keyTie t), keyAfter t d v⟩)
        (CursorBranch.print ⟨ties'.map (keyTie t), keyAfter t d w⟩) :=
      (Alike.refl _).append ((Alike.concat hties).append
        ((keyAfter_alike d v w).append (.refl _)))
    rw [cursorBranches, cursorBranches, map_cons, map_cons]
    exact .cons hbranch (ih (rel_append ht (.cons rfl .nil)))

lemma printCursor_alike {as bs : List CursorBranch}
    (h : List.Forall₂ Alike (as.map CursorBranch.print) (bs.map CursorBranch.print)) :
    Alike (printCursor as) (printCursor bs) :=
  (Alike.refl _).append ((Alike.join h).append (.refl _))

lemma printConditions_alike {x y : Option SqlWhere} {as bs : Option (List CursorBranch)}
    (h : Option.Rel (fun a b : SqlWhere => Alike a.print b.print) x y)
    (hc : Option.Rel (fun a b : List CursorBranch => Alike (printCursor a) (printCursor b)) as bs) :
    Alike (printConditions x as) (printConditions y bs) := by
  cases h with
  | none =>
    cases hc with
    | none => exact .refl _
    | some hab => exact (Alike.refl _).append (hab.append (.refl _))
  | some hxy =>
    cases hc with
    | none => exact (Alike.refl _).append (hxy.append (.refl _))
    | some hab =>
      exact (Alike.refl _).append (hxy.append ((Alike.refl _).append (hab.append (.refl _))))

lemma buildSelectQuery_alike (hf : f.Shaped t) (hg : g.Shaped t) (h : f.SameShape g)
    (namespaceId namespaceId' : ℤ) :
    ∃ a b, buildSelectQuery t namespaceId f = .ok a ∧ buildSelectQuery t namespaceId' g = .ok b ∧
      Alike a b := by
  obtain ⟨x, y, hx, hy, hxy⟩ := filterConditions_alike hf hg h
  have hvalid : (f.orderBy.any fun d => t.fields.length ≤ d.fieldIndex) = false :=
    any_eq_false.mpr fun d hd => by simpa using hf.sortFields d hd
  have hcursor : Option.Rel (fun a b => Alike (printCursor a) (printCursor b))
      (f.after.map fun c => cursorBranches t [] (f.orderBy.zip c.values))
      (g.after.map fun c => cursorBranches t [] (g.orderBy.zip c.values)) := by
    have hafter := h.after
    rw [← h.orderBy]
    cases hfa : f.after with
    | none =>
      cases hga : g.after with
      | none => exact .none
      | some d => simp [hfa, hga] at hafter
    | some c =>
      cases hga : g.after with
      | none => simp [hfa, hga] at hafter
      | some d =>
        have hd := hg.cursor d hga
        rw [← h.orderBy] at hd
        exact .some (printCursor_alike
          (cursorBranches_alike .nil (sameKeys_zip (hf.cursor c hfa) hd)))
  rw [buildSelectQuery_eq t _ hf.ordered, buildSelectQuery_eq t _ hg.ordered, selectStatement,
    selectStatement, ← h.orderBy, hvalid, hx, hy]
  refine ⟨_, _, rfl, rfl, ?_⟩
  have hhead : Alike
      ⟨[selectFromSql t, " WHERE ", "\"namespace_id\"", " = ?"], [.scalar (.integer namespaceId)]⟩
      ⟨[selectFromSql t, " WHERE ", "\"namespace_id\"", " = ?"],
        [.scalar (.integer namespaceId')]⟩ := ⟨rfl, rfl⟩
  refine hhead.append ((printConditions_alike hxy (h.orderBy ▸ hcursor)).append
    ((Alike.refl _).append ((Alike.refl _).append ?_)))
  have hl := h.limit
  cases hfl : f.limit <;> cases hgl : g.limit <;> simp [hfl, hgl] at hl
  · exact .refl _
  · exact ⟨rfl, rfl⟩

end Statements
end ZyncBase
