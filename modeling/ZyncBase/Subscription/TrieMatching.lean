import ZyncBase.Subscription.TriePaths

/-! A walk over the trie collects each group once, when the record passes all conditions on its
path. -/
namespace ZyncBase

open AssocMap List Outcome Option

variable {n : Node} {eqs : List (ℕ × List (Value × Node))} {conds : List (Condition × Node)} {leaves : List ℕ}

namespace Node

variable (r : Record)

/-- The groups that a walk over the node collects. -/
def collected (n : Node) : List ℕ := (collectFromNode r n).toOption.getD []

def Walks (n : Node) : Prop := collectFromNode r n = .ok (collected r n)

lemma walks_of_ok {out : List ℕ} (h : collectFromNode r n = .ok out) : n.Walks r := by
  rw [Walks, collected, h]
  rfl

/-- What the branches of one field contribute. -/
def fieldMatches (f : ℕ × List (Value × Node)) : List ℕ :=
  match r.values[f.1]?.bind fun v => find Value.eql v f.2 with
  | some c => collected r c
  | none => []

def conditionMatches (e : Condition × Node) : List ℕ :=
  if e.1.holds r then collected r e.2 else []

lemma collectValue_eq (v : Option Value) {values : List (Value × Node)} (hw : ∀ e ∈ values, e.2.Walks r) :
    collectValue r v values =
      .ok (match v.bind fun v => find Value.eql v values with
        | some c => collected r c
        | none => []) := by
  induction values with
  | nil => cases v <;> rfl
  | cons e values ih =>
    obtain ⟨w, c⟩ := e
    rw [collectValue]
    cases v with
    | none =>
      rw [any_none, if_neg (by simp), ih fun d hd => hw d (mem_cons_of_mem _ hd)]
      rfl
    | some v =>
      rw [any_some, bind_some, find]
      split_ifs with h
      · exact hw (w, c) mem_cons_self
      · rw [ih fun d hd => hw d (mem_cons_of_mem _ hd)]
        rfl

lemma collectFields_eq (hw : ∀ f ∈ eqs, ∀ e ∈ f.2, e.2.Walks r) :
    collectFields r eqs = .ok (eqs.flatMap (fieldMatches r)) := by
  induction eqs with
  | nil => rfl
  | cons f eqs ih =>
    obtain ⟨field, values⟩ := f
    rw [collectFields, collectValue_eq r _ (hw _ mem_cons_self), ok_bind,
      ih fun d hd => hw d (mem_cons_of_mem _ hd)]
    rfl

lemma collectConditions_eq (ho : ∀ e ∈ conds, e.1.HasOperand) (hw : ∀ e ∈ conds, e.2.Walks r) :
    collectConditions r conds = .ok (conds.flatMap (conditionMatches r)) := by
  induction conds with
  | nil => rfl
  | cons e conds ih =>
    obtain ⟨c, n⟩ := e
    rw [collectConditions, evaluateCondition_eq c r (ho _ mem_cons_self), ok_bind,
      ih (fun d hd => ho d (mem_cons_of_mem _ hd))
        fun d hd => hw d (mem_cons_of_mem _ hd), flatMap_cons, conditionMatches]
    have hn : collectFromNode r n = .ok (collected r n) := hw (c, n) mem_cons_self
    split_ifs
    · rw [hn]
      rfl
    · rfl

lemma collectFromNode_eq (ho : ∀ e ∈ conds, e.1.HasOperand)
    (hf : ∀ f ∈ eqs, ∀ e ∈ f.2, e.2.Walks r) (hc : ∀ e ∈ conds, e.2.Walks r) :
    collectFromNode r (mk leaves eqs conds) =
      .ok (leaves ++ eqs.flatMap (fieldMatches r) ++ conds.flatMap (conditionMatches r)) := by
  rw [collectFromNode, collectFields_eq r hf, ok_bind, collectConditions_eq r ho hc]
  rfl

lemma WellFormed.walks (hn : n.WellFormed) : n.Walks r := by
  induction hn with
  | mk hl hf hv hc ho heqs hconds iheqs ihconds =>
    exact walks_of_ok r (collectFromNode_eq r (fun e he => (ho e he).2) iheqs ihconds)

lemma collected_mk (hn : (mk leaves eqs conds).WellFormed) : collected r (mk leaves eqs conds) =
    leaves ++ eqs.flatMap (fieldMatches r) ++ conds.flatMap (conditionMatches r) := by
  obtain ⟨-, -, -, -, ho, heqs, hconds⟩ := hn
  rw [collected, collectFromNode_eq r (fun e he => (ho e he).2)
    (fun f hf e he => (heqs f hf e he).walks r) fun e he => (hconds e he).walks r]
  rfl

/-- The step along the equality branch of a value. -/
def eqStep (field : ℕ) (v : Value) : Condition :=
  { fieldIndex := field, op := .eq, value := some v, fieldType := .text, itemsType := none }

variable {r}

lemma eqStep_holds {field : ℕ} {v : Value} (h : r.values[field]? = some v) : (eqStep field v).holds r := by
  simp [Condition.holds, eqStep, h, Operator.isNullary, compareValues]

lemma child_eqStep (field : ℕ) (v : Value) :
    (mk leaves eqs conds).child (eqStep field v) = (find eqKey field eqs).bind (find Value.eql v) := by
  simp [child, eqStep]

lemma mem_fieldMatches (hd : Distinct eqKey eqs) {f : ℕ × List (Value × Node)} (hf : f ∈ eqs) (g : ℕ) :
    g ∈ fieldMatches r f ↔ ∃ v c, r.values[f.1]? = some v ∧
      (mk leaves eqs conds).child (eqStep f.1 v) = some c ∧ g ∈ collected r c := by
  have hfind : find eqKey f.1 eqs = some f.2 :=
    find_of_mem eqKey hd hf (KeyTest.self eqKey f.1)
  simp only [fieldMatches, child_eqStep, hfind, bind_some]
  cases hv : r.values[f.1]? with
  | none => simp
  | some v =>
    rw [bind_some]
    cases hc : find Value.eql v f.2 with
    | none => simp [hc]
    | some c => simp [hc]

lemma WellFormed.mem_collected_step (hn : n.WellFormed) (g : ℕ) : g ∈ collected r n ↔ g ∈ n.leafGroups ∨
    ∃ step c, n.child step = some c ∧ step.holds r ∧ g ∈ collected r c := by
  obtain ⟨leaves, eqs, conds⟩ := n
  rw [collected_mk r hn, mem_append, mem_append, mem_flatMap, mem_flatMap]
  obtain ⟨-, hf, -, hc, ho, -, -⟩ := hn
  constructor
  · rintro ((hg | ⟨f, hfm, hg⟩) | ⟨e, he, hg⟩)
    · exact .inl hg
    · obtain ⟨v, c, hv, hchild, hg⟩ := (mem_fieldMatches hf hfm g).mp hg
      exact .inr ⟨_, c, hchild, eqStep_holds hv, hg⟩
    · simp only [conditionMatches] at hg
      split_ifs at hg with hh
      · refine .inr ⟨e.1, e.2, ?_, hh, hg⟩
        rw [Node.child, if_neg (ho e he).1]
        exact find_of_mem eqlCondition hc he (KeyTest.refl e.1)
      · cases hg
  · rintro (hg | ⟨step, c, hchild, hh, hg⟩)
    · exact .inl (.inl hg)
    · by_cases hs : step.op = .eq
      · rw [Node.child, if_pos hs] at hchild
        cases hw : step.value with
        | none => simp [hw] at hchild
        | some w =>
          rw [hw] at hchild
          obtain ⟨values, hfind, hcw⟩ := bind_eq_some_iff.mp hchild
          obtain ⟨field, hfield, hm⟩ := mem_of_find eqKey hfind
          rw [eqKey_iff] at hfield
          subst hfield
          simp only [Condition.holds, hs, hw, Operator.isNullary, Bool.false_eq_true,
            if_false, compareValues] at hh
          cases hv : r.values[step.fieldIndex]? with
          | none => simp [hv] at hh
          | some v =>
            rw [hv] at hh
            rw [← find_congr Value.eql hh] at hcw
            refine .inl (.inr ⟨_, hm, ?_⟩)
            rw [fieldMatches, hv, bind_some, hcw]
            exact hg
      · rw [Node.child, if_neg hs] at hchild
        obtain ⟨k, hk, hm⟩ := mem_of_find eqlCondition hchild
        refine .inr ⟨_, hm, ?_⟩
        rw [conditionMatches, Condition.holds_congr hk, if_pos hh]
        exact hg

lemma WellFormed.inductChildren {p : Node → Prop}
    (h : ∀ n, n.WellFormed → (∀ step c, n.child step = some c → p c) → p n) (hn : n.WellFormed) : p n := by
  induction hn with
  | @mk leaves eqs conds hl hf hv hc ho heqs hconds iheqs ihconds =>
    refine h _ ⟨hl, hf, hv, hc, ho, heqs, hconds⟩ fun step c hchild => ?_
    rw [Node.child] at hchild
    split_ifs at hchild
    · cases hw : step.value with
      | none => simp [hw] at hchild
      | some w =>
        rw [hw] at hchild
        obtain ⟨values, hfind, hcw⟩ := bind_eq_some_iff.mp hchild
        obtain ⟨field, -, hm⟩ := mem_of_find eqKey hfind
        obtain ⟨k, -, hk⟩ := mem_of_find Value.eql hcw
        exact iheqs _ hm _ hk
    · obtain ⟨k, -, hk⟩ := mem_of_find eqlCondition hchild
      exact ihconds _ hk

lemma WellFormed.mem_collected (hn : n.WellFormed) (g : ℕ) :
    g ∈ collected r n ↔ ∃ path, has g path n ∧ ∀ c ∈ path, c.holds r := by
  refine WellFormed.inductChildren (p := fun n => g ∈ collected r n ↔
    ∃ path, has g path n ∧ ∀ c ∈ path, c.holds r) (fun n hn ih => ?_) hn
  rw [hn.mem_collected_step]
  constructor
  · rintro (hg | ⟨step, c, hchild, hh, hg⟩)
    · exact ⟨[], decide_eq_true hg, by simp⟩
    · obtain ⟨path, hp, hpass⟩ := (ih step c hchild).mp hg
      exact ⟨step :: path, by rw [has, hchild]; exact hp, forall_mem_cons.mpr ⟨hh, hpass⟩⟩
  · rintro ⟨path, hp, hpass⟩
    cases path with
    | nil => exact .inl (of_decide_eq_true hp)
    | cons step path =>
      obtain ⟨hh, hpass⟩ := forall_mem_cons.mp hpass
      rw [has, Option.any_eq_true] at hp
      obtain ⟨c, hchild, hp⟩ := hp
      exact .inr ⟨step, c, hchild, hh, (ih step c hchild).mpr ⟨path, hp, hpass⟩⟩

/-- Every group lies on at most one path. -/
def Single (n : Node) : Prop :=
  ∀ g p q, has g p n = true → has g q n = true → samePath p q = true

lemma Single.child {c : Node} (hs : n.Single) {step : Condition} (h : n.child step = some c) : c.Single := by
  intro g p q hp hq
  have := hs g (step :: p) (step :: q) (by rw [has, h]; exact hp) (by rw [has, h]; exact hq)
  simp only [samePath, sameList, Bool.and_eq_true] at this
  exact this.2

lemma Single.sameStep {c d : Node} (hs : n.Single) {s t : Condition}
    (hcs : n.child s = some c) (hct : n.child t = some d) (hc : c.WellFormed)
    (hd : d.WellFormed) {g : ℕ} (hgc : g ∈ collected r c) (hgd : g ∈ collected r d) :
    sameStep s t = true := by
  obtain ⟨p, hp, -⟩ := (hc.mem_collected g).mp hgc
  obtain ⟨q, hq, -⟩ := (hd.mem_collected g).mp hgd
  have := hs g (s :: p) (t :: q) (by rw [has, hcs]; exact hp) (by rw [has, hct]; exact hq)
  simp only [samePath, sameList, Bool.and_eq_true] at this
  exact this.1

lemma WellFormed.nodup_collected (hn : n.WellFormed) (hs : n.Single) : (collected r n).Nodup := by
  revert hs
  refine WellFormed.inductChildren (p := fun n => n.Single → (collected r n).Nodup) (fun n hn ih hs => ?_) hn
  obtain ⟨leaves, eqs, conds⟩ := n
  have hwf := hn
  rw [collected_mk r hn]
  obtain ⟨hl, hf, -, hc, ho, -, -⟩ := hn
  have hcond {e : Condition × Node} (he : e ∈ conds) {g : ℕ} (hg : g ∈ conditionMatches r e) :
      (Node.mk leaves eqs conds).child e.1 = some e.2 ∧ g ∈ collected r e.2 := by
    simp only [conditionMatches] at hg
    split_ifs at hg
    · refine ⟨?_, hg⟩
      rw [Node.child, if_neg (ho e he).1]
      exact find_of_mem eqlCondition hc he (KeyTest.refl e.1)
    · cases hg
  have hfield {f : ℕ × List (Value × Node)} (hfm : f ∈ eqs) {g : ℕ} (hg : g ∈ fieldMatches r f) : ∃ v c,
      (Node.mk leaves eqs conds).child (eqStep f.1 v) = some c ∧ g ∈ collected r c := by
    obtain ⟨v, c, -, hchild, hg⟩ := (mem_fieldMatches hf hfm g).mp hg
    exact ⟨v, c, hchild, hg⟩
  have hleaf {g : ℕ} (hg : g ∈ leaves) {step : Condition} {c : Node}
      (hchild : (Node.mk leaves eqs conds).child step = some c) : g ∉ collected r c := by
    intro hgc
    obtain ⟨p, hp, -⟩ := ((hwf.child hchild).mem_collected g).mp hgc
    have := hs g [] (step :: p) (decide_eq_true hg) (by rw [has, hchild]; exact hp)
    simp [samePath, sameList] at this
  refine nodup_append.mpr ⟨nodup_append.mpr ⟨hl, nodup_flatMap.mpr ⟨?_, ?_⟩, ?_⟩,
    nodup_flatMap.mpr ⟨?_, ?_⟩, ?_⟩
  · intro f hfm
    rw [fieldMatches]
    cases hm : r.values[f.1]?.bind fun v => find Value.eql v f.2 with
    | none => exact nodup_nil
    | some c =>
      obtain ⟨v, -, hc⟩ := bind_eq_some_iff.mp hm
      have hchild : (Node.mk leaves eqs conds).child (eqStep f.1 v) = some c := by
        rw [child_eqStep, find_of_mem eqKey hf hfm (KeyTest.self eqKey f.1)]
        exact hc
      exact ih _ c hchild (hs.child hchild)
  · refine hf.imp_of_mem fun {a b} ha hb hab g hga hgb => ?_
    obtain ⟨v, c, hca, hga⟩ := hfield ha hga
    obtain ⟨w, d, hcb, hgb⟩ := hfield hb hgb
    have := hs.sameStep hca hcb (hwf.child hca) (hwf.child hcb) hga hgb
    simp only [ZyncBase.sameStep, eqStep, if_true, Bool.and_eq_true, decide_eq_true_eq] at this
    exact (eqKey_eq_false _ _).mp hab (of_decide_eq_true this.1.2)
  · rintro g hg h hm rfl
    obtain ⟨f, hfm, hgf⟩ := mem_flatMap.mp hm
    obtain ⟨v, c, hchild, hgc⟩ := hfield hfm hgf
    exact hleaf hg hchild hgc
  · intro e he
    rw [conditionMatches]
    split_ifs with hh
    · have hchild : (Node.mk leaves eqs conds).child e.1 = some e.2 := by
        rw [Node.child, if_neg (ho e he).1]
        exact find_of_mem eqlCondition hc he (KeyTest.refl e.1)
      exact ih _ e.2 hchild (hs.child hchild)
    · exact nodup_nil
  · refine hc.imp_of_mem fun {a b} ha hb hab g hga hgb => ?_
    obtain ⟨hca, hga⟩ := hcond ha hga
    obtain ⟨hcb, hgb⟩ := hcond hb hgb
    have := hs.sameStep hca hcb (hwf.child hca) (hwf.child hcb) hga hgb
    rw [ZyncBase.sameStep, if_neg (ho a ha).1, hab] at this
    cases this
  · rintro g hg h hm rfl
    obtain ⟨e, he, hge⟩ := mem_flatMap.mp hm
    obtain ⟨hce, hge⟩ := hcond he hge
    cases mem_append.mp hg with
    | inl hg => exact hleaf hg hce hge
    | inr hg =>
      obtain ⟨f, hfm, hgf⟩ := mem_flatMap.mp hg
      obtain ⟨v, c, hcf, hgf⟩ := hfield hfm hgf
      have := hs.sameStep hcf hce (hwf.child hcf) (hwf.child hce) hgf hge
      simp only [ZyncBase.sameStep, eqStep, if_true, Bool.and_eq_true, decide_eq_true_eq] at this
      exact (ho e he).1 this.1.1

end Node
end ZyncBase
