import ZyncBase.Authorization.Evaluate

/-! A namespace matches a pattern with the captures that fill the pattern up to it. -/
namespace ZyncBase

open AssocMap List

lemma not_mem_of_mem_splitOn {text part : Bytes} (h : part ∈ text.splitOn 58) : 58 ∉ part := by
  induction text generalizing part with
  | nil =>
    cases mem_singleton.mp h
    exact not_mem_nil
  | cons b text ih =>
    rw [splitOn_cons_eq_if_modifyHead] at h
    split_ifs at h with hb
    · cases mem_cons.mp h with
      | inl he => exact he ▸ not_mem_nil
      | inr h => exact ih h
    · cases hsplit : text.splitOn 58 with
      | nil => exact absurd hsplit (splitOn_ne_nil _ _)
      | cons first parts =>
        rw [hsplit] at h ih
        cases mem_cons.mp h with
        | inl he =>
          rw [he, mem_cons, not_or]
          exact ⟨fun hc => hb (beq_iff_eq.mpr hc.symm), ih mem_cons_self⟩
        | inr h => exact ih (mem_cons_of_mem _ h)

def captureNames : List PatternSegment → List String
  | [] => []
  | .literal _ :: segments => captureNames segments
  | .capture name :: segments => name :: captureNames segments

/-- The texts that fill a segment, given the captures. A `*` stands for any text. -/
def PatternSegment.Fills (captures : Captures) : PatternSegment → Bytes → Prop
  | .literal text, part => text = [42] ∨ text = part
  | .capture name, part => part ≠ [] ∧ (name, part) ∈ captures

section Matching

variable {segments : List PatternSegment} {acc captures : Captures}

lemma put_of_fresh {name : String} (part : Bytes) (h : name ∉ acc.map Prod.fst) :
    put eqKey name part acc = acc ++ [(name, part)] := by
  induction acc with
  | nil => rfl
  | cons e acc ih =>
    rw [map_cons, mem_cons, not_or] at h
    rw [put, if_neg fun he => h.1 ((eqKey_iff _ _).mp he).symm, ih h.2]
    rfl

lemma unique_capture (hnames : (captures.map Prod.fst).Nodup) {name : String} {a b : Bytes}
    (ha : (name, a) ∈ captures) (hb : (name, b) ∈ captures) : a = b :=
  congrArg Prod.snd (inj_on_of_nodup_map hnames ha hb rfl)

lemma matchSegments_iff {parts : List Bytes} (hnames : (acc.map Prod.fst ++ captureNames segments).Nodup) :
    matchSegments segments parts acc = some captures ↔ ∃ taken, captures = acc ++ taken ∧
      taken.map Prod.fst = captureNames segments ∧ List.Forall₂ (·.Fills captures) segments parts := by
  induction segments generalizing parts acc with
  | nil =>
    cases parts with
    | nil =>
      constructor
      · intro h
        cases h
        exact ⟨[], (append_nil _).symm, rfl, .nil⟩
      · rintro ⟨taken, rfl, htaken, -⟩
        rw [map_eq_nil_iff.mp htaken, append_nil]
        rfl
    | cons part parts => simp [matchSegments]
  | cons segment segments ih =>
    cases parts with
    | nil => cases segment <;> simp [matchSegments]
    | cons part parts =>
      cases segment with
      | literal text =>
        rw [matchSegments]
        by_cases hfit : text = [42] ∨ text = part
        · rw [if_neg (by tauto), ih hnames]
          simp [captureNames, PatternSegment.Fills, hfit]
        · rw [if_pos (not_or.mp hfit)]
          simp [PatternSegment.Fills, hfit]
      | capture name =>
        rw [matchSegments]
        by_cases hpart : part = []
        · simp [PatternSegment.Fills, hpart]
        · have hfresh : name ∉ acc.map Prod.fst := fun h =>
            (nodup_append.mp hnames).2.2 name h name mem_cons_self rfl
          rw [if_neg hpart, put_of_fresh part hfresh, ih (by simpa [captureNames] using hnames)]
          constructor
          · rintro ⟨taken, rfl, htaken, hfills⟩
            exact ⟨(name, part) :: taken, by simp, by simp [captureNames, htaken],
              .cons ⟨hpart, by simp⟩ hfills⟩
          · rintro ⟨taken, rfl, htaken, hfills⟩
            cases hfills with
            | cons hfill hfills =>
              cases taken with
              | nil => cases htaken
              | cons c taken =>
                obtain ⟨hname, htaken⟩ := List.cons.inj htaken
                have hkeys : ((acc ++ c :: taken).map Prod.fst).Nodup := by
                  simpa [captureNames, hname, htaken] using hnames
                have hc : c = (name, part) := Prod.ext hname
                  (unique_capture hkeys (hname ▸ mem_append_right _ mem_cons_self) hfill.2)
                exact ⟨taken, by simp [hc], htaken, hfills⟩

end Matching

/-- With names of their own, the captures of a match fill the pattern up to the namespace; without a `*`,
no two namespaces match it with the same captures. -/
theorem matchNamespace_filled {segments : List PatternSegment} (hnames : (captureNames segments).Nodup)
    (nspace : Bytes) (captures : Captures) :
    (matchNamespace segments nspace = some captures ↔ captures.map Prod.fst = captureNames segments ∧
      ∃ parts ≠ [], (∀ part ∈ parts, 58 ∉ part) ∧ nspace = [58].intercalate parts ∧
        List.Forall₂ (·.Fills captures) segments parts) ∧
    (.literal [42] ∉ segments → matchNamespace segments nspace = some captures →
      ∀ other, matchNamespace segments other = some captures → other = nspace) := by
  have hiff (nspace : Bytes) : matchNamespace segments nspace = some captures ↔
      captures.map Prod.fst = captureNames segments ∧
        List.Forall₂ (·.Fills captures) segments (nspace.splitOn 58) := by
    rw [matchNamespace, matchSegments_iff (by simpa using hnames)]
    simp
  refine ⟨(hiff nspace).trans (and_congr_right fun _ => ⟨fun h => ?_, ?_⟩), fun hstar h other hother => ?_⟩
  · exact ⟨_, splitOn_ne_nil _ _, fun _ => not_mem_of_mem_splitOn, (intercalate_splitOn 58).symm, h⟩
  · rintro ⟨parts, hne, hparts, rfl, hfills⟩
    rwa [splitOn_intercalate 58 hparts hne]
  · rw [hiff] at h hother
    have hkeys : (captures.map Prod.fst).Nodup := h.1 ▸ hnames
    have hunique : Relator.RightUnique fun (segment : PatternSegment) part =>
        segment ≠ .literal [42] ∧ segment.Fills captures part := by
      rintro segment a b ⟨hsegment, ha⟩ ⟨-, hb⟩
      cases segment with
      | literal text =>
        have htext : text ≠ [42] := fun he => hsegment (he ▸ rfl)
        exact (ha.resolve_left htext).symm.trans (hb.resolve_left htext)
      | capture name => exact unique_capture hkeys ha.2 hb.2
    have hfixed : ∀ segment ∈ segments, segment ≠ .literal [42] := fun segment hmem he => hstar (he ▸ hmem)
    have hsplit := right_unique_forall₂' hunique ((forall₂_and_left _ _).mpr ⟨hfixed, hother.2⟩)
      ((forall₂_and_left _ _).mpr ⟨hfixed, h.2⟩)
    calc other = [58].intercalate (other.splitOn 58) := (intercalate_splitOn 58).symm
      _ = nspace := by rw [hsplit, intercalate_splitOn]

namespace NamespaceExample

/-- The pattern `t:{i}`. -/
def tenant : List PatternSegment := [.literal [116], .capture "i"]

theorem matchNamespace_filled_tenant :
    (matchNamespace tenant [116, 58, 97] = some [("i", [97])] ↔
      [("i", [(97 : UInt8)])].map Prod.fst = captureNames tenant ∧
        ∃ parts ≠ [], (∀ part ∈ parts, 58 ∉ part) ∧ ([116, 58, 97] : Bytes) = [58].intercalate parts ∧
          List.Forall₂ (·.Fills [("i", [97])]) tenant parts) ∧
    (.literal [42] ∉ tenant → matchNamespace tenant [116, 58, 97] = some [("i", [97])] →
      ∀ other, matchNamespace tenant other = some [("i", [97])] → other = [116, 58, 97]) :=
  matchNamespace_filled (by decide) _ _

end NamespaceExample
end ZyncBase
