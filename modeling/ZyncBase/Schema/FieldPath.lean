import ZyncBase.Lib.DoubledSeparator
import ZyncBase.Typed.Types

/-! Names of nested fields: the names of the objects around a field and its own, joined by two
underscores, and the form with dots that a schema file has. -/
namespace ZyncBase.FieldPath

open DoubledSeparator

def joinSegment (pre segment : String) : String :=
  if pre = "" then segment else pre ++ "__" ++ segment

def splitFirst (path : String) : String × Option String :=
  let parts := DoubledSeparator.splitFirst '_' path.toList
  (String.ofList parts.1, parts.2.map String.ofList)

/-- What follows the prefix and a separator, if anything does. -/
def remainder (path pre : String) : Option String :=
  if pre = "" then some path
  else if ¬pre.toList <+: path.toList then none
  else if path.length ≤ pre.length + 2 then none
  else if (path.toList.drop pre.length).take 2 ≠ ['_', '_'] then none
  else some (String.ofList (path.toList.drop (pre.length + 2)))

def normalizeDots (dotted : List Char) : List Char :=
  dotted.flatMap fun ch => if ch = '.' then ['_', '_'] else [ch]

def toDotted : List Char → List Char
  | '_' :: '_' :: rest => '.' :: toDotted rest
  | ch :: rest => ch :: toDotted rest
  | [] => []

lemma normalizeDots_toDotted {name : List Char} (h : '.' ∉ name) : normalizeDots (toDotted name) = name := by
  induction name using toDotted.induct with
  | case1 rest ih =>
    rw [toDotted, normalizeDots, List.flatMap_cons, ← normalizeDots, ih fun hmem => h (by simp [hmem])]
    rfl
  | case2 ch rest hne ih =>
    have hch : ch ≠ '.' := fun hch => h (by simp [hch])
    rw [toDotted, normalizeDots, List.flatMap_cons, ← normalizeDots,
      ih fun hmem => h (List.mem_cons_of_mem _ hmem), if_neg hch]
    · rfl
    · exact hne
  | case3 => rfl

lemma mem_toDotted {name : List Char} {ch : Char} (h : ch ∈ toDotted name) : ch ∈ name ∨ ch = '.' := by
  induction name using toDotted.induct with
  | case1 rest ih =>
    rw [toDotted, List.mem_cons] at h
    obtain h | h := h
    · exact .inr h
    · obtain h | h := ih h
      · exact .inl (List.mem_cons_of_mem _ (List.mem_cons_of_mem _ h))
      · exact .inr h
  | case2 c rest hne ih =>
    rw [toDotted, List.mem_cons] at h
    · obtain rfl | h := h
      · exact .inl List.mem_cons_self
      · exact (ih h).imp_left (List.mem_cons_of_mem _)
    · exact hne
  | case3 => exact absurd h List.not_mem_nil

lemma remainder_eq_some {path pre rem : String} (hpre : pre ≠ "") :
    remainder path pre = some rem ↔ rem ≠ "" ∧ path = pre ++ "__" ++ rem := by
  have hsep : "__".toList = ['_', '_'] := rfl
  unfold remainder
  rw [if_neg hpre]
  constructor
  · intro h
    split_ifs at h with hprefix hlen htake
    obtain ⟨tail, htail⟩ := hprefix
    have hlist := Option.some.inj h
    have hdrop : path.toList.drop pre.length = tail := by
      rw [← htail, ← String.length_toList, List.drop_left]
    rw [← List.drop_drop, hdrop] at hlist
    rw [hdrop] at htake
    have hlength : tail.length = path.length - pre.length := by
      rw [← hdrop, List.length_drop, String.length_toList]
    obtain ⟨rest, rfl⟩ : ∃ rest, tail = '_' :: '_' :: rest := by
      refine ⟨tail.drop 2, ?_⟩
      have happend := List.take_append_drop 2 tail
      rw [not_not.mp htake] at happend
      exact happend.symm
    rw [← hlist]
    refine ⟨?_, ?_⟩
    · rintro hrest
      have hnil : rest = [] := by simpa using congrArg String.toList hrest
      simp only [hnil, List.length_cons, List.length_nil] at hlength
      omega
    · rw [String.ext_iff]
      simp [← htail]
  · rintro ⟨hne, rfl⟩
    have hlist : (pre ++ "__" ++ rem).toList = pre.toList ++ '_' :: '_' :: rem.toList := by
      simp [hsep]
    have hlen : "__".length = 2 := rfl
    have hpos : rem.length ≠ 0 := by simpa using hne
    rw [if_neg (by rw [hlist]; simp), if_neg (by simp [hlen]; omega), hlist, ← String.length_toList,
      List.drop_left, if_neg (by simp), ← List.drop_drop, List.drop_left]
    simp

lemma joinSegment_ne_empty {pre segment : String} (h : segment ≠ "") : joinSegment pre segment ≠ "" := by
  unfold joinSegment
  split_ifs with hpre
  · exact h
  · simp [hpre]

lemma joinSegment_assoc {pre segment : String} (h : segment ≠ "") (rem : String) :
    joinSegment (joinSegment pre segment) rem = joinSegment pre (segment ++ "__" ++ rem) := by
  rw [joinSegment, if_neg (joinSegment_ne_empty h)]
  unfold joinSegment
  split_ifs with hpre
  · rfl
  · simp only [String.append_assoc]

lemma remainder_joinSegment {pre rem : String} (h : rem ≠ "") :
    remainder (joinSegment pre rem) pre = some rem := by
  by_cases hpre : pre = ""
  · rw [remainder, joinSegment, if_pos hpre, if_pos hpre]
  · exact (remainder_eq_some hpre).mpr ⟨h, by rw [joinSegment, if_neg hpre]⟩

lemma eq_joinSegment_of_remainder {name pre rem : String} (h : remainder name pre = some rem) :
    name = joinSegment pre rem := by
  by_cases hpre : pre = ""
  · rw [remainder, if_pos hpre] at h
    rw [joinSegment, if_pos hpre, Option.some.inj h]
  · rw [joinSegment, if_neg hpre]
    exact ((remainder_eq_some hpre).mp h).2

section Split

variable {segment : String}

lemma splitFirst_segment (h : hasDouble '_' segment.toList = false) :
    splitFirst segment = (segment, none) := by
  simp [splitFirst, splitFirst_word h]

lemma splitFirst_joined (h : hasDouble '_' segment.toList = false)
    (hlast : segment.toList.getLast? ≠ some '_') (rem : String) :
    splitFirst (segment ++ "__" ++ rem) = (segment, some rem) := by
  have hlist : (segment ++ "__" ++ rem).toList = segment.toList ++ '_' :: '_' :: rem.toList := by
    simp
  simp [splitFirst, hlist, splitFirst_append h hlast]

lemma remainder_of_child {name pre rem : String} (hne : segment ≠ "")
    (h : remainder name (joinSegment pre segment) = some rem) :
    remainder name pre = some (segment ++ "__" ++ rem) := by
  rw [eq_joinSegment_of_remainder h, joinSegment_assoc hne]
  exact remainder_joinSegment (by simp [hne])

end Split

end ZyncBase.FieldPath
