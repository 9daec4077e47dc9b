import Mathlib.Data.List.Basic
import Mathlib.Data.List.Pairwise
import Mathlib.Logic.Function.Basic

/-! Finite maps as lists of entries, where a test decides which keys are the same. They stand for
hash maps whose hash respects the test. -/
namespace AssocMap

open Function List

variable {κ ν : Type*}

/-- A key test is an equivalence. -/
class KeyTest (same : κ → κ → Bool) : Prop where
  refl : ∀ a, same a a = true
  symm : ∀ a b, same a b = true → same b a = true
  trans : ∀ a b c, same a b = true → same b c = true → same a c = true

lemma KeyTest.self (same : κ → κ → Bool) [KeyTest same] (a : κ) : same a a = true := refl a

def eqKey [DecidableEq κ] (a b : κ) : Bool := a = b

@[simp] lemma eqKey_iff [DecidableEq κ] (a b : κ) : eqKey a b = true ↔ a = b := decide_eq_true_iff

@[simp] lemma eqKey_eq_false [DecidableEq κ] (a b : κ) : eqKey a b = false ↔ a ≠ b := by
  rw [← Bool.not_eq_true, eqKey_iff]

instance [DecidableEq κ] : KeyTest (eqKey (κ := κ)) where
  refl := by simp
  symm := by simp +contextual
  trans := by simp +contextual

lemma KeyTest.congr_right {same : κ → κ → Bool} [KeyTest same] {a b : κ} (h : same a b)
    (c : κ) : same c a = same c b := by
  rw [Bool.eq_iff_iff]
  exact ⟨fun hc => trans c a b hc h, fun hc => trans c b a hc (symm a b h)⟩

lemma KeyTest.comm (same : κ → κ → Bool) [KeyTest same] (a b : κ) : same a b = same b a := by
  rw [Bool.eq_iff_iff]
  exact ⟨symm a b, symm b a⟩

lemma KeyTest.congr_left {same : κ → κ → Bool} [KeyTest same] {a b : κ} (h : same a b)
    (c : κ) : same a c = same b c := by
  rw [comm same a c, comm same b c, congr_right h]

section Shapes

/-- Lists of one length whose elements agree pairwise. -/
def sameList (same : κ → κ → Bool) : List κ → List κ → Bool
  | [], [] => true
  | a :: as, b :: bs => same a b && sameList same as bs
  | _, _ => false

def sameOption (same : κ → κ → Bool) : Option κ → Option κ → Bool
  | none, none => true
  | some a, some b => same a b
  | _, _ => false

instance (same : κ → κ → Bool) [KeyTest same] : KeyTest (sameList same) where
  refl as := by
    induction as with
    | nil => rfl
    | cons a as ih => rw [sameList, KeyTest.self same a, ih, Bool.and_self]
  symm as bs := by
    induction as generalizing bs with
    | nil => cases bs <;> simp [sameList]
    | cons a as ih =>
      cases bs with
      | nil => simp [sameList]
      | cons b bs =>
        simp only [sameList, Bool.and_eq_true]
        exact fun h => ⟨KeyTest.symm a b h.1, ih bs h.2⟩
  trans as bs cs := by
    induction as generalizing bs cs with
    | nil => cases bs <;> simp [sameList]
    | cons a as ih =>
      cases bs with
      | nil => simp [sameList]
      | cons b bs =>
        cases cs with
        | nil => simp [sameList]
        | cons c cs =>
          simp only [sameList, Bool.and_eq_true]
          exact fun h g => ⟨KeyTest.trans a b c h.1 g.1, ih bs cs h.2 g.2⟩

instance (same : κ → κ → Bool) [KeyTest same] : KeyTest (sameOption same) where
  refl a := by
    cases a with
    | none => rfl
    | some a => exact KeyTest.refl a
  symm a b := by
    cases a <;> cases b <;> simp only [sameOption, Bool.false_eq_true, imp_self]
    exact KeyTest.symm _ _
  trans a b c := by
    cases a <;> cases b <;> cases c <;>
      simp only [sameOption, Bool.false_eq_true, false_imp_iff, imp_self, implies_true]
    exact KeyTest.trans _ _ _

variable {same : κ → κ → Bool}

lemma sameOption_cases {a b : Option κ} (h : sameOption same a b) :
    (a = none ∧ b = none) ∨ ∃ x y, a = some x ∧ b = some y ∧ same x y := by
  cases a <;> cases b <;> simp_all [sameOption]

lemma sameList_iff_map {β : Type*} {key : κ → β}
    (hkey : ∀ a b, same a b = true ↔ key a = key b) (as bs : List κ) :
    sameList same as bs = true ↔ as.map key = bs.map key := by
  induction as generalizing bs with
  | nil => cases bs <;> simp [sameList]
  | cons a as ih =>
    cases bs with
    | nil => simp [sameList]
    | cons b bs =>
      rw [sameList, Bool.and_eq_true, hkey, ih, map_cons, map_cons, List.cons.injEq]

lemma sameOption_sameList_iff (as bs : Option (List κ)) : sameOption (sameList same) as bs = true ↔
    sameList same (as.getD []) (bs.getD []) = true ∧ as.isSome = bs.isSome := by
  cases as <;> cases bs <;> simp [sameOption, sameList]

lemma sameList_map_eq {β : Type*} {f : κ → β}
    (hf : ∀ a b, same a b = true → f a = f b) {as bs : List κ} (h : sameList same as bs) :
    as.map f = bs.map f := by
  induction as generalizing bs with
  | nil =>
    cases bs with
    | nil => rfl
    | cons b bs => simp [sameList] at h
  | cons a as ih =>
    cases bs with
    | nil => simp [sameList] at h
    | cons b bs =>
      rw [sameList, Bool.and_eq_true] at h
      rw [map_cons, map_cons, hf a b h.1, ih h.2]

lemma sameList_all_eq {f : κ → Bool}
    (hf : ∀ a b, same a b = true → f a = f b) {as bs : List κ} (h : sameList same as bs) :
    as.all f = bs.all f := by
  have hid (l : List κ) : l.all f = (l.map f).all id := by rw [all_map]; rfl
  rw [hid, hid, sameList_map_eq hf h]

lemma sameList_any_eq {f : κ → Bool}
    (hf : ∀ a b, same a b = true → f a = f b) {as bs : List κ} (h : sameList same as bs) :
    as.any f = bs.any f := by
  have hid (l : List κ) : l.any f = (l.map f).any id := by rw [any_map]; rfl
  rw [hid, hid, sameList_map_eq hf h]

end Shapes

variable (same : κ → κ → Bool)

def find (k : κ) : List (κ × ν) → Option ν
  | [] => none
  | e :: es => if same e.1 k then some e.2 else find k es

/-- An entry under the same key keeps its key and takes the new value. -/
def put (k : κ) (v : ν) : List (κ × ν) → List (κ × ν)
  | [] => [(k, v)]
  | e :: es => if same e.1 k then (e.1, v) :: es else e :: put k v es

def remove (k : κ) (m : List (κ × ν)) : List (κ × ν) := m.filter fun e => !same e.1 k

/-- No two entries have the same key. -/
def Distinct (m : List (κ × ν)) : Prop := m.Pairwise fun a b => same a.1 b.1 = false

@[simp] lemma find_nil (k : κ) : find same k ([] : List (κ × ν)) = none := rfl

variable {m : List (κ × ν)} {k : κ} {v : ν}

lemma mem_of_find (h : find same k m = some v) : ∃ k', same k' k ∧ (k', v) ∈ m := by
  induction m with
  | nil => cases h
  | cons e es ih =>
    rw [find] at h
    split_ifs at h with he
    · cases h
      exact ⟨e.1, he, mem_cons_self⟩
    · obtain ⟨k', hk, hm⟩ := ih h
      exact ⟨k', hk, mem_cons_of_mem _ hm⟩

lemma distinct_remove (h : Distinct same m) : Distinct same (remove same k m) := h.filter _

variable [KeyTest same]

lemma find_congr {k' : κ} (h : same k k') (m : List (κ × ν)) : find same k m = find same k' m := by
  induction m with
  | nil => rfl
  | cons e es ih => rw [find, find, KeyTest.congr_right h e.1, ih]

lemma find_put (k k' : κ) (v : ν) (m : List (κ × ν)) :
    find same k' (put same k v m) = if same k k' then some v else find same k' m := by
  induction m with
  | nil => simp [put, find]
  | cons e es ih =>
    rw [put]
    by_cases he : same e.1 k
    · rw [if_pos he, find, find, KeyTest.congr_left he k']
      split <;> rfl
    · rw [if_neg he, find, find, ih]
      by_cases hk : same k k'
      · have : ¬ same e.1 k' := fun h => he (KeyTest.trans _ _ _ h (KeyTest.symm _ _ hk))
        simp [hk, this]
      · simp [hk]

lemma find_remove (k k' : κ) (m : List (κ × ν)) :
    find same k' (remove same k m) = if same k k' then none else find same k' m := by
  induction m with
  | nil => simp [remove]
  | cons e es ih =>
    rw [remove, filter_cons]
    by_cases he : same e.1 k
    · rw [he, Bool.not_true, if_neg (by simp), find, KeyTest.congr_left he k']
      rw [remove] at ih
      rw [ih]
      split <;> rfl
    · rw [Bool.not_eq_true] at he
      rw [remove] at ih
      rw [he, Bool.not_false, if_pos rfl, find, find, ih]
      by_cases hk : same k k'
      · have : same e.1 k' = false := by rw [← KeyTest.congr_right hk, he]
        simp [hk, this]
      · simp [hk]

lemma distinct_perm {m' : List (κ × ν)} (hd : Distinct same m) (hp : m.Perm m') : Distinct same m' :=
  (hp.pairwise_iff fun {a b} h => by rw [KeyTest.comm same b.1 a.1, h]).mp hd

lemma find_of_mem {k' : κ} (hd : Distinct same m)
    (hm : (k', v) ∈ m) (h : same k' k) : find same k m = some v := by
  induction m with
  | nil => cases hm
  | cons e es ih =>
    rw [Distinct, pairwise_cons] at hd
    rw [find]
    cases mem_cons.mp hm with
    | inl he =>
      subst he
      rw [if_pos h]
    | inr he =>
      have hne := hd.1 _ he
      rw [KeyTest.congr_right h e.1] at hne
      rw [hne, if_neg (by simp)]
      exact ih hd.2 he

lemma find_perm {m' : List (κ × ν)} (hd : Distinct same m) (hp : m.Perm m') (k : κ) :
    find same k m = find same k m' := by
  have hd' : Distinct same m' := distinct_perm same hd hp
  refine Option.ext fun v => ⟨fun h => ?_, fun h => ?_⟩
  · obtain ⟨k', hk, hm⟩ := mem_of_find same h
    exact find_of_mem same hd' (hp.mem_iff.mp hm) hk
  · obtain ⟨k', hk, hm⟩ := mem_of_find same h
    exact find_of_mem same hd (hp.mem_iff.mpr hm) hk

omit [KeyTest same] in
lemma find_filter (p : κ → Bool) (hp : ∀ a b, same a b → p a = p b) (k : κ) (m : List (κ × ν)) :
    find same k (m.filter fun e => p e.1) = if p k then find same k m else none := by
  induction m with
  | nil => simp
  | cons e m ih =>
    rw [filter_cons]
    by_cases he : same e.1 k
    · rw [hp e.1 k he, find, if_pos he]
      split_ifs with hk
      · rw [find, if_pos he]
      · rw [ih, if_neg hk]
    · split_ifs with hpe hk hk
      · rw [find, if_neg he, ih, if_pos hk, find, if_neg he]
      · rw [find, if_neg he, ih, if_neg hk]
      · rw [ih, if_pos hk, find, if_neg he]
      · rw [ih, if_neg hk]

omit [KeyTest same] in
lemma find_filter_of_none {p : κ × ν → Bool} (h : find same k m = none) : find same k (m.filter p) = none := by
  induction m with
  | nil => rfl
  | cons e m ih =>
    rw [find] at h
    split_ifs at h with he
    rw [filter_cons]
    split_ifs
    · rw [find, if_neg he]
      exact ih h
    · exact ih h

omit [KeyTest same] in
lemma find_filter_of_find {p : κ × ν → Bool} (h : find same k m = some v) (hp : ∀ k', same k' k → p (k', v)) :
    find same k (m.filter p) = some v := by
  induction m with
  | nil => cases h
  | cons e m ih =>
    rw [find] at h
    split_ifs at h with he
    · cases h
      rw [filter_cons_of_pos (hp e.1 he), find, if_pos he]
    · rw [filter_cons]
      split_ifs
      · rw [find, if_neg he]
        exact ih h
      · exact ih h

lemma fst_of_mem_put {e : κ × ν} (h : e ∈ put same k v m) : (e.2 = v ∧ same e.1 k) ∨ e ∈ m := by
  induction m with
  | nil =>
    rw [put, mem_singleton] at h
    subst h
    exact .inl ⟨rfl, KeyTest.refl k⟩
  | cons a as ih =>
    rw [put] at h
    split_ifs at h with ha
    · cases mem_cons.mp h with
      | inl he =>
        subst he
        exact .inl ⟨rfl, ha⟩
      | inr he => exact .inr (mem_cons_of_mem _ he)
    · cases mem_cons.mp h with
      | inl he =>
        subst he
        exact .inr mem_cons_self
      | inr he => exact (ih he).imp_right (mem_cons_of_mem _)

lemma distinct_put (h : Distinct same m) : Distinct same (put same k v m) := by
  induction m with
  | nil => exact pairwise_singleton _ _
  | cons e es ih =>
    rw [Distinct, pairwise_cons] at h
    rw [put]
    split_ifs with he
    · exact pairwise_cons.mpr h
    · refine pairwise_cons.mpr ⟨fun b hb => ?_, ih h.2⟩
      cases fst_of_mem_put same hb with
      | inl hv =>
        rw [KeyTest.congr_right hv.2 e.1]
        simpa using he
      | inr hm => exact h.1 b hm

section Equality

variable [DecidableEq κ]

lemma find_put_eqKey (a : κ) (v : ν) (m : List (κ × ν)) :
    (fun k => find eqKey k (put eqKey a v m)) = update (find eqKey · m) a (some v) := by
  funext k
  rw [find_put, update_apply]
  by_cases h : k = a
  · simp [h]
  · simp [h, Ne.symm h]

lemma remove_eq_self {k : κ} {m : List (κ × ν)} (h : ∀ e ∈ m, e.1 ≠ k) : remove eqKey k m = m :=
  filter_eq_self.mpr fun e he => by simp [h e he]

lemma find_put_self (k : κ) (v : ν) (m : List (κ × ν)) : find eqKey k (put eqKey k v m) = some v := by
  rw [find_put, if_pos (KeyTest.self eqKey k)]

lemma find_put_of (k k' : κ) (v : ν) (m : List (κ × ν)) :
    find eqKey k' (put eqKey k v m) = if k = k' then some v else find eqKey k' m := by
  rw [find_put]
  by_cases h : k = k'
  · simp [h]
  · simp [h]

lemma find_remove_of (k k' : κ) (m : List (κ × ν)) :
    find eqKey k' (remove eqKey k m) = if k = k' then none else find eqKey k' m := by
  rw [find_remove]
  by_cases h : k = k'
  · simp [h]
  · simp [h]

lemma put_eq_self {k : κ} {m : List (κ × ν)} (h : find eqKey k m = some v) : put eqKey k v m = m := by
  induction m with
  | nil => cases h
  | cons e es ih =>
    rw [find] at h
    rw [put]
    split_ifs at h ⊢ with he
    · cases h
      rfl
    · rw [ih h]

lemma put_put (k : κ) (v w : ν) (m : List (κ × ν)) : put eqKey k v (put eqKey k w m) = put eqKey k v m := by
  induction m with
  | nil => simp [put]
  | cons e es ih =>
    rw [put]
    by_cases he : eqKey e.1 k
    · rw [if_pos he, put, if_pos he, put, if_pos he]
    · rw [if_neg he, put, if_neg he, ih, put, if_neg he]

lemma remove_put (k : κ) (v : ν) (m : List (κ × ν)) : remove eqKey k (put eqKey k v m) = remove eqKey k m := by
  induction m with
  | nil => simp [put, remove]
  | cons e es ih =>
    rw [put]
    by_cases he : eqKey e.1 k
    · simp [remove, he]
    · rw [if_neg he]
      rw [remove] at ih
      rw [remove, filter_cons_of_pos (by simpa using he), ih, remove, remove,
        filter_cons_of_pos (by simpa using he)]

lemma remove_of_find_none {k : κ} {m : List (κ × ν)} (h : find eqKey k m = none) : remove eqKey k m = m := by
  induction m with
  | nil => rfl
  | cons e es ih =>
    rw [find] at h
    split_ifs at h with he
    rw [remove, filter_cons_of_pos (by simpa using he)]
    exact congrArg _ (ih h)

lemma remove_put_new {κ ν : Type*} {same : κ → κ → Bool} [KeyTest same] {k : κ} (v : ν)
    {m : List (κ × ν)} (h : find same k m = none) : remove same k (put same k v m) = m := by
  induction m with
  | nil => simp [put, remove, KeyTest.self same]
  | cons a m ih =>
    rw [find] at h
    split_ifs at h with ha
    rw [put, if_neg ha, remove, filter_cons_of_pos (by simpa using ha)]
    exact congrArg _ (ih h)

lemma put_ne_nil (k : κ) (v : ν) (entries : List (κ × ν)) : put eqKey k v entries ≠ [] := by
  intro h
  have hfound := find_put_self k v entries
  rw [h] at hfound
  cases hfound

lemma perm_remove {k : κ} {m : List (κ × ν)} (hd : Distinct eqKey m)
    (h : find eqKey k m = some v) : m.Perm ((k, v) :: remove eqKey k m) := by
  induction m with
  | nil => cases h
  | cons e es ih =>
    rw [Distinct, pairwise_cons] at hd
    rw [find] at h
    split_ifs at h with he
    · cases h
      have hk : e.1 = k := (eqKey_iff _ _).mp he
      have hrest : remove eqKey k es = es := by
        refine remove_eq_self fun b hb hbk => ?_
        have hne := hd.1 b hb
        rw [hbk, hk, KeyTest.self eqKey k] at hne
        cases hne
      rw [remove, filter_cons_of_neg (by simp [he])]
      change (e :: es).Perm ((k, e.2) :: remove eqKey k es)
      rw [hrest, ← hk]
    · rw [remove, filter_cons_of_pos (by simpa using he)]
      exact ((ih hd.2 h).cons e).trans (.swap ..)

lemma perm_put {k : κ} {m : List (κ × ν)} (hd : Distinct eqKey m) :
    (put eqKey k v m).Perm ((k, v) :: remove eqKey k m) := by
  have hfind : find eqKey k (put eqKey k v m) = some v := by
    rw [find_put, if_pos (KeyTest.self eqKey k)]
  have hremove : remove eqKey k (put eqKey k v m) = remove eqKey k m := by
    clear hd hfind
    induction m with
    | nil => simp [put, remove]
    | cons e es ih =>
      rw [put]
      split_ifs with he
      · simp [remove, (eqKey_iff _ _).mp he]
      · rw [remove, filter_cons_of_pos (by simpa using he), remove, filter_cons_of_pos (by simpa using he)]
        exact congrArg (e :: ·) ih
  rw [← hremove]
  exact perm_remove (distinct_put eqKey hd) hfind

lemma find_remove_eqKey (a : κ) (m : List (κ × ν)) :
    (fun k => find eqKey k (remove eqKey a m)) = update (find eqKey · m) a none := by
  funext k
  rw [find_remove, update_apply]
  by_cases h : k = a
  · simp [h]
  · simp [h, Ne.symm h]

lemma foldl_update {β : Type*} (g : ν → β → β) {es : List (κ × ν)} (hd : Distinct eqKey es)
    (f : κ → β) (k : κ) :
    es.foldl (fun f e => update f e.1 (g e.2 (f e.1))) f k =
      (find eqKey k es).elim (f k) fun v => g v (f k) := by
  induction es generalizing f with
  | nil => rfl
  | cons e es ih =>
    rw [Distinct, pairwise_cons] at hd
    rw [foldl_cons, ih hd.2, find]
    by_cases he : e.1 = k
    · have hnone : find eqKey k es = none := by
        rw [Option.eq_none_iff_forall_ne_some]
        intro v hv
        obtain ⟨k', hk, hmem⟩ := mem_of_find eqKey hv
        have hne := hd.1 _ hmem
        rw [eqKey_eq_false, he] at hne
        exact hne ((eqKey_iff _ _).mp hk).symm
      rw [hnone, if_pos ((eqKey_iff _ _).mpr he), he, Option.elim_none, update_self]
      rfl
    · rw [if_neg (by simpa using he), update_of_ne (Ne.symm he)]

lemma foldl_at {β : Type*} (g : ν → β → β) {es : List (κ × ν)} (hd : Distinct eqKey es) (k : κ)
    (b : β) : es.foldl (fun b e => if e.1 = k then g e.2 b else b) b =
      (find eqKey k es).elim b fun v => g v b := by
  have hfold := foldl_update g hd (fun _ => b) k
  rw [← hfold]
  generalize hf : (fun _ : κ => b) = f
  have hfk : f k = b := by rw [← hf]
  clear hf hfold
  induction es generalizing f b with
  | nil => exact hfk.symm
  | cons e es ih =>
    rw [Distinct, pairwise_cons] at hd
    rw [foldl_cons, foldl_cons]
    refine ih hd.2 _ _ ?_
    split_ifs with he
    · rw [he, update_self, hfk]
    · rw [update_of_ne (Ne.symm he), hfk]

section Mapped

variable {ν' : Type*} (g : ν → ν')

lemma find_mapped (k : κ) (m : List (κ × ν)) :
    find eqKey k (m.map fun e => (e.1, g e.2)) = (find eqKey k m).map g := by
  induction m with
  | nil => rfl
  | cons e es ih =>
    rw [map_cons, find, find, ih]
    split_ifs <;> rfl

lemma put_mapped (k : κ) (v : ν) (m : List (κ × ν)) : put eqKey k (g v) (m.map fun e => (e.1, g e.2)) =
    (put eqKey k v m).map fun e => (e.1, g e.2) := by
  induction m with
  | nil => rfl
  | cons e es ih =>
    rw [map_cons, put, put, ih]
    split_ifs <;> rfl

end Mapped

lemma flatMap_at {β : Type*} {f : κ × ν → List β} {m : List (κ × ν)} (hd : Distinct eqKey m) {k : κ}
    (h : ∀ e ∈ m, e.1 ≠ k → f e = []) : m.flatMap f = (find eqKey k m).elim [] fun v => f (k, v) := by
  induction m with
  | nil => rfl
  | cons e es ih =>
    rw [Distinct, pairwise_cons] at hd
    obtain ⟨he, hes⟩ := forall_mem_cons.mp h
    rw [flatMap_cons, ih hd.2 hes, find]
    by_cases hk : e.1 = k
    · have hnone : find eqKey k es = none := by
        rw [Option.eq_none_iff_forall_ne_some]
        intro v hv
        obtain ⟨k', hk', hmem⟩ := mem_of_find eqKey hv
        have hne := hd.1 _ hmem
        rw [eqKey_eq_false, hk] at hne
        exact hne ((eqKey_iff _ _).mp hk').symm
      rw [hnone, if_pos ((eqKey_iff _ _).mpr hk), Option.elim_none, append_nil, ← hk]
      rfl
    · rw [he hk, nil_append, if_neg (by simpa using hk)]

end Equality

section Slices

variable {α β : Type*} [DecidableEq α] [DecidableEq β]

/-- The entries whose key starts with `a`, by the rest of the key. -/
def slice (a : α) (m : List ((α × β) × ν)) : List (β × ν) :=
  m.filterMap fun e => if e.1.1 = a then some (e.1.2, e.2) else none

omit [DecidableEq β] in
lemma slice_cons (a : α) (e : (α × β) × ν) (m : List ((α × β) × ν)) :
    slice a (e :: m) = if e.1.1 = a then (e.1.2, e.2) :: slice a m else slice a m := by
  unfold slice
  rw [filterMap_cons]
  split_ifs
  · rfl
  · rfl

lemma find_slice (a : α) (b : β) (m : List ((α × β) × ν)) : find eqKey b (slice a m) = find eqKey (a, b) m := by
  induction m with
  | nil => rfl
  | cons e m ih =>
    obtain ⟨⟨a', b'⟩, v⟩ := e
    rw [slice_cons, find]
    by_cases ha : a' = a
    · rw [if_pos ha, find, ih]
      simp [eqKey, ha]
    · rw [if_neg ha, ih]
      simp [eqKey, ha]

lemma distinct_slice (a : α) {m : List ((α × β) × ν)} (hd : Distinct eqKey m) : Distinct eqKey (slice a m) := by
  refine List.Pairwise.filterMap _ (fun e e' hne f hf f' hf' => ?_) hd
  simp only [Option.ite_none_right_eq_some, Option.some.injEq] at hf hf'
  obtain ⟨ha, rfl⟩ := hf
  obtain ⟨ha', rfl⟩ := hf'
  rw [eqKey_eq_false] at hne ⊢
  exact fun hb => hne (Prod.ext (ha.trans ha'.symm) hb)

end Slices
end AssocMap
