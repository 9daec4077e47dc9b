import ZyncBase.Query.Canonical
import ZyncBase.Query.Hasher
import ZyncBase.Subscription.FilterKeys

/-! The hash of filter keys, and when two listings of one filter come to one key. -/
namespace ZyncBase

open AssocMap

def filterFeed (f : QueryFilter) : List Fed :=
  .int 1 f.predicate.state.toNat :: hashOption (List.flatMap hashCondition) f.predicate.conditions ++
    hashOption (fun clauses => .usize clauses.length ::
      clauses.flatMap (List.flatMap hashCondition)) f.predicate.orClauses ++
    hashSortDescriptors f.orderBy ++
    hashOption (fun limit => [.int 4 limit]) f.limit ++
    hashOption (fun after => .usize after.values.length :: after.values.flatMap hashValue) f.after

/-- The hash of a filter as the key of its group. -/
def filterHash (wyhash : Bytes → UInt64) (f : QueryFilter) : UInt64 :=
  wyhash (fedBytes (filterFeed f))

section Congruence

lemma hashOption_eq {κ : Type*} {same : κ → κ → Bool} {feed : κ → List Fed}
    (hfeed : ∀ a b, same a b = true → feed a = feed b) {a b : Option κ}
    (h : sameOption same a b = true) : hashOption feed a = hashOption feed b := by
  obtain ⟨rfl, rfl⟩ | ⟨x, y, rfl, rfl, hxy⟩ := sameOption_cases h
  · rfl
  · exact hfeed x y hxy

lemma hashClauses_eq {cs ds : List OrClause} (h : sameList (sameList eqlCondition) cs ds = true) :
    Fed.usize cs.length :: cs.flatMap (List.flatMap hashCondition) =
      Fed.usize ds.length :: ds.flatMap (List.flatMap hashCondition) := by
  have hall : cs.flatMap (List.flatMap hashCondition) = ds.flatMap (List.flatMap hashCondition) :=
    flatMap_eq_of_sameList (fun _ _ hab => hashConditions_eq hab) h
  rw [length_eq_of_sameList h, hall]

lemma hashAfter_eq {a b : Option Cursor}
    (h : sameOption (sameList Value.eql) (a.map Cursor.values) (b.map Cursor.values) = true) :
    hashOption (fun after => Fed.usize after.values.length :: after.values.flatMap hashValue) a =
      hashOption (fun after => Fed.usize after.values.length :: after.values.flatMap hashValue) b := by
  cases a <;> cases b <;> simp only [Option.map_some, Option.map_none, sameOption, Bool.false_eq_true] at h
  · rfl
  · simp only [hashOption, Option.elim_some, length_eq_of_sameList h,
      flatMap_eq_of_sameList (fun _ _ hab => hashValue_eq hab) h]

lemma filterFeed_eq {f g : QueryFilter} (h : eqlFilter f g = true) : filterFeed f = filterFeed g := by
  obtain ⟨hs, hc, ho, hd, hl, ha⟩ := (eqlFilter_iff f g).mp h
  have hconds : hashOption (List.flatMap hashCondition) f.predicate.conditions =
      hashOption (List.flatMap hashCondition) g.predicate.conditions :=
    hashOption_eq (fun _ _ hab => hashConditions_eq hab) hc
  have hclauses := hashOption_eq (fun _ _ hab => hashClauses_eq hab) ho
  rw [filterFeed, filterFeed, hs, hd, hl, hashAfter_eq ha, hconds, hclauses]

lemma structuralFeed_eq {f g : QueryFilter} (h : eqlFilter f g = true) (tableIndex : ℕ) :
    structuralFeed tableIndex f = structuralFeed tableIndex g := by
  obtain ⟨hs, hc, ho, hd, hl, ha⟩ := (eqlFilter_iff f g).mp h
  have hc := getD_sameList hc
  have ho := getD_sameList ho
  have hafter : f.after.isSome = g.after.isSome := by
    cases hf : f.after <;> cases hg : g.after <;> simp_all [sameOption]
  rw [structuralFeed, structuralFeed, hs, hd, hl, hafter, length_eq_of_sameList hc,
    length_eq_of_sameList ho, hashConditionStructures_eq hc, hashClauseStructures_eq ho]

end Congruence

namespace QueryFilter

def normalized (f : QueryFilter) : QueryFilter := { f with predicate := f.predicate.normalize }

/-- The same filter, its conditions, clauses and alternatives listed in another order. -/
structure Permuted (f g : QueryFilter) : Prop where
  predicate : f.predicate.Permuted g.predicate
  orderBy : f.orderBy = g.orderBy
  limit : f.limit = g.limit
  after : f.after = g.after

/-- Two listings of one filter come to one key, with the same hashes, just when they are sorted
alike. -/
lemma Permuted.eqlFilter_normalized_iff {f g : QueryFilter} (h : f.Permuted g) :
    eqlFilter f.normalized g.normalized = true ↔ f.predicate.SortsLike g.predicate := by
  rw [eqlFilter_iff, ← h.predicate.normalize_same_iff]
  have hafter : sameOption (sameList Value.eql) (f.normalized.after.map Cursor.values)
      (g.normalized.after.map Cursor.values) = true := by
    change sameOption _ (f.after.map _) (g.after.map _) = true
    rw [h.after]
    exact KeyTest.self (sameOption (sameList Value.eql)) _
  constructor
  · rintro ⟨hs, hc, ho, -, -, -⟩
    exact ⟨hs, hc, ho⟩
  · rintro ⟨hs, hc, ho⟩
    exact ⟨hs, hc, ho, h.orderBy, h.limit, hafter⟩

/-- Normalisation is canonical on the listings that it sorts alike, and idempotent on the
predicates that settle. -/
theorem normalized_canonical_iff (wyhash : Bytes → UInt64) {f g : QueryFilter} (h : f.Permuted g) :
    ((eqlFilter f.normalized g.normalized = true ∧
        filterHash wyhash f.normalized = filterHash wyhash g.normalized ∧
        ∀ tableIndex, computeStructuralHash wyhash tableIndex f.normalized =
          computeStructuralHash wyhash tableIndex g.normalized) ↔
      f.predicate.SortsLike g.predicate) ∧
    (f.normalized.normalized = f.normalized ↔ f.predicate.Settles) := by
  refine ⟨?_, ?_⟩
  · rw [← h.eqlFilter_normalized_iff]
    refine ⟨fun hall => hall.1, fun heql => ⟨heql, ?_, fun tableIndex => ?_⟩⟩
    · rw [filterHash, filterHash, filterFeed_eq heql]
    · rw [computeStructuralHash, computeStructuralHash, structuralFeed_eq heql]
  · rw [← f.predicate.normalize_idem_iff]
    constructor
    · intro heq
      exact congrArg QueryFilter.predicate heq
    · intro heq
      simp only [normalized, heq]

end QueryFilter

namespace CanonicalExample

def isA (fieldIndex : ℕ) : Condition where
  fieldIndex := fieldIndex
  op := .eq
  value := some (.scalar (.text [97]))
  fieldType := .text
  itemsType := none

def notInNothing : Condition where
  fieldIndex := 3
  op := .notIn
  value := some (.array [])
  fieldType := .text
  itemsType := none

def listing (i j : ℕ) (orClauses : Option (List OrClause)) : QueryFilter where
  predicate := { conditions := some [isA i, isA j], orClauses := orClauses }
  orderBy := [{ fieldIndex := 5, desc := false }]

lemma listing_permuted (i j : ℕ) (orClauses : Option (List OrClause)) :
    (listing i j orClauses).Permuted (listing j i orClauses) :=
  ⟨⟨rfl, .swap _ _ _, _, .refl _, List.forall₂_same.mpr fun _ _ => .refl _⟩, rfl, rfl, rfl⟩

/-- With a clause that is dropped, the two listings come to different keys with different hashes,
and the second one is sorted only when it is normalised again. -/
theorem dropped_clause_splits :
    (listing 3 4 (some [[notInNothing]])).Permuted (listing 4 3 (some [[notInNothing]])) ∧
    eqlFilter (listing 3 4 (some [[notInNothing]])).normalized
      (listing 4 3 (some [[notInNothing]])).normalized = false ∧
    fedBytes (filterFeed (listing 3 4 (some [[notInNothing]])).normalized) ≠
      fedBytes (filterFeed (listing 4 3 (some [[notInNothing]])).normalized) ∧
    (listing 4 3 (some [[notInNothing]])).normalized.normalized ≠
      (listing 4 3 (some [[notInNothing]])).normalized :=
  ⟨listing_permuted _ _ _, by decide, by decide, by decide⟩

theorem listings_share_key : eqlFilter (listing 4 3 none).normalized (listing 3 4 none).normalized = true ∧
    (listing 4 3 none).normalized.normalized = (listing 4 3 none).normalized := by
  obtain ⟨hkey, hidem⟩ :=
    QueryFilter.normalized_canonical_iff (fun _ => 0) (listing_permuted 4 3 none)
  exact ⟨(hkey.mpr (by decide)).1, hidem.mpr (by decide)⟩

end CanonicalExample
end ZyncBase
