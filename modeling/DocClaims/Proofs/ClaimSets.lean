import DocClaims.ClaimSet
import DocClaims.Proofs.Categories

/-!
# Sets and their members

A set of claims is its members. It lists them by category, as many as it counts, and is
built again from them.
-/

namespace DocClaims
namespace SortedTexts

theorem contains_iff {t : SortedTexts} {s : String} : t.contains s ↔ s ∈ t.toList :=
  List.contains_iff_mem

theorem contains_insert {t : SortedTexts} {s a : String} :
    (t.insert a).contains s ↔ s = a ∨ t.contains s := by
  rw [contains_iff, contains_iff, insert, mem_insertInto]

theorem ext_contains {t u : SortedTexts} (h : ∀ s, t.contains s ↔ u.contains s) : t = u := by
  have hnodup : ∀ v : SortedTexts, v.toList.Nodup := by
    intro v
    apply v.sorted.imp
    rintro a b hlt rfl
    exact String.lt_irrefl a hlt
  have hperm : t.toList.Perm u.toList :=
    (List.perm_ext_iff_of_nodup (hnodup t) (hnodup u)).2 fun s => by
      rw [← contains_iff, ← contains_iff, h s]
  have hlist : t.toList = u.toList := by
    refine hperm.eq_of_pairwise ?_ t.sorted u.sorted
    intro a b _ _ hab hba
    exact absurd hba (String.lt_asymm hab)
  cases t
  cases u
  simpa using hlist

end SortedTexts

namespace ClaimSet

theorem contains_insert {set : ClaimSet} {claim other : Claim} :
    (set.insert claim).contains other ↔ other = claim ∨ set.contains other := by
  obtain ⟨c, value⟩ := claim
  obtain ⟨d, s⟩ := other
  rw [contains, insert, PerCategory.get_modify, contains, Claim.mk.injEq]
  by_cases hc : c = d
  · rw [if_pos hc, SortedTexts.contains_insert]
    simp [hc]
  · rw [if_neg hc]
    simp [Ne.symm hc]

theorem contains_insertAll {set : ClaimSet} {claims : List Claim} {claim : Claim} :
    (set.insertAll claims).contains claim ↔ claim ∈ claims ∨ set.contains claim := by
  induction claims generalizing set with
  | nil => simp [insertAll]
  | cons other claims ih =>
      rw [insertAll, List.foldl_cons, ← insertAll, ih, contains_insert, List.mem_cons,
        or_left_comm, or_assoc]

theorem insertAll_frame (set : ClaimSet) (claims : List Claim) :
    (set.insertAll claims).sourceDocument = set.sourceDocument ∧
      (set.insertAll claims).extractedAt = set.extractedAt := by
  induction claims generalizing set with
  | nil => exact ⟨rfl, rfl⟩
  | cons claim claims ih => exact ih (set.insert claim)

@[simp] theorem not_contains_empty (sourceDocument extractedAt : String) (claim : Claim) :
    (empty sourceDocument extractedAt).contains claim = false := by
  rw [contains, empty, PerCategory.get_replicate]
  rfl

/-- Two sets of one document are equal if they have the same members. -/
theorem ext_contains {set other : ClaimSet} (hsource : set.sourceDocument = other.sourceDocument)
    (hat : set.extractedAt = other.extractedAt)
    (h : ∀ claim, set.contains claim ↔ other.contains claim) : set = other := by
  have hvalues : set.values = other.values := by
    ext c
    exact SortedTexts.ext_contains fun value => h ⟨c, value⟩
  cases set
  cases other
  simp_all

theorem contains_ofClaims {source extractedAt : String} {claims : List Claim} {claim : Claim} :
    (ofClaims source extractedAt claims).contains claim ↔ claim ∈ claims := by
  rw [ofClaims, contains_insertAll]
  simp

/-- Order and repetition of the claims do not count. -/
theorem ofClaims_congr {source extractedAt : String} {claims others : List Claim}
    (h : ∀ claim, claim ∈ others ↔ claim ∈ claims) :
    ofClaims source extractedAt others = ofClaims source extractedAt claims := by
  have hframe := insertAll_frame (empty source extractedAt)
  refine ext_contains ?_ ?_ fun claim => ?_
  · exact (hframe others).1.trans (hframe claims).1.symm
  · exact (hframe others).2.trans (hframe claims).2.symm
  · rw [contains_ofClaims, contains_ofClaims, h]

theorem values_of_mk (values : List String) (c d : Category) :
    ((values.map (Claim.mk d)).filter (·.category = c)).map (·.value) =
      if d = c then values else [] := by
  by_cases h : d = c <;> simp [List.filter_map, Function.comp_def, h]

theorem values_of_category (set : ClaimSet) (c : Category) :
    (set.toList.filter (·.category = c)).map (·.value) = (set.values.get c).toList := by
  simp only [toList, Category.all, List.flatMap_cons, List.flatMap_nil, List.filter_append,
    List.map_append, values_of_mk]
  cases c <;> simp

theorem mem_toList_iff {set : ClaimSet} {claim : Claim} :
    claim ∈ set.toList ↔ set.contains claim := by
  rw [toList, List.mem_flatMap, contains, SortedTexts.contains_iff]
  constructor
  · rintro ⟨c, -, hclaim⟩
    obtain ⟨value, hvalue, rfl⟩ := List.mem_map.1 hclaim
    exact hvalue
  · intro hvalue
    exact ⟨claim.category, Category.mem_all _, List.mem_map_of_mem hvalue⟩

theorem length_toList (set : ClaimSet) : set.toList.length = set.size := by
  rw [toList, List.length_flatMap]
  simp only [List.length_map]
  rfl

theorem ofClaims_toList (set : ClaimSet) :
    ofClaims set.sourceDocument set.extractedAt set.toList = set := by
  have hframe := insertAll_frame (empty set.sourceDocument set.extractedAt) set.toList
  rw [ofClaims]
  apply ext_contains
  · exact hframe.1
  · exact hframe.2
  · intro claim
    simp [contains_insertAll, mem_toList_iff]

end ClaimSet
end DocClaims
