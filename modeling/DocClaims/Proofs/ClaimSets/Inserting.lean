import DocClaims.Proofs.ClaimFiles
import Mathlib.Algebra.Ring.Nat
import Mathlib.Tactic.Tauto

/-!
# Claims put into sets

A set is filled claim by claim, and each time it is told whether the claim was new. What the
set holds, lists and counts then are the claims that were put in, and neither their order nor
how often each was put in leaves a trace. A document that repeats values or lists them in
another order comes out of its set in normal form.
-/

namespace DocClaims

namespace Claim

/-- The order of claims in a set: by category, then by value. -/
def Before (claim other : Claim) : Prop :=
  claim.category.index < other.category.index ∨
    claim.category = other.category ∧ claim.value < other.value

end Claim

namespace ClaimSet

/-- Puts the claims in one after the other and tells of each whether it was new. -/
def insertEach (set : ClaimSet) : List Claim → List Bool × ClaimSet
  | [] => ([], set)
  | claim :: claims =>
      let (isNew, more) := set.insertNew claim
      let (news, full) := insertEach more claims
      (isNew :: news, full)

theorem insertNew_ofClaims (source extractedAt : String) (before : List Claim) (claim : Claim) :
    (ofClaims source extractedAt before).insertNew claim =
      (decide (claim ∉ before), ofClaims source extractedAt (before ++ [claim])) := by
  have hnew : (!(ofClaims source extractedAt before).contains claim) =
      decide (claim ∉ before) := by
    rw [Bool.eq_iff_iff, Bool.not_eq_true', ← Bool.not_eq_true, contains_ofClaims,
      decide_eq_true_eq]
  rw [insertNew, hnew, ofClaims, ofClaims, insertAll, insertAll, List.foldl_append]
  rfl

/-- A claim is new unless it is among those that were put in before it. -/
theorem insertEach_ofClaims (source extractedAt : String) (before claims : List Claim) :
    (ofClaims source extractedAt before).insertEach claims =
      (claims.mapIdx fun i claim => decide (claim ∉ before ++ claims.take i),
        ofClaims source extractedAt (before ++ claims)) := by
  induction claims generalizing before with
  | nil =>
      rw [List.append_nil]
      rfl
  | cons claim claims ih =>
      rw [insertEach, insertNew_ofClaims]
      simp [ih, List.mapIdx_cons]

theorem pairwise_toList (set : ClaimSet) : set.toList.Pairwise Claim.Before := by
  rw [toList, List.pairwise_flatMap]
  constructor
  · intro c _
    refine (set.values.get c).sorted.map _ fun value other hlt => ?_
    exact .inr ⟨rfl, hlt⟩
  · have hall : Category.all.Pairwise (·.index < ·.index) := by decide
    refine hall.imp fun {c d} hlt claim hclaim other hother => ?_
    obtain ⟨value, -, rfl⟩ := List.mem_map.1 hclaim
    obtain ⟨value', -, rfl⟩ := List.mem_map.1 hother
    exact .inl hlt

theorem count_eq_length (set : ClaimSet) (c : Category) :
    set.count c = (set.toList.filter (·.category = c)).length := by
  rw [← List.length_map (·.value), values_of_category]
  rfl

end ClaimSet

namespace ClaimDocument

/-- What the document lists under a category. -/
def listed (doc : ClaimDocument) (c : Category) : List String := (doc.claims.get c).getD []

/-- The document that is made of the set of the document's claims. -/
def normalized (doc : ClaimDocument) : ClaimDocument := ofSet doc.toSet

theorem mem_lists_iff {doc : ClaimDocument} {c : Category} {values : List String} :
    (c, values) ∈ doc.lists ↔ doc.claims.get c = some values := by
  rw [lists, PerCategory.toList, List.mem_filterMap]
  constructor
  · rintro ⟨⟨d, found⟩, hfound, hvalues⟩
    obtain ⟨e, -, he⟩ := List.mem_map.1 hfound
    cases he
    obtain ⟨values, hvalues', hpair⟩ := Option.map_eq_some_iff.1 hvalues
    cases hpair
    exact hvalues'
  · intro hvalues
    exact ⟨(c, some values), List.mem_map.2 ⟨c, Category.mem_all c, by rw [hvalues]⟩, rfl⟩

theorem contains_toSet {doc : ClaimDocument} {claim : Claim} :
    doc.toSet.contains claim ↔ claim.value ∈ doc.listed claim.category := by
  rw [toSet, ClaimSet.contains_ofClaims, List.mem_flatMap, listed]
  constructor
  · rintro ⟨⟨c, values⟩, hvalues, hclaim⟩
    obtain ⟨value, hvalue, rfl⟩ := List.mem_map.1 hclaim
    rwa [mem_lists_iff.1 hvalues]
  · intro hvalue
    cases hvalues : doc.claims.get claim.category with
    | none => simp [hvalues] at hvalue
    | some values =>
        rw [hvalues] at hvalue
        exact ⟨(claim.category, values), mem_lists_iff.2 hvalues, List.mem_map_of_mem hvalue⟩

theorem toSet_frame (doc : ClaimDocument) :
    doc.toSet.sourceDocument = doc.sourceDocument ∧ doc.toSet.extractedAt = doc.extractedAt :=
  ClaimSet.insertAll_frame _ _

/-- What a document lists decides what its set holds. -/
theorem values_toSet_congr {doc other : ClaimDocument}
    (h : ∀ c value, value ∈ other.listed c ↔ value ∈ doc.listed c) :
    other.toSet.values = doc.toSet.values := by
  ext c
  refine SortedTexts.ext_contains fun value => ?_
  have hclaim : other.toSet.contains ⟨c, value⟩ ↔ doc.toSet.contains ⟨c, value⟩ := by
    rw [contains_toSet, contains_toSet, h]
  exact hclaim

theorem toSet_congr {doc other : ClaimDocument} (hsource : other.sourceDocument = doc.sourceDocument)
    (hat : other.extractedAt = doc.extractedAt)
    (h : ∀ c value, value ∈ other.listed c ↔ value ∈ doc.listed c) : other.toSet = doc.toSet := by
  refine ClaimSet.ext_contains ?_ ?_ fun claim => ?_
  · rw [other.toSet_frame.1, doc.toSet_frame.1, hsource]
  · rw [other.toSet_frame.2, doc.toSet_frame.2, hat]
  · rw [contains_toSet, contains_toSet, h]

theorem normalized_normalized (doc : ClaimDocument) : doc.normalized.normalized = doc.normalized :=
  congrArg ofSet (toSet_ofSet doc.toSet)

end ClaimDocument

namespace ClaimSet

/-- What can be told of a set from outside if the claims are those that were put in. -/
structure Holds (set : ClaimSet) (claims : List Claim) : Prop where
  categories : set.values.toList.map Prod.fst = Category.all
  contains_iff : ∀ claim, set.contains claim ↔ claim ∈ claims
  mem_toList_iff : ∀ claim, claim ∈ set.toList ↔ claim ∈ claims
  ordered : set.toList.Pairwise Claim.Before
  values_eq : ∀ c, (set.values.get c).toList = (set.toList.filter (·.category = c)).map (·.value)
  count_eq : ∀ c, set.count c = (set.toList.filter (·.category = c)).length
  length_eq : set.toList.length = set.size
  sum_eq : (Category.all.map set.count).sum = set.size
  lists_eq : (ClaimDocument.ofSet set).lists =
    Category.all.map fun c => (c, (set.toList.filter (·.category = c)).map (·.value))

theorem holds_ofClaims (source extractedAt : String) (claims : List Claim) :
    (ofClaims source extractedAt claims).Holds claims where
  categories := rfl
  contains_iff _ := contains_ofClaims
  mem_toList_iff _ := mem_toList_iff.trans contains_ofClaims
  ordered := pairwise_toList _
  values_eq c := (values_of_category _ c).symm
  count_eq := count_eq_length _
  length_eq := length_toList _
  sum_eq := rfl
  lists_eq := by simp only [ClaimDocument.lists_ofSet, values_of_category]

/-- Whatever is put into an empty set, each claim is told to be new the first time only, and
the set holds what was put in, without order and repetition. So documents that list the same
values make the same set, and from it the same document in normal form. -/
theorem insertEach_empty_and_normalized (source extractedAt : String) (claims : List Claim) :
    (empty source extractedAt).insertEach claims =
        (claims.mapIdx fun i claim => decide (claim ∉ claims.take i),
          ofClaims source extractedAt claims) ∧
      (ofClaims source extractedAt claims).Holds claims ∧
      (∀ others : List Claim, (∀ claim, claim ∈ others ↔ claim ∈ claims) →
        ofClaims source extractedAt others = ofClaims source extractedAt claims) ∧
      (∀ doc other : ClaimDocument, (∀ c value, value ∈ other.listed c ↔ value ∈ doc.listed c) →
        other.toSet.values = doc.toSet.values ∧
          (other.sourceDocument = doc.sourceDocument → other.extractedAt = doc.extractedAt →
            other.toSet = doc.toSet ∧ other.normalized = doc.normalized)) ∧
      ∀ doc : ClaimDocument, (∀ c, doc.normalized.claims.get c ≠ none) ∧
        doc.normalized.normalized = doc.normalized ∧
        ClaimDocument.parse doc.normalized.write = .ok doc.normalized := by
  refine ⟨insertEach_ofClaims source extractedAt [] claims, holds_ofClaims _ _ _,
    fun others => ofClaims_congr, fun doc other hlisted => ?_, fun doc => ⟨?_, ?_, ?_⟩⟩
  · refine ⟨ClaimDocument.values_toSet_congr hlisted, fun hsource hat => ?_⟩
    have hset := ClaimDocument.toSet_congr hsource hat hlisted
    exact ⟨hset, congrArg ClaimDocument.ofSet hset⟩
  · intro c
    simp [ClaimDocument.normalized, ClaimDocument.ofSet]
  · exact doc.normalized_normalized
  · exact ClaimDocument.parse_write _

/-- A claim that is put in twice and a list that repeats a value change nothing. -/
theorem insertEach_empty_and_normalized_repeated :
    ofClaims "orders.html" "today" [⟨.methods, "save"⟩, ⟨.methods, "load"⟩, ⟨.methods, "save"⟩] =
        ofClaims "orders.html" "today" [⟨.methods, "load"⟩, ⟨.methods, "save"⟩] ∧
      (ClaimDocument.mk "orders.html" "today" (.replicate (some ["save", "load", "save"]))
          .pending).normalized =
        (ClaimDocument.mk "orders.html" "today" (.replicate (some ["load", "save"]))
          .pending).normalized := by
  have hmembers : ∀ claim : Claim,
      claim ∈ [⟨.methods, "save"⟩, ⟨.methods, "load"⟩, ⟨.methods, "save"⟩] ↔
        claim ∈ [⟨.methods, "load"⟩, (⟨.methods, "save"⟩ : Claim)] := by
    intro claim
    simp only [List.mem_cons, List.not_mem_nil, or_false]
    tauto
  have hvalues : ∀ c value,
      value ∈ ClaimDocument.listed
          ⟨"orders.html", "today", .replicate (some ["save", "load", "save"]), .pending⟩ c ↔
        value ∈ ClaimDocument.listed
          ⟨"orders.html", "today", .replicate (some ["load", "save"]), .pending⟩ c := by
    intro c value
    simp only [ClaimDocument.listed, PerCategory.get_replicate, Option.getD_some, List.mem_cons,
      List.not_mem_nil, or_false]
    tauto
  obtain ⟨-, -, hsets, hdocs, -⟩ := insertEach_empty_and_normalized "orders.html" "today"
    [⟨.methods, "load"⟩, ⟨.methods, "save"⟩]
  exact ⟨hsets _ hmembers, ((hdocs _ _ hvalues).2 rfl rfl).2⟩

end ClaimSet
end DocClaims
