import DocClaims.PerCategory
import DocClaims.SortedTexts

/-!
# Sets of claims

The claims of one document without repetition, sorted within each category.
Every category is present, possibly empty.
-/

namespace DocClaims

structure ClaimSet where
  sourceDocument : String
  extractedAt : String
  values : PerCategory SortedTexts
  deriving DecidableEq

namespace ClaimSet

def empty (sourceDocument extractedAt : String) : ClaimSet :=
  ⟨sourceDocument, extractedAt, .replicate .empty⟩

def contains (set : ClaimSet) (claim : Claim) : Bool :=
  (set.values.get claim.category).contains claim.value

def insert (set : ClaimSet) (claim : Claim) : ClaimSet :=
  { set with values := set.values.modify claim.category (·.insert claim.value) }

def insertNew (set : ClaimSet) (claim : Claim) : Bool × ClaimSet :=
  (!set.contains claim, set.insert claim)

def insertAll (set : ClaimSet) (claims : List Claim) : ClaimSet := claims.foldl insert set

def ofClaims (sourceDocument extractedAt : String) (claims : List Claim) : ClaimSet :=
  (empty sourceDocument extractedAt).insertAll claims

def count (set : ClaimSet) (category : Category) : Nat := (set.values.get category).size

def size (set : ClaimSet) : Nat := (Category.all.map set.count).foldr (· + ·) 0

def isEmpty (set : ClaimSet) : Bool := set.size == 0

def toList (set : ClaimSet) : List Claim :=
  Category.all.flatMap fun c => (set.values.get c).toList.map (Claim.mk c)

end ClaimSet
end DocClaims
