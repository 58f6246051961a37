import DocClaims.Checking.Checker
import DocClaims.Proofs.Checking.Searches

/-!
# The ways a check ends

Every check ends in one of four ways. Which plan it carries out, if any, depends on the
category of the claim, and on its value only through the text that is searched for.
-/

namespace DocClaims

open Outcome

namespace Category

def isType : Category → Bool
  | .classes | .interfaces => true
  | _ => false

theorem isType_iff {category : Category} :
    category.isType ↔ category = classes ∨ category = interfaces := by
  cases category <;> decide

/-- The most hits that a verdict keeps. -/
def evidenceLimit : Category → Nat
  | .methods | .events => 5
  | _ => 3

/-- What hits are worth. -/
def presence : Category → Confidence
  | .events | .tables | .aclResources => .high
  | _ => .medium

/-- What an answer without hits is worth. -/
def absence : Category → Confidence
  | .classes | .interfaces | .events => .high
  | _ => .medium

def searchedClasses : Category → List FileClass
  | .classes | .interfaces | .methods => [.source]
  | .events => [.markup, .source]
  | .tables => [.any]
  | .aclResources => [.markup]
  | .configPaths | .filePaths => []

end Category

namespace Checker

/-- How a claim is searched for if its name is well formed. -/
def plan? (c : Checker) (claim : Claim) : Option SearchPlan :=
  match claim.category with
  | .classes | .interfaces =>
      (TypePath.ofName? claim.value).map fun p => .ofType p.marker (c.absenceNotes p)
  | .methods => some (.ofMethod claim.value)
  | .events => some (.ofEvent claim.value)
  | .tables => some (.ofTable claim.value)
  | .aclResources => some (.ofAclResource claim.value)
  | .configPaths | .filePaths => none

/-- The first line of the expected file that holds the marker. -/
def expectedLine? (c : Checker) (p : TypePath) : Option Nat :=
  lineWith? c.files (c.expectedFile p) p.marker

/-- No line of the expected file holds the marker, if the claim is on a type. -/
def MissesExpected (c : Checker) (claim : Claim) : Prop :=
  claim.category.isType → ∀ p, TypePath.ofName? claim.value = some p → c.expectedLine? p = none

variable {c : Checker} {claim : Claim} {check : Check} {plan : SearchPlan}

/-! ### The ways to end -/

/-- What a check leaves, by the way it ends. -/
inductive Ends (c : Checker) (claim : Claim) : Check → Prop
  | unsupported (h : claim.category.isValidated = false) :
      Ends c claim (.ofVerdict (.notValidated claim))
  | malformed (h : claim.category.isType) (hname : TypePath.ofName? claim.value = none) :
      Ends c claim (.ofVerdict (.notFound claim .low "Invalid class name format"))
  | expected {p : TypePath} {line : Nat} (h : claim.category.isType)
      (hname : TypePath.ofName? claim.value = some p) (hline : c.expectedLine? p = some line) :
      Ends c claim (.ofVerdict
        (.found claim .high [⟨p.relative, line⟩] ("Found at expected path " ++ p.relative)))
  | searched {plan : SearchPlan} {searches : List Search} (hplan : c.plan? claim = some plan)
      (hmisses : c.MissesExpected claim)
      (h : SearchPlan.searchesIn c.chain c.root.modules plan.pattern plan.classes = .ok searches) :
      Ends c claim ⟨plan.verdict claim searches, searches⟩

theorem Ends.of_carryOut (hplan : c.plan? claim = some plan) (hmisses : c.MissesExpected claim)
    (h : plan.carryOut c.chain c.root.modules claim = .ok check) : c.Ends claim check := by
  obtain ⟨searches, hsearches, hpure⟩ := bind_eq_ok_iff.1 h
  obtain rfl := pure_eq_ok_iff.1 hpure
  exact .searched hplan hmisses hsearches

theorem Ends.of_checkType (htype : claim.category.isType)
    (hplan : c.plan? claim =
      (TypePath.ofName? claim.value).map fun p => .ofType p.marker (c.absenceNotes p))
    (h : c.checkType claim = .ok check) : c.Ends claim check := by
  unfold checkType at h
  cases hname : TypePath.ofName? claim.value with
  | none =>
      simp only [hname, Except.ok.injEq] at h
      subst h
      exact .malformed htype hname
  | some p =>
      simp only [hname] at h hplan
      cases hline : lineWith? c.files (c.expectedFile p) p.marker with
      | some line =>
          simp only [hline, Except.ok.injEq] at h
          subst h
          exact .expected htype hname hline
      | none =>
          simp only [hline] at h
          refine .of_carryOut hplan ?_ h
          intro _ q hq
          obtain rfl : p = q := by simpa [hname] using hq
          exact hline

theorem ends_of_check (h : c.check claim = .ok check) : c.Ends claim check := by
  obtain ⟨category, value⟩ := claim
  cases category with
  | classes => exact .of_checkType rfl rfl h
  | interfaces => exact .of_checkType rfl rfl h
  | methods => exact .of_carryOut rfl (fun htype => nomatch htype) h
  | events => exact .of_carryOut rfl (fun htype => nomatch htype) h
  | tables => exact .of_carryOut rfl (fun htype => nomatch htype) h
  | aclResources => exact .of_carryOut rfl (fun htype => nomatch htype) h
  | configPaths =>
      obtain rfl := Except.ok.inj h
      exact .unsupported rfl
  | filePaths =>
      obtain rfl := Except.ok.inj h
      exact .unsupported rfl

/-- A claim has a check if all that may be searched for below the root has an outcome. -/
theorem exists_check_of_search
    (h : ∀ pattern k, ∃ o, c.chain.search ⟨pattern, c.root.modules, k⟩ = .ok o) (claim : Claim) :
    ∃ check, c.check claim = .ok check := by
  have hcarry : ∀ plan : SearchPlan, ∃ check,
      plan.carryOut c.chain c.root.modules claim = .ok check := by
    intro plan
    obtain ⟨searches, hsearches⟩ :=
      SearchPlan.exists_searchesIn_of_search fun k (_ : k ∈ plan.classes) => h plan.pattern k
    exact ⟨_, bind_eq_ok_iff.2 ⟨searches, hsearches, rfl⟩⟩
  have htype : ∃ check, c.checkType claim = .ok check := by
    unfold checkType
    split
    · exact ⟨_, rfl⟩
    · split
      · exact ⟨_, rfl⟩
      · exact hcarry _
  obtain ⟨category, value⟩ := claim
  cases category with
  | classes => exact htype
  | interfaces => exact htype
  | methods => exact hcarry _
  | events => exact hcarry _
  | tables => exact hcarry _
  | aclResources => exact hcarry _
  | configPaths => exact ⟨_, rfl⟩
  | filePaths => exact ⟨_, rfl⟩

theorem exists_check (h : c.chain.Responds) (claim : Claim) :
    ∃ check, c.check claim = .ok check :=
  exists_check_of_search (fun _ _ => h.exists_search _) claim

/-! ### Plans by category -/

/-- What a plan has from the category alone. -/
structure Suits (plan : SearchPlan) (category : Category) : Prop where
  validated : category.isValidated
  classes : plan.classes = category.searchedClasses
  presence : plan.presence = category.presence
  absence : plan.absence = category.absence
  evidence : plan.evidence = category.evidenceLimit

theorem suits_of_plan? (h : c.plan? claim = some plan) :
    Suits plan claim.category := by
  obtain ⟨category, value⟩ := claim
  cases category with
  | classes =>
      obtain ⟨p, -, rfl⟩ := Option.map_eq_some_iff.1 h
      exact ⟨rfl, rfl, rfl, rfl, rfl⟩
  | interfaces =>
      obtain ⟨p, -, rfl⟩ := Option.map_eq_some_iff.1 h
      exact ⟨rfl, rfl, rfl, rfl, rfl⟩
  | methods => obtain rfl := Option.some.inj h; exact ⟨rfl, rfl, rfl, rfl, rfl⟩
  | events => obtain rfl := Option.some.inj h; exact ⟨rfl, rfl, rfl, rfl, rfl⟩
  | tables => obtain rfl := Option.some.inj h; exact ⟨rfl, rfl, rfl, rfl, rfl⟩
  | aclResources => obtain rfl := Option.some.inj h; exact ⟨rfl, rfl, rfl, rfl, rfl⟩
  | configPaths => simp [plan?] at h
  | filePaths => simp [plan?] at h

theorem Suits.classes_ne_nil {category : Category} (h : Suits plan category) :
    plan.classes ≠ [] := by
  rw [h.classes]
  have hvalidated := h.validated
  cases category <;> simp_all [Category.searchedClasses, Category.isValidated]

theorem exists_typePath_of_plan? (h : c.plan? claim = some plan) (htype : claim.category.isType) :
    ∃ p, TypePath.ofName? claim.value = some p := by
  obtain ⟨category, value⟩ := claim
  cases category with
  | classes =>
      obtain ⟨p, hp, -⟩ := Option.map_eq_some_iff.1 h
      exact ⟨p, hp⟩
  | interfaces =>
      obtain ⟨p, hp, -⟩ := Option.map_eq_some_iff.1 h
      exact ⟨p, hp⟩
  | _ => cases htype

theorem isValidated_of_isType {category : Category} (h : category.isType) :
    category.isValidated := by
  cases category <;> simp_all [Category.isType, Category.isValidated]

end Checker
end DocClaims
