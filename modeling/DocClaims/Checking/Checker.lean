import DocClaims.Checking.Plan
import DocClaims.Checking.SourceRoot
import DocClaims.ClaimSet
import DocClaims.Report.Builder
import DocClaims.TypePath

/-!
# Checking claims

A type is first looked for in the file in which it should be declared. All other
claims, and types that are not found there, are searched for.
-/

namespace DocClaims

structure Checker where
  files : FileTree
  root : SourceRoot
  chain : SearchChain

namespace Checker

def lineWith? (files : FileTree) (path : Text.Bytes) (text : String) : Option Nat :=
  match files.read path with
  | .ok bytes => (Walk.matchingLines text bytes).head?
  | .error _ => none

def expectedFile (c : Checker) (p : TypePath) : Text.Bytes := Path.join c.root.modules p.relative

def absenceNotes (c : Checker) (p : TypePath) : String :=
  if c.files.isFile (c.expectedFile p) then
    "Expected path " ++ p.relative ++ " does not declare " ++ p.marker
  else "Expected path " ++ p.relative ++ " does not exist"

def checkType (c : Checker) (claim : Claim) : Except NoReturn Check :=
  match TypePath.ofName? claim.value with
  | none => .ok (.ofVerdict (.notFound claim .low "Invalid class name format"))
  | some p =>
      match lineWith? c.files (c.expectedFile p) p.marker with
      | some line =>
          .ok (.ofVerdict
            (.found claim .high [⟨p.relative, line⟩] ("Found at expected path " ++ p.relative)))
      | none =>
          (SearchPlan.ofType p.marker (c.absenceNotes p)).carryOut c.chain c.root.modules claim

def check (c : Checker) (claim : Claim) : Except NoReturn Check :=
  let carryOut := fun (plan : SearchPlan) => plan.carryOut c.chain c.root.modules claim
  match claim.category with
  | .classes | .interfaces => c.checkType claim
  | .methods => carryOut (.ofMethod claim.value)
  | .events => carryOut (.ofEvent claim.value)
  | .tables => carryOut (.ofTable claim.value)
  | .aclResources => carryOut (.ofAclResource claim.value)
  | .configPaths | .filePaths => .ok (.ofVerdict (.notValidated claim))

def checkAll (c : Checker) (claims : List Claim) : Except NoReturn (List Check) :=
  claims.mapM c.check

def report (c : Checker) (set : ClaimSet) (date : String) : Except NoReturn Report := do
  let checks ← c.checkAll set.toList
  return .ofVerdicts set.sourceDocument date (Text.lossy c.root.given) (checks.map Check.verdict)

end Checker
end DocClaims
