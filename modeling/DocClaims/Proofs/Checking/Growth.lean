import DocClaims.Proofs.Checking.ExpectedFiles
import DocClaims.Proofs.Files.Growth
import Mathlib.Data.List.Sort

/-!
# Checks in a tree that grows

Files and directories that are added to a tree take no hit from a walk and change the order of
none. So a claim that is found stays found, and is not trusted less.
-/

namespace DocClaims

/-- The more a verdict can be trusted, the higher. -/
def Confidence.rank : Confidence → Nat
  | low => 0
  | medium => 1
  | high => 2

theorem Confidence.rank_le_high (confidence : Confidence) : confidence.rank ≤ high.rank := by
  cases confidence <;> decide

instance : Std.Antisymm Spot.Before where
  antisymm _ _ hbefore hafter := absurd hafter hbefore.asymm

/-- The lines that a walk finds in a tree are found in one that keeps it, in the same order, and
so are their hits. -/
theorem Walk.hits_sublist {t t' : FileTree} (h : t.KeptIn t') (hroot : t.root.WellNamed)
    (hroot' : t'.root.WellNamed) (exts : Extensions) (q : Query) :
    (hits t exts q).Sublist (hits t' exts q) := by
  cases hfilter : exts.filter q.fileClass with
  | error fault =>
      rw [hits, hfilter]
      exact List.nil_sublist _
  | ok filter =>
      rw [hits_of_filter hfilter, hits_of_filter hfilter, flatMap_hitsAt hroot,
        flatMap_hitsAt hroot']
      have hordered := pairwise_spots hroot q filter
      have hordered' := pairwise_spots hroot' q filter
      apply List.Sublist.map
      apply List.sublist_of_subperm_of_pairwise _ hordered hordered'
      apply List.subperm_of_subset (hordered.imp Spot.Before.ne)
      intro spot hspot
      obtain ⟨⟨inner, hheld⟩, hreached, hadmitted, bytes, hread, hfound⟩ :=
        (mem_spots_iff hroot).1 hspot
      exact (mem_spots_iff hroot').2 ⟨⟨inner, h.holdsFile hheld⟩, h.reaches hheld (by simp) hreached,
        hadmitted, bytes, h.read hread, hfound⟩

namespace Checker

variable {c d : Checker} {exts : Extensions} {claim : Claim} {check check' : Check}

/-- The second checker has the same module root, in a tree that keeps that of the first, and both
search it by the walk alone and in time. -/
structure GrowsTo (c d : Checker) (exts : Extensions) : Prop where
  root_eq : d.root = c.root
  kept : c.files.KeptIn d.files
  wellNamed : c.files.root.WellNamed
  wellNamed' : d.files.root.WellNamed
  walks : c.chain.WalksInTime c.files exts c.root.modules
  walks' : d.chain.WalksInTime d.files exts d.root.modules

/-- Apart from its notes, a plan does not depend on the tree. -/
theorem exists_plan? {plan : SearchPlan} (h : c.plan? claim = some plan) (d : Checker) :
    ∃ plan', d.plan? claim = some plan' ∧ plan'.pattern = plan.pattern ∧
      plan'.classes = plan.classes := by
  by_cases htype : claim.category.isType
  · obtain ⟨p, hname⟩ := exists_typePath_of_plan? h htype
    rw [plan?_of_type htype hname] at h
    obtain rfl := Option.some.inj h
    exact ⟨_, plan?_of_type htype hname, rfl, rfl⟩
  · refine ⟨plan, ?_, rfl, rfl⟩
    obtain ⟨category, value⟩ := claim
    cases category with
    | classes | interfaces => exact absurd rfl htype
    | _ => exact h

namespace GrowsTo

variable (h : c.GrowsTo d exts)
include h

theorem search_sublist (pattern : String) (k : FileClass) :
    ∃ o o', c.chain.search ⟨pattern, c.root.modules, k⟩ = .ok o ∧
      d.chain.search ⟨pattern, d.root.modules, k⟩ = .ok o' ∧ o.hits.Sublist o'.hits := by
  obtain ⟨o, hsearch, hhits⟩ := h.walks.exists_search pattern k
  obtain ⟨o', hsearch', hhits'⟩ := h.walks'.exists_search pattern k
  refine ⟨o, o', hsearch, hsearch', ?_⟩
  rw [hhits, hhits', h.root_eq]
  exact Walk.hits_sublist h.kept h.wellNamed h.wellNamed' exts _

theorem hasHits (hhits : c.HasHits claim) : d.HasHits claim := by
  obtain ⟨plan, hplan, k, hk, o, hsearch, hne⟩ := hhits
  obtain ⟨plan', hplan', hpattern, hclasses⟩ := exists_plan? hplan d
  obtain ⟨o₁, o', hsearch₁, hsearch', hsublist⟩ := h.search_sublist plan.pattern k
  obtain rfl := Except.ok.inj (hsearch.symm.trans hsearch₁)
  refine ⟨plan', hplan', k, ?_, o', ?_, ?_⟩
  · rw [hclasses]
    exact hk
  · rw [hpattern]
    exact hsearch'
  · intro hnil
    rw [hnil] at hsublist
    exact hne (List.sublist_nil.1 hsublist)

theorem expectedLine? {p : TypePath} {line : Nat} (hline : c.expectedLine? p = some line) :
    d.expectedLine? p = some line := by
  rw [expectedLine?_eq_some_iff] at hline ⊢
  obtain ⟨bytes, hread, hhead⟩ := hline
  have hfile : d.expectedFile p = c.expectedFile p := by
    rw [expectedFile, expectedFile, h.root_eq]
  refine ⟨bytes, ?_, hhead⟩
  rw [hfile]
  exact h.kept.read hread

theorem not_missesExpected (hmeets : ¬c.MissesExpected claim) : ¬d.MissesExpected claim := by
  rw [not_missesExpected_iff] at hmeets ⊢
  obtain ⟨htype, p, line, hname, hline⟩ := hmeets
  exact ⟨htype, p, line, hname, h.expectedLine? hline⟩

theorem found (hends : c.Ends claim check) (hends' : d.Ends claim check')
    (hfound : check.verdict.status = .found) : check'.verdict.status = .found := by
  rw [hends'.found_iff_exists]
  exact (hends.found_iff_exists.1 hfound).imp h.not_missesExpected h.hasHits

theorem rank_le (hends : c.Ends claim check) (hends' : d.Ends claim check')
    (hfound : check.verdict.status = .found) :
    check.verdict.confidence.rank ≤ check'.verdict.confidence.rank := by
  obtain ⟨-, hpresence⟩ := hends.confidence_of_found hfound
  obtain ⟨hhigh', hpresence'⟩ := hends'.confidence_of_found (h.found hends hends' hfound)
  by_cases hmisses : d.MissesExpected claim
  · have hmisses' : c.MissesExpected claim := by
      by_contra hmeets
      exact h.not_missesExpected hmeets hmisses
    rw [hpresence hmisses', hpresence' hmisses]
  · rw [hhigh' hmisses]
    exact Confidence.rank_le_high _

theorem confidence_eq (hends : c.Ends claim check) (hends' : d.Ends claim check')
    (htype : ¬claim.category.isType) (hfound : check.verdict.status = .found) :
    check'.verdict.confidence = check.verdict.confidence := by
  have hmisses (e : Checker) : e.MissesExpected claim := fun htype' => absurd htype' htype
  obtain ⟨-, hpresence⟩ := hends.confidence_of_found hfound
  obtain ⟨-, hpresence'⟩ := hends'.confidence_of_found (h.found hends hends' hfound)
  rw [hpresence (hmisses c), hpresence' (hmisses d)]

/-- In a tree that has grown a walk has all the hits that it had, in their order, and a claim that
was found is found. A type may then be trusted more, and all other claims are trusted as before. -/
theorem check_of_grown :
    (∀ pattern k, ∃ o o', c.chain.search ⟨pattern, c.root.modules, k⟩ = .ok o ∧
      d.chain.search ⟨pattern, d.root.modules, k⟩ = .ok o' ∧ o.hits.Sublist o'.hits) ∧
    ∀ claim, ∃ check check', c.check claim = .ok check ∧ d.check claim = .ok check' ∧
      (check.verdict.status = .found →
        check'.verdict.status = .found ∧
        check.verdict.confidence.rank ≤ check'.verdict.confidence.rank ∧
        (¬claim.category.isType → check'.verdict.confidence = check.verdict.confidence)) := by
  refine ⟨h.search_sublist, ?_⟩
  intro claim
  obtain ⟨check, hcheck⟩ := exists_check_of_search
    (fun pattern k => (h.walks.exists_search pattern k).imp fun o ho => ho.1) claim
  obtain ⟨check', hcheck'⟩ := exists_check_of_search
    (fun pattern k => (h.walks'.exists_search pattern k).imp fun o ho => ho.1) claim
  have hends := ends_of_check hcheck
  have hends' := ends_of_check hcheck'
  refine ⟨check, check', hcheck, hcheck', ?_⟩
  intro hfound
  refine ⟨h.found hends hends' hfound, h.rank_le hends hends' hfound, ?_⟩
  intro htype
  exact h.confidence_eq hends hends' htype hfound

end GrowsTo

/-! ### A module that is added -/

/-- The market before the module is there. -/
def stall : FileTree :=
  { root := .directory [("Baz.php", .file (Text.encode "class Baz"))], here := [] }

def atStall : Checker := ⟨stall, .within ".", .walkOnly stall Walk.phpAndXml⟩

theorem stall_keptIn_market : stall.KeptIn market where
  here_eq := rfl
  standing? := by
    intro place standing hstanding
    rw [FileTree.standing?, FileTree.nodeAt?] at hstanding ⊢
    cases hplace : place.reverse with
    | nil =>
        rw [hplace] at hstanding
        exact hstanding
    | cons name names =>
        rw [hplace] at hstanding
        by_cases hname : name = Text.encode "Baz.php"
        · subst hname
          exact hstanding
        · have hentry : stall.root.child? name = none := by
            rw [stall, FileNode.child?, List.lookup_cons, beq_false_of_ne hname]
            rfl
          rw [FileNode.at?, hentry] at hstanding
          cases hstanding
  allows _ _ _ _ := rfl

theorem grows_stall : atStall.GrowsTo atMarket Walk.phpAndXml where
  root_eq := rfl
  kept := stall_keptIn_market
  wellNamed := .directory (by decide) (by decide) (by simp [FileNode.WellNamed.file])
  wellNamed' := wellNamed_market
  walks := SearchChain.walksInTime_walkOnly _ _ _
  walks' := SearchChain.walksInTime_walkOnly _ _ _

theorem expectedLine?_stall : atStall.expectedLine? baz = none := by
  have hread : atStall.files.read (atStall.expectedFile baz) = .error .notFound := by rfl
  rw [expectedLine?, lineWith?, hread]

theorem hits_stall : Walk.hits stall Walk.phpAndXml ⟨"class Baz", ".", .source⟩ ≠ [] := by
  have hvisits : stall.visits "." =
      [⟨[], stall.root⟩, ⟨["Baz.php"], .file (Text.encode "class Baz")⟩] := by
    have hfind : stall.find false "." = .ok ([], stall.root) := by rfl
    rw [FileTree.visits, hfind]
    simp +decide [stall, FileTree.visitsFrom, FileTree.entryVisits, FileTree.inOrder]
  rw [Walk.hits_of_filter Walk.filter_phpAndXml, hvisits]
  decide +kernel

theorem hasHits_stall : atStall.HasHits onBaz := by
  obtain ⟨o, hsearch, hhits⟩ := grows_stall.walks.exists_search baz.marker .source
  have htype : onBaz.category.isType := rfl
  have hplan := plan?_of_type (c := atStall) htype ofName?_onBaz
  refine ⟨_, hplan, .source, List.mem_singleton_self _, o, hsearch, ?_⟩
  rw [hhits]
  exact hits_stall

theorem check_of_grown_stall :
    atStall.GrowsTo atMarket Walk.phpAndXml ∧
      ∃ check check', atStall.check onBaz = .ok check ∧
        atMarket.check onBaz = .ok check' ∧
        check.verdict.status = .found ∧ check.verdict.confidence = .medium ∧
        check'.verdict.status = .found ∧ check'.verdict.confidence = .high := by
  obtain ⟨-, hclaims⟩ := grows_stall.check_of_grown
  obtain ⟨check, check', hcheck, hcheck', hgrown⟩ := hclaims onBaz
  have hends := ends_of_check hcheck
  have hfound := hends.found_iff_exists.2 (.inr hasHits_stall)
  have hmisses : atStall.MissesExpected onBaz :=
    (missesExpected_iff rfl ofName?_onBaz).2 expectedLine?_stall
  have hmedium := (hends.confidence_of_found hfound).2 hmisses
  obtain ⟨hfound', -, -⟩ := hgrown hfound
  have hhigh := check_of_expectedLine? (c := atMarket) rfl ofName?_onBaz expectedLine?_market
  refine ⟨grows_stall, check, check', hcheck, hcheck', hfound, hmedium, hfound', ?_⟩
  rw [← Except.ok.inj (hhigh.symm.trans hcheck')]
  rfl

end Checker
end DocClaims
