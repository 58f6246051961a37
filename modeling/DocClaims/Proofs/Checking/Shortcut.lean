import DocClaims.Proofs.Checking.ExpectedFiles

/-!
# The expected file and the search for a type

A type that is declared in its expected file is found without a search. The walk would find it,
too: it visits the expected file and has for it the same lines. So the file says of each type
whether it is found what a search of the whole tree says, and only what the finding is worth and
the evidence for it differ.
-/

namespace DocClaims

open Outcome

namespace Walk

variable {files : FileTree} {exts : Extensions} {filter : Option FileFilter} {q : Query}
  {texts : List String} {bytes : Text.Bytes}

/-- The names of a hit's file are told by its path if that is of ASCII characters. -/
theorem names_eq_of_hit {spot : Spot} {n : Nat} (hne : texts ≠ [])
    (hplain : ∀ s ∈ texts, Path.IsPlainName s) (hascii : ∀ s ∈ texts, ∀ c ∈ s.toList, c.toNat < 128)
    (hnames : ∀ name ∈ spot.names, Path.IsPlainName name)
    (h : spot.hit = ⟨String.intercalate "/" texts, n⟩) :
    spot.names = texts.map Text.encode ∧ spot.line = n := by
  obtain ⟨hpath, hline⟩ := Hit.mk.inj h
  refine ⟨?_, hline⟩
  have hread : spot.names.map Text.lossy = texts := by
    have hslash : ∀ s ∈ texts, '/' ∉ s.toList :=
      fun s hs => (Path.isPlainName_encode_iff.1 (hplain s hs)).2
    have hslash' : ∀ s ∈ spot.names.map Text.lossy, '/' ∉ s.toList :=
      List.forall_mem_map.2 fun name hname => Path.slash_not_mem_lossy (hnames name hname).2
    have hsome : spot.names.map Text.lossy ≠ [] := by
      intro hnil
      have hsteps := congrArg Path.steps hpath
      rw [hnil, Path.steps_intercalate hslash hne] at hsteps
      have hempty : Path.steps (String.intercalate "/" []) = [""] := by decide
      rw [hempty] at hsteps
      exact (Path.isPlainName_encode_iff.1 (hplain "" (by simp [← hsteps]))).1.1 rfl
    have hsteps := congrArg Path.steps hpath
    rwa [Path.steps_intercalate hslash' hsome, Path.steps_intercalate hslash hne] at hsteps
  have hback : ∀ name ∈ spot.names, (Text.encode ∘ Text.lossy) name = id name := by
    intro name hname
    refine Text.encode_lossy (hascii _ ?_)
    rw [← hread]
    exact List.mem_map_of_mem hname
  rw [← hread, List.map_map, List.map_congr_left hback, List.map_id]

/-- The hits in a file below the root that is reached are its lines with the pattern, if it can be
read. -/
theorem mem_hits_iff_of_holdsFile (hroot : files.root.WellNamed)
    (hfilter : exts.filter q.fileClass = .ok filter)
    (hadmits : FileFilter.admits filter (String.intercalate "/" texts) = true)
    (hfile : files.HoldsFile q.root (texts.map Text.encode) bytes)
    (hreached : files.Reaches q.root (texts.map Text.encode)) (hne : texts ≠ [])
    (hascii : ∀ s ∈ texts, ∀ c ∈ s.toList, c.toNat < 128) (hsample : isBinary bytes = false)
    {n : Nat} :
    ⟨String.intercalate "/" texts, n⟩ ∈ hits files exts q ↔
      ∃ bytes, files.read (Path.below q.root (texts.map Text.encode)) = .ok bytes ∧
        n ∈ matchingLines q.pattern bytes := by
  have hplain := hfile.isPlainName hroot
  rw [List.forall_mem_map] at hplain
  have hread := Path.map_lossy_encode texts
  rw [hits_of_filter hfilter, flatMap_hitsAt hroot, List.mem_map]
  constructor
  · rintro ⟨spot, hspot, hhit⟩
    obtain ⟨⟨_, hheld⟩, -, -, bytes', hread', -, hline⟩ := (mem_spots_iff hroot).1 hspot
    obtain ⟨hnames, rfl⟩ := names_eq_of_hit hne hplain hascii (hheld.isPlainName hroot) hhit
    rw [hnames] at hread'
    exact ⟨bytes', hread', hline⟩
  · rintro ⟨bytes', hread', hline⟩
    obtain rfl : bytes = bytes' := Option.some.inj (hfile.bytes?_eq hroot (by simp) hread')
    refine ⟨⟨texts.map Text.encode, n⟩, (mem_spots_iff hroot).2 ?_, ?_⟩
    · refine ⟨⟨bytes, hfile⟩, hreached, ?_, bytes, hread', hsample, hline⟩
      rw [hread]
      exact hadmits
    · rw [Spot.hit, hread]

/-- The first line with the pattern is the least one. -/
theorem head?_eq_some_iff {lines : List Nat} (h : lines.Pairwise (· < ·)) {n : Nat} :
    lines.head? = some n ↔ n ∈ lines ∧ ∀ m ∈ lines, n ≤ m := by
  cases lines with
  | nil => simp
  | cons first rest =>
      obtain ⟨hfirst, -⟩ := List.pairwise_cons.1 h
      rw [List.head?_cons, Option.some.injEq]
      constructor
      · rintro rfl
        refine ⟨List.mem_cons_self, ?_⟩
        exact List.forall_mem_cons.2 ⟨Nat.le_refl _, fun m hm => Nat.le_of_lt (hfirst m hm)⟩
      · rintro ⟨hn, hleast⟩
        have hle := hleast first List.mem_cons_self
        rcases List.mem_cons.1 hn with rfl | hrest
        · rfl
        · exact absurd (hfirst n hrest) (Nat.not_lt.2 hle)

end Walk

namespace SearchPlan

theorem verdict_singleton {plan : SearchPlan} {claim : Claim} {s : Search}
    (h : s.outcome.hits ≠ []) :
    plan.verdict claim [s] = .found claim plan.presence (s.outcome.hits.take plan.evidence)
      ("Found " ++ toString s.outcome.hits.length ++ " occurrences") := by
  simp [verdict, h]

end SearchPlan

namespace Checker

variable {c : Checker} {exts : Extensions} {p : TypePath} {bytes : Text.Bytes} {claim : Claim}
  {text : String}

/-- The expected file is one that a walk searches as source: names lead to it from the module
root, with no link on the way, and the walk comes to it; no NUL is among its first bytes, and its
extension is one of source. -/
structure Searchable (c : Checker) (exts : Extensions) (p : TypePath) (bytes : Text.Bytes) :
    Prop where
  wellNamed : c.files.root.WellNamed
  held : c.files.HoldsFile c.root.modules (Path.segments p.relative) bytes
  reached : c.files.Reaches c.root.modules (Path.segments p.relative)
  sample : ∀ i < 8192, bytes[i]? ≠ some 0
  arePlain : exts.ArePlain .source
  php : "php" ∈ exts.source

theorem isType_of_mem_claims (h : claim ∈ Rule.qualifiedName.claims text) :
    claim.category.isType := by
  have hrule := Rule.rule_of_accept (Rule.mem_claims_iff.1 h).2
  obtain ⟨category, value⟩ := claim
  cases category with
  | classes | interfaces => rfl
  | _ => cases hrule

/-- The lines of the expected file that have the marker; none if it cannot be read. -/
def markedLines (c : Checker) (p : TypePath) : List Nat :=
  match c.files.read (c.expectedFile p) with
  | .ok bytes => Walk.matchingLines p.marker bytes
  | .error _ => []

theorem mem_markedLines {n : Nat} :
    n ∈ c.markedLines p ↔
      ∃ bytes, c.files.read (c.expectedFile p) = .ok bytes ∧
        n ∈ Walk.matchingLines p.marker bytes := by
  rw [markedLines]
  cases c.files.read (c.expectedFile p) <;> simp

theorem expectedLine?_eq_some_iff_least {n : Nat} :
    c.expectedLine? p = some n ↔ n ∈ c.markedLines p ∧ ∀ m ∈ c.markedLines p, n ≤ m := by
  have hhead : c.expectedLine? p = (c.markedLines p).head? := by
    rw [expectedLine?, lineWith?, markedLines]
    cases c.files.read (c.expectedFile p) <;> rfl
  have hordered : (c.markedLines p).Pairwise (· < ·) := by
    rw [markedLines]
    split
    · exact Walk.pairwise_matchingLines _ _
    · exact .nil
  rw [hhead, Walk.head?_eq_some_iff hordered]

theorem isSome_expectedLine?_iff_mem :
    (c.expectedLine? p).isSome ↔ ∃ n, n ∈ c.markedLines p := by
  rw [expectedLine?, lineWith?, markedLines]
  cases c.files.read (c.expectedFile p) with
  | error e => simp
  | ok bytes =>
      dsimp only
      rw [List.isSome_head?]
      constructor
      · exact List.exists_mem_of_ne_nil _
      · rintro ⟨n, hn⟩
        exact List.ne_nil_of_mem hn

/-- The hits of the walk in the expected file are its lines with the marker. -/
theorem Searchable.mem_hits_iff (h : c.Searchable exts p bytes)
    (hclaim : claim ∈ Rule.qualifiedName.claims text)
    (hname : TypePath.ofName? claim.value = some p) {n : Nat} :
    ⟨p.relative, n⟩ ∈ Walk.hits c.files exts ⟨p.marker, c.root.modules, .source⟩ ↔
      n ∈ c.markedLines p := by
  have hsegments := Path.segments_encode p.relative
  have hplain := h.held.isPlainName h.wellNamed
  have hheld := h.held
  have hreached := h.reached
  have hne : Path.steps p.relative ≠ [] := by
    obtain ⟨_, _, hsteps, -⟩ := Path.exists_steps_eq_cons p.relative
    rw [hsteps]
    exact List.cons_ne_nil _ _
  obtain ⟨filter, hfilter, hadmits⟩ := h.arePlain.exists_filter
  obtain ⟨last, hlast⟩ := TypePath.exists_getLast?_segments hname
  have hcover : exts.Cover .source (Path.segments p.relative) := by
    refine .inr ⟨"php", h.php, _, hlast, ?_⟩
    rw [Text.lossy_encode, String.toList_append]
    exact List.suffix_append _ _
  have hpath : Path.below c.root.modules (Path.segments p.relative) = c.expectedFile p := by
    rw [Path.below_eq_join hplain (Path.segments_ne_nil _), Path.intercalate_segments]
    rfl
  have hadmitted := (hadmits _ hplain).2 hcover
  rw [hsegments] at hheld hreached hadmitted hpath
  rw [Path.map_lossy_encode] at hadmitted
  have hmem := Walk.mem_hits_iff_of_holdsFile (n := n)
    (q := ⟨p.marker, c.root.modules, .source⟩) h.wellNamed hfilter hadmitted hheld hreached hne
    (TypePath.isAscii_of_mem_claims hclaim hname) (Walk.isBinary_eq_false_iff.2 h.sample)
  rwa [Path.intercalate_steps, hpath, ← mem_markedLines] at hmem

/-- A search for a type by a walk alone ends by the hits of the walk. -/
theorem exists_carryOut_ofType (hchain : c.chain.WalksInTime c.files exts c.root.modules)
    (claim : Claim) (marker notes : String) :
    ∃ check, (SearchPlan.ofType marker notes).carryOut c.chain c.root.modules claim = .ok check ∧
      (check.verdict.status = .found ↔
        Walk.hits c.files exts ⟨marker, c.root.modules, .source⟩ ≠ []) ∧
      (Walk.hits c.files exts ⟨marker, c.root.modules, .source⟩ ≠ [] →
        check.verdict.confidence = .medium ∧
        check.verdict.evidence =
          (Walk.hits c.files exts ⟨marker, c.root.modules, .source⟩).take 3) := by
  obtain ⟨searches, hsearches⟩ := SearchPlan.exists_searchesIn_of_search
    fun k (_ : k ∈ (SearchPlan.ofType marker notes).classes) =>
      (hchain.exists_search marker k).imp fun o ho => ho.1
  refine ⟨_, bind_eq_ok_iff.2 ⟨searches, hsearches, rfl⟩, ?_⟩
  obtain ⟨s, hquery, hsearch, hcase⟩ := SearchPlan.searchesIn_cons_eq_ok_iff.1 hsearches
  rw [hquery] at hsearch
  have hhits := hchain.hits_eq hsearch
  have hsearches : searches = [s] := by
    rcases hcase with ⟨-, hone⟩ | ⟨-, later, hlater, hcons⟩
    · exact hone
    · rw [hcons, SearchPlan.eq_nil_of_searchesIn_nil hlater]
  rw [← hhits, hsearches]
  constructor
  · rw [SearchPlan.status_verdict_iff]
    simp
  · intro hne
    rw [SearchPlan.verdict_singleton hne]
    exact ⟨rfl, rfl⟩

/-- For a type that a text names, and whose expected file a walk can search, the expected line is
the first hit of the walk in that file. So the check of the claim finds the type if and only if
the search alone does, which only gives it less confidence and other evidence. -/
theorem expectedLine?_agrees_with_walk (hclaim : claim ∈ Rule.qualifiedName.claims text)
    (hname : TypePath.ofName? claim.value = some p) (h : c.Searchable exts p bytes) :
    ∃ hits : List Hit,
      (∀ clock limit, Walk.InTime c.files clock limit c.root.modules →
        Walk.search c.files clock exts limit ⟨p.marker, c.root.modules, .source⟩ =
          .ok (.ok hits)) ∧
      (∀ n, c.expectedLine? p = some n ↔
        ⟨p.relative, n⟩ ∈ hits ∧ ∀ m, ⟨p.relative, m⟩ ∈ hits → n ≤ m) ∧
      ((c.expectedLine? p).isSome ↔ ∃ n, ⟨p.relative, n⟩ ∈ hits) ∧
      (c.chain.WalksInTime c.files exts c.root.modules →
        ∃ check short, c.check claim = .ok check ∧
          (SearchPlan.ofType p.marker (c.absenceNotes p)).carryOut c.chain c.root.modules claim =
            .ok short ∧
          (check.verdict.status = .found ↔ short.verdict.status = .found) ∧
          (c.expectedLine? p = none → check = short) ∧
          ∀ n, c.expectedLine? p = some n →
            check.verdict.confidence = .high ∧ check.verdict.evidence = [⟨p.relative, n⟩] ∧
            short.verdict.confidence = .medium ∧ short.verdict.evidence = hits.take 3) := by
  have htype := isType_of_mem_claims hclaim
  have hhits {n : Nat} := h.mem_hits_iff hclaim hname (n := n)
  refine ⟨Walk.hits c.files exts ⟨p.marker, c.root.modules, .source⟩, ?_, ?_, ?_, ?_⟩
  · intro clock limit htime
    obtain ⟨filter, hfilter, -⟩ := h.arePlain.exists_filter
    rw [Walk.hits_of_filter (q := ⟨p.marker, c.root.modules, .source⟩) hfilter]
    exact Walk.search_of_inTime (q := ⟨p.marker, c.root.modules, .source⟩) hfilter htime
  · intro n
    rw [expectedLine?_eq_some_iff_least, hhits]
    simp only [hhits]
  · rw [isSome_expectedLine?_iff_mem]
    simp only [hhits]
  · intro hchain
    obtain ⟨short, hshort, hfound, hmedium⟩ :=
      exists_carryOut_ofType hchain claim p.marker (c.absenceNotes p)
    cases hline : c.expectedLine? p with
    | none =>
        have hcheck := check_of_expectedLine?_eq_none htype hname hline
        refine ⟨short, short, hcheck.trans hshort, hshort, Iff.rfl, fun _ => rfl, ?_⟩
        intro n hn
        cases hn
    | some line =>
        have hne : Walk.hits c.files exts ⟨p.marker, c.root.modules, .source⟩ ≠ [] := by
          apply List.ne_nil_of_mem (a := ⟨p.relative, line⟩)
          exact hhits.2 (expectedLine?_eq_some_iff_least.1 hline).1
        refine ⟨_, short, check_of_expectedLine? htype hname hline, hshort, ?_, ?_, ?_⟩
        · exact iff_of_true rfl (hfound.2 hne)
        · intro hnone
          cases hnone
        · intro n hn
          obtain rfl := Option.some.inj hn
          exact ⟨rfl, rfl, hmedium hne⟩

/-! ### A file at the root -/

theorem visits_market :
    market.visits "." =
      [⟨[], market.root⟩, ⟨["Baz.php"], .file (Text.encode "class Baz")⟩,
        ⟨["module-foo"], .directory
          [("Bar", .directory [("Baz.php", .file (Text.encode "<?php\nclass Baz"))])]⟩,
        ⟨["module-foo", "Bar"], .directory
          [("Baz.php", .file (Text.encode "<?php\nclass Baz"))]⟩,
        ⟨["module-foo", "Bar", "Baz.php"], .file (Text.encode "<?php\nclass Baz")⟩] := by
  have hfind : market.find false "." = .ok ([], market.root) := by rfl
  rw [FileTree.visits, hfind]
  simp +decide [market, FileTree.visitsFrom, FileTree.entryVisits, FileTree.inOrder,
    List.mergeSort]

theorem search_market :
    Walk.search market (fun _ => 0) Walk.phpAndXml 1 ⟨"class Baz", ".", .source⟩ =
      .ok (.ok [⟨"Baz.php", 1⟩, ⟨"module-foo/Bar/Baz.php", 2⟩]) := by
  rw [Walk.search_of_inTime Walk.filter_phpAndXml (Walk.inTime_zero _ _), visits_market]
  decide +kernel

theorem arePlain_phpAndXml : Walk.phpAndXml.ArePlain .source := by
  intro e he
  obtain rfl : e = "php" := List.mem_singleton.1 he
  have hplain : "php".toList.all (Glob.isOperator · == false) := by decide
  exact ⟨by decide, by simpa using hplain⟩

theorem held_market : market.HoldsFile "." (Path.segments baz.relative)
    (Text.encode "<?php\nclass Baz") := by
  have hroot : market.node true "." = .ok market.root := by rfl
  have hfile : market.root.at? (Path.segments baz.relative) =
      some (.file (Text.encode "<?php\nclass Baz")) := by rfl
  exact .below hroot (by decide) hfile

theorem reached_market : market.Reaches "." (Path.segments baz.relative) := by
  have hroot : market.resolve true "." = .ok [] := by rfl
  have hsegments : Path.segments baz.relative =
      [Text.encode "module-foo", Text.encode "Bar", Text.encode "Baz.php"] := by decide
  have hsees (place : List Text.Bytes) : market.sees place = true := rfl
  intro place hplace
  obtain rfl := Except.ok.inj (hroot.symm.trans hplace)
  rw [hsegments]
  refine ⟨⟨?_, hsees _⟩, ⟨?_, hsees _⟩, ⟨?_, hsees _⟩, trivial⟩
  · decide
  · decide
  · decide
theorem searchable_market :
    atMarket.Searchable Walk.phpAndXml baz (Text.encode "<?php\nclass Baz") where
  wellNamed := wellNamed_market
  held := held_market
  reached := reached_market
  sample := Walk.isBinary_eq_false_iff.1 (by decide +kernel)
  arePlain := arePlain_phpAndXml
  php := by decide

theorem expectedLine?_agrees_with_walk_market :
    ∃ check short,
      onBaz ∈ Rule.qualifiedName.claims "a Magento\\Foo\\Bar\\Baz." ∧
      TypePath.ofName? onBaz.value = some baz ∧
      atMarket.Searchable Walk.phpAndXml baz (Text.encode "<?php\nclass Baz") ∧
      atMarket.chain.WalksInTime market Walk.phpAndXml "." ∧
      atMarket.check onBaz = .ok check ∧
      (SearchPlan.ofType baz.marker (atMarket.absenceNotes baz)).carryOut atMarket.chain "."
        onBaz = .ok short ∧
      check.verdict.confidence = .high ∧
      check.verdict.evidence = [⟨"module-foo/Bar/Baz.php", 2⟩] ∧
      short.verdict.confidence = .medium ∧
      short.verdict.evidence = [⟨"Baz.php", 1⟩, ⟨"module-foo/Bar/Baz.php", 2⟩] := by
  have hclaim : onBaz ∈ Rule.qualifiedName.claims "a Magento\\Foo\\Bar\\Baz." := by
    decide +kernel
  have hchain : atMarket.chain.WalksInTime market Walk.phpAndXml "." :=
    SearchChain.walksInTime_walkOnly _ _ _
  obtain ⟨hits, hwalk, -, -, hchecks⟩ :=
    expectedLine?_agrees_with_walk hclaim ofName?_onBaz searchable_market
  obtain ⟨check, short, hcheck, hshort, -, -, hfound⟩ := hchecks hchain
  obtain ⟨hhigh, hevidence, hmedium, htaken⟩ := hfound 2 expectedLine?_market
  have hsearch := hwalk (fun _ => 0) 1 (Walk.inTime_zero _ _)
  have hhits := Except.ok.inj (Except.ok.inj (hsearch.symm.trans search_market))
  rw [hhits] at htaken
  exact ⟨check, short, hclaim, ofName?_onBaz, searchable_market, hchain, hcheck, hshort, hhigh,
    hevidence, hmedium, htaken⟩

end Checker
end DocClaims
