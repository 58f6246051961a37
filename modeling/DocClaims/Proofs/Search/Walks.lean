import DocClaims.Proofs.Config.Extensions
import DocClaims.Proofs.Files.Ways
import DocClaims.Proofs.Search.Completion
import DocClaims.Proofs.Text.Lines

/-!
# Walks in time

A walk that ends in time finds the lines with the pattern in all text files of the class that
names lead to, and nothing else, as far as it may list directories and read files. The lines are
found in the order of these names, by bytes, and in a file from top to bottom. A hit tells of the
names only what can be read of them, so that one may come twice if names are no texts. A walk
whose time is over answers with no hits at all.
-/

namespace DocClaims

open Text (Bytes)

/-- The class has no extensions, or one that ends what is read of the last name behind a dot. -/
def Extensions.Cover (exts : Extensions) (cls : FileClass) (names : List Bytes) : Prop :=
  exts.ofClass cls = [] ∨
    ∃ e ∈ exts.ofClass cls, ∃ name, names.getLast? = some name ∧
      '.' :: e.toList <:+ (Text.lossy name).toList

theorem Extensions.ArePlain.exists_filter {exts : Extensions} {cls : FileClass}
    (h : exts.ArePlain cls) :
    ∃ filter, exts.filter cls = .ok filter ∧
      ∀ names : List Bytes, (∀ name ∈ names, Path.IsPlainName name) →
        (FileFilter.admits filter (String.intercalate "/" (names.map Text.lossy)) = true ↔
          exts.Cover cls names) := by
  by_cases hsome : exts.ofClass cls = []
  · exact ⟨none, filter_eq_ok_none hsome, fun _ _ => iff_of_true rfl (.inl hsome)⟩
  · obtain ⟨f, hfilter, haccepts⟩ := h.takenLiterally hsome
    refine ⟨some f, hfilter, ?_⟩
    intro names hnames
    have hadmits (path : String) : FileFilter.admits (some f) path = f.accepts path := rfl
    have hslash : ∀ text ∈ names.map Text.lossy, '/' ∉ text.toList :=
      List.forall_mem_map.2 fun name hname => Path.slash_not_mem_lossy (hnames name hname).2
    rw [hadmits, haccepts, Path.leaf_intercalate hslash, Cover, or_iff_right hsome]
    apply exists_congr
    intro e
    apply and_congr_right
    intro _
    rw [List.getLast?_map]
    cases names.getLast? with
    | none => simp
    | some name => simp

namespace Hit

/-- The order of the names of the file, by their bytes, and of the lines in a file. -/
def Before (h k : Hit) : Prop :=
  Path.segments h.file < Path.segments k.file ∨ h.file = k.file ∧ h.line < k.line

theorem Before.ne {h k : Hit} (hbefore : h.Before k) : h ≠ k := by
  rintro rfl
  rcases hbefore with hlt | ⟨-, hlt⟩
  · exact List.lt_irrefl _ hlt
  · exact Nat.lt_irrefl _ hlt

end Hit

/-- A line of a file, by the names that lead to the file from the root of a search. -/
structure Spot where
  names : List Bytes
  line : Nat

namespace Spot

variable {s t : Spot}

/-- The hit of the line, which tells what can be read of the names. -/
def hit (s : Spot) : Hit := ⟨String.intercalate "/" (s.names.map Text.lossy), s.line⟩

/-- The names are texts. -/
def IsText (s : Spot) : Prop := ∀ name ∈ s.names, ∃ text : String, name = text

/-- The order of the names, by their bytes, and of the lines in a file. -/
def Before (s t : Spot) : Prop := s.names < t.names ∨ s.names = t.names ∧ s.line < t.line

theorem Before.asymm (hbefore : s.Before t) : ¬t.Before s := by
  intro hafter
  rcases hbefore with hlt | ⟨hnames, hlt⟩
  · rcases hafter with hlt' | ⟨hnames, -⟩
    · exact List.lt_irrefl _ (List.lt_trans hlt hlt')
    · rw [hnames] at hlt
      exact List.lt_irrefl _ hlt
  · rcases hafter with hlt' | ⟨-, hlt'⟩
    · rw [hnames] at hlt'
      exact List.lt_irrefl _ hlt'
    · exact Nat.lt_asymm hlt hlt'

theorem Before.ne (hbefore : s.Before t) : s ≠ t := by
  rintro rfl
  exact hbefore.asymm hbefore

/-- The path of the hit has the names as its segments. -/
theorem segments_hit (htext : s.IsText) (hplain : ∀ name ∈ s.names, Path.IsPlainName name) :
    Path.segments s.hit.file = if s.names = [] then [[]] else s.names := by
  have hread : (s.names.map Text.lossy).map Text.encode = s.names := by
    have hback : ∀ name ∈ s.names, (Text.encode ∘ Text.lossy) name = id name := by
      intro name hname
      obtain ⟨text, htext⟩ := htext name hname
      rw [Function.comp_apply, htext, Text.lossy_encode, id_eq]
    rw [List.map_map, List.map_congr_left hback, List.map_id]
  rw [hit, Path.encode_intercalate, hread]
  split
  · next hnil => rw [hnil]; rfl
  · next hne => exact Path.segments_names hplain hne

/-- Where the names are texts, the hits are in the order of the lines. -/
theorem Before.hit (hbefore : s.Before t) (hs : s.IsText) (ht : t.IsText)
    (hplain : ∀ name ∈ s.names, Path.IsPlainName name)
    (hplain' : ∀ name ∈ t.names, Path.IsPlainName name) : s.hit.Before t.hit := by
  rcases hbefore with hlt | ⟨hnames, hlt⟩
  · left
    have hne : t.names ≠ [] := by
      intro hnil
      rw [hnil] at hlt
      exact List.not_lt_nil _ hlt
    rw [segments_hit hs hplain, segments_hit ht hplain', if_neg hne]
    split
    · obtain ⟨name, rest, hcons⟩ := List.exists_cons_of_ne_nil hne
      rw [hcons] at hplain' ⊢
      obtain ⟨b, bs, rfl⟩ := List.exists_cons_of_ne_nil (hplain' name List.mem_cons_self).1.1
      exact List.cons_lt_cons_iff.2 (.inl (List.nil_lt_cons _ _))
    · exact hlt
  · right
    exact ⟨by rw [Spot.hit, Spot.hit, hnames], hlt⟩

end Spot

namespace Walk

variable {files : FileTree} {clock : Clock} {exts : Extensions} {limit : Nat} {q : Query}
  {pattern : String} {filter : Option FileFilter} {bytes : Bytes} {names : List Bytes}
  {hit : Hit} {spot : Spot}

/-! ### The lines of a file -/

theorem isBinary_eq_false_iff : isBinary bytes = false ↔ ∀ i < 8192, bytes[i]? ≠ some 0 := by
  rw [isBinary, sampleSize, ← Bool.not_eq_true, List.contains_iff_mem, List.mem_iff_getElem?,
    not_exists]
  apply forall_congr'
  intro i
  by_cases hi : i < 8192
  · simp [hi]
  · simp [hi]

theorem mem_matchingLines {n : Nat} :
    n ∈ matchingLines pattern bytes ↔
      ∃ m line, n = m + 1 ∧ (Text.lines (Text.decodeLossy bytes))[m]? = some line ∧
        pattern.toList <:+: line := by
  simp only [matchingLines, List.mem_filterMap, Prod.exists, Option.ite_none_right_eq_some,
    Option.some.injEq, Text.occursIn_iff, List.mk_mem_zipIdx_iff_le_and_getElem?_sub]
  constructor
  · rintro ⟨line, i, ⟨hle, hline⟩, hoccurs, rfl⟩
    exact ⟨i - 1, line, by omega, hline, hoccurs⟩
  · rintro ⟨m, line, rfl, hline, hoccurs⟩
    exact ⟨line, m + 1, ⟨by omega, hline⟩, hoccurs, rfl⟩

theorem pairwise_matchingLines (pattern : String) (bytes : Bytes) :
    (matchingLines pattern bytes).Pairwise (· < ·) := by
  have hnumbers : ((Text.lines (Text.decodeLossy bytes)).zipIdx 1).Pairwise (·.2 < ·.2) := by
    apply List.pairwise_map.1
    rw [List.zipIdx_map_snd]
    exact List.pairwise_lt_range' ..
  rw [matchingLines, List.pairwise_filterMap]
  apply hnumbers.imp
  rintro ⟨line, n⟩ ⟨other, m⟩ hlt b hb c hc
  simp only [Option.ite_none_right_eq_some, Option.some.injEq] at hb hc
  rwa [← hb.2, ← hc.2]

/-! ### What is found in a file -/

/-- The lines that are found at a visit. -/
def spotsAt (files : FileTree) (q : Query) (filter : Option FileFilter) (v : Visit) : List Spot :=
  (hitsAt files q filter v).map fun hit => ⟨v.names, hit.line⟩

/-- All lines that a walk finds, in its order. -/
def spots (files : FileTree) (q : Query) (filter : Option FileFilter) : List Spot :=
  (files.visits q.root).flatMap (spotsAt files q filter)

/-- The lines that are found in a file, which is read by its path. -/
theorem hitsAt_file (files : FileTree) (q : Query) (filter : Option FileFilter)
    (names : List Bytes) (inner : Bytes) :
    ∃ lines : List Nat, hitsAt files q filter ⟨names, .file inner⟩ =
        lines.map (Hit.mk (Path.relativize q.root (Path.below q.root names))) ∧
      lines.Pairwise (· < ·) ∧
      ∀ n, n ∈ lines ↔
        FileFilter.admits filter (Path.relativize q.root (Path.below q.root names)) = true ∧
          ∃ bytes, files.read (Path.below q.root names) = .ok bytes ∧ isBinary bytes = false ∧
            n ∈ matchingLines q.pattern bytes := by
  generalize hrelative : Path.relativize q.root (Path.below q.root names) = relative
  cases hadmits : FileFilter.admits filter relative with
  | false => exact ⟨[], by simp [hitsAt, hrelative, hadmits], .nil, by simp⟩
  | true =>
      cases hread : files.read (Path.below q.root names) with
      | error e => exact ⟨[], by simp [hitsAt, hrelative, hadmits, hread], .nil, by simp⟩
      | ok bytes =>
          cases hbinary : isBinary bytes with
          | true =>
              exact ⟨[], by simp [hitsAt, hrelative, hadmits, hread, hbinary], .nil,
                by simp [hbinary]⟩
          | false =>
              exact ⟨matchingLines q.pattern bytes,
                by simp [hitsAt, hrelative, hadmits, hread, hbinary],
                pairwise_matchingLines q.pattern bytes, by simp [hbinary]⟩

theorem hitsAt_of_not_file {v : Visit} (h : ∀ inner, v.node ≠ .file inner) :
    hitsAt files q filter v = [] := by
  obtain ⟨names, node⟩ := v
  cases node with
  | file inner => exact absurd rfl (h inner)
  | directory | link | special => rfl

/-- A line is found if the file is one that is reached, admitted and read as a text. -/
theorem mem_spots_iff (hroot : files.root.WellNamed) :
    spot ∈ spots files q filter ↔
      (∃ inner, files.HoldsFile q.root spot.names inner) ∧ files.Reaches q.root spot.names ∧
        FileFilter.admits filter (String.intercalate "/" (spot.names.map Text.lossy)) = true ∧
          ∃ bytes, files.read (Path.below q.root spot.names) = .ok bytes ∧
            isBinary bytes = false ∧ spot.line ∈ matchingLines q.pattern bytes := by
  obtain ⟨names, n⟩ := spot
  have hfile (inner : Bytes) : (⟨names, n⟩ : Spot) ∈ spotsAt files q filter ⟨names, .file inner⟩ ↔
      FileFilter.admits filter (Path.relativize q.root (Path.below q.root names)) = true ∧
        ∃ bytes, files.read (Path.below q.root names) = .ok bytes ∧ isBinary bytes = false ∧
          n ∈ matchingLines q.pattern bytes := by
    obtain ⟨lines, hhits, -, hlines⟩ := hitsAt_file files q filter names inner
    rw [spotsAt, hhits, ← hlines, List.map_map]
    simp [Function.comp_def]
  rw [spots, List.mem_flatMap]
  constructor
  · rintro ⟨⟨others, node⟩, hv, hspot⟩
    obtain ⟨hit, hhit, heq⟩ := List.mem_map.1 hspot
    obtain ⟨rfl, -⟩ := Spot.mk.inj heq
    obtain ⟨inner, rfl⟩ : ∃ inner, node = .file inner := by
      by_contra hnot
      rw [hitsAt_of_not_file fun inner hnode => hnot ⟨inner, hnode⟩] at hhit
      cases hhit
    obtain ⟨hheld, hreached⟩ := (FileTree.mem_visits_iff hroot).1 hv
    rw [← Path.relativize_below (hheld.isPlainName hroot) q.root]
    exact ⟨⟨inner, hheld⟩, hreached, (hfile inner).1 hspot⟩
  · rintro ⟨⟨inner, hheld⟩, hreached, hfound⟩
    rw [← Path.relativize_below (hheld.isPlainName hroot) q.root] at hfound
    exact ⟨_, (FileTree.mem_visits_iff hroot).2 ⟨hheld, hreached⟩, (hfile inner).2 hfound⟩

theorem pairwise_spots (hroot : files.root.WellNamed) (q : Query) (filter : Option FileFilter) :
    (spots files q filter).Pairwise Spot.Before := by
  rw [spots, List.pairwise_flatMap]
  constructor
  · rintro ⟨names, node⟩ -
    by_cases hfile : ∃ inner, node = .file inner
    · obtain ⟨inner, rfl⟩ := hfile
      obtain ⟨lines, hhits, hlines, -⟩ := hitsAt_file files q filter names inner
      rw [spotsAt, hhits, List.map_map, List.pairwise_map]
      exact hlines.imp fun hlt => .inr ⟨rfl, hlt⟩
    · rw [spotsAt, hitsAt_of_not_file fun inner hnode => hfile ⟨inner, hnode⟩]
      exact .nil
  · apply (FileTree.pairwise_visits hroot q.root).imp
    intro v w hbefore s hs t ht
    obtain ⟨_, -, rfl⟩ := List.mem_map.1 hs
    obtain ⟨_, -, rfl⟩ := List.mem_map.1 ht
    exact .inl hbefore

/-- The hits of a walk are those of the lines that it finds. -/
theorem flatMap_hitsAt (hroot : files.root.WellNamed) (q : Query) (filter : Option FileFilter) :
    (files.visits q.root).flatMap (hitsAt files q filter) =
      (spots files q filter).map Spot.hit := by
  rw [spots, List.map_flatMap]
  apply List.flatMap_congr
  rintro ⟨names, node⟩ hv
  by_cases hfile : ∃ inner, node = .file inner
  · obtain ⟨inner, rfl⟩ := hfile
    obtain ⟨lines, hhits, -, -⟩ := hitsAt_file files q filter names inner
    have hplain := ((FileTree.mem_visits_iff hroot).1 hv).1.isPlainName hroot
    rw [spotsAt, hhits, List.map_map, List.map_map, Path.relativize_below hplain]
    rfl
  · rw [spotsAt, hitsAt_of_not_file fun inner hnode => hfile ⟨inner, hnode⟩]
    rfl

/-! ### The whole walk -/

/-- The lines that a search is to find: those with the pattern, counted from one, in the files of
the class that are reached, can be read and have no NUL among their first bytes. -/
inductive Sought (files : FileTree) (exts : Extensions) (q : Query) : Spot → Prop
  | line {names : List Bytes} {bytes : Bytes} {lines : List (List Char)} {line : List Char}
      {n : Nat} :
      files.HoldsFile q.root names bytes → files.Reaches q.root names →
      files.read (Path.below q.root names) = .ok bytes → exts.Cover q.fileClass names →
      (∀ i < 8192, bytes[i]? ≠ some 0) → Text.HasLines (Text.decodeLossy bytes) lines →
      lines[n]? = some line → q.pattern.toList <:+: line →
      Sought files exts q ⟨names, n + 1⟩

theorem mem_spots_iff_sought (hroot : files.root.WellNamed)
    (hadmits : ∀ names : List Bytes, (∀ name ∈ names, Path.IsPlainName name) →
      (FileFilter.admits filter (String.intercalate "/" (names.map Text.lossy)) = true ↔
        exts.Cover q.fileClass names)) :
    spot ∈ spots files q filter ↔ Sought files exts q spot := by
  rw [mem_spots_iff hroot]
  constructor
  · rintro ⟨⟨inner, hheld⟩, hreached, hcovered, bytes, hread, hsample, hline⟩
    obtain ⟨names, n⟩ := spot
    obtain ⟨m, line, rfl, hline, hoccurs⟩ := mem_matchingLines.1 hline
    obtain rfl : inner = bytes := Option.some.inj (hheld.bytes?_eq hroot (by simp) hread)
    exact .line hheld hreached hread ((hadmits _ (hheld.isPlainName hroot)).1 hcovered)
      (isBinary_eq_false_iff.1 hsample) (Text.hasLines_lines _) hline hoccurs
  · rintro ⟨hheld, hreached, hread, hcover, hsample, hlines, hline, hoccurs⟩
    rw [← Text.hasLines_iff.1 hlines] at hline
    exact ⟨⟨_, hheld⟩, hreached, (hadmits _ (hheld.isPlainName hroot)).2 hcover, _, hread,
      isBinary_eq_false_iff.2 hsample, mem_matchingLines.2 ⟨_, _, rfl, hline, hoccurs⟩⟩

theorem search_of_inTime (hfilter : exts.filter q.fileClass = .ok filter)
    (htime : InTime files clock limit q.root) :
    search files clock exts limit q =
      .ok (.ok ((files.visits q.root).flatMap (hitsAt files q filter))) := by
  obtain ⟨hroom, hvisits⟩ := htime
  have hlate : ¬((List.range (files.visits q.root).length).any fun i =>
      decide (clock 0 + limit ≤ clock (i + 1))) = true := by
    simpa using hvisits
  rw [search, if_neg (Nat.not_le.2 hroom), hfilter]
  dsimp only
  rw [if_neg hlate]

theorem search_of_late (hfilter : exts.filter q.fileClass = .ok filter)
    (hroom : clock 0 + limit < clockEnd)
    (hlate : ∃ i < (files.visits q.root).length, clock 0 + limit ≤ clock (i + 1)) :
    search files clock exts limit q = .ok (.error (.overdue name limit)) := by
  have hlate : ((List.range (files.visits q.root).length).any fun i =>
      decide (clock 0 + limit ≤ clock (i + 1))) = true := by
    simpa using hlate
  rw [search, if_neg (Nat.not_le.2 hroom), hfilter]
  dsimp only
  rw [if_pos hlate]

/-- In time, a search finds the lines that are sought and no others, in their order, and has the
hits of these; none comes twice if the names are texts. When its time is over at a visit, it has
none. -/
theorem search_of_arePlain (hroot : files.root.WellNamed) (hexts : exts.ArePlain q.fileClass) :
    (InTime files clock limit q.root →
      ∃ found : List Spot,
        search files clock exts limit q = .ok (.ok (found.map Spot.hit)) ∧
        (∀ spot, spot ∈ found ↔ Sought files exts q spot) ∧ found.Pairwise Spot.Before ∧
        ((∀ spot ∈ found, spot.IsText) →
          (found.map Spot.hit).Pairwise Hit.Before ∧ (found.map Spot.hit).Nodup)) ∧
    (clock 0 + limit < clockEnd →
      (∃ i < (files.visits q.root).length, clock 0 + limit ≤ clock (i + 1)) →
      search files clock exts limit q = .ok (.error (.overdue name limit))) := by
  obtain ⟨filter, hfilter, hadmits⟩ := hexts.exists_filter
  constructor
  · intro htime
    have hordered := pairwise_spots hroot q filter
    refine ⟨spots files q filter, ?_, fun spot => mem_spots_iff_sought hroot hadmits, hordered, ?_⟩
    · rw [search_of_inTime hfilter htime, flatMap_hitsAt hroot]
    · intro htext
      have hhits : ((spots files q filter).map Spot.hit).Pairwise Hit.Before := by
        rw [List.pairwise_map]
        apply hordered.imp_of_mem
        intro s t hs ht hbefore
        obtain ⟨⟨_, hheld⟩, -⟩ := (mem_spots_iff hroot).1 hs
        obtain ⟨⟨_, hheld'⟩, -⟩ := (mem_spots_iff hroot).1 ht
        exact hbefore.hit (htext s hs) (htext t ht) (hheld.isPlainName hroot)
          (hheld'.isPlainName hroot)
      exact ⟨hhits, hhits.imp Hit.Before.ne⟩
  · exact search_of_late hfilter

/-! ### A shop -/

theorem inTime_zero (files : FileTree) (root : Bytes) : InTime files (fun _ => 0) 1 root :=
  ⟨by decide, fun _ _ => Nat.one_pos⟩

/-- A search for these texts meets a directory, a file that looks binary and a link. -/
def shop : FileTree :=
  { root := .directory
      [("shop.php", .file (Text.encode "x\r\n\r\nx")), ("notes.txt", .file (Text.encode "x")),
        ("shop", .directory
          [("logo.php", .file [120, 0]), ("cart.php", .file (Text.encode "a x\n"))]),
        ("cart.php", .link "shop/cart.php")]
    here := [] }

theorem wellNamed_shop : shop.root.WellNamed := by
  refine .directory (by decide) (by decide) ?_
  have hshop : (FileNode.directory
      [("logo.php", .file [120, 0]), ("cart.php", .file (Text.encode "a x\n"))]).WellNamed :=
    .directory (by decide) (by decide) (by simp [FileNode.WellNamed.file])
  simp [FileNode.WellNamed.file, FileNode.WellNamed.link, hshop]

theorem visits_shop :
    shop.visits "." =
      [⟨[], shop.root⟩, ⟨["cart.php"], .link "shop/cart.php"⟩,
        ⟨["notes.txt"], .file (Text.encode "x")⟩,
        ⟨["shop"], .directory
          [("logo.php", .file [120, 0]), ("cart.php", .file (Text.encode "a x\n"))]⟩,
        ⟨["shop", "cart.php"], .file (Text.encode "a x\n")⟩,
        ⟨["shop", "logo.php"], .file [120, 0]⟩,
        ⟨["shop.php"], .file (Text.encode "x\r\n\r\nx")⟩] := by
  have hfind : shop.find false "." = .ok ([], shop.root) := by rfl
  rw [FileTree.visits, hfind]
  simp +decide [shop, FileTree.visitsFrom, FileTree.entryVisits, FileTree.inOrder, List.mergeSort]

def phpAndXml : Extensions := ⟨["php"], ["xml"]⟩

def linesWithX : Query := ⟨"x", ".", .source⟩

theorem filter_phpAndXml :
    phpAndXml.filter .source =
      .ok (some ⟨[.anyBytes :: .byte 46 :: "php".toList.flatMap Glob.unit]⟩) := by
  have hunits : "php".toList.all Glob.isUnit := by decide +kernel
  have hread := Glob.read_extension_of_units (List.all_eq_true.1 hunits)
  apply Extensions.filter_eq_ok_some_iff.2
  exact ⟨Outcome.mapM_cons_eq_ok_iff.2 ⟨_, [], hread, rfl, rfl⟩, List.cons_ne_nil _ _⟩

theorem search_shop :
    shop.root.WellNamed ∧ phpAndXml.ArePlain .source ∧
      InTime shop (fun _ => 0) 1 "." ∧
      (∀ hit, hit ∈ [⟨"shop/cart.php", 1⟩, ⟨"shop.php", 1⟩, ⟨"shop.php", 3⟩] ↔
        ∃ spot, Sought shop phpAndXml linesWithX spot ∧ spot.hit = hit) ∧
      search shop id phpAndXml 1 linesWithX = .ok (.error (.overdue name 1)) := by
  have hexts : phpAndXml.ArePlain linesWithX.fileClass := by
    intro e he
    obtain rfl : e = "php" := List.mem_singleton.1 he
    have hplain : "php".toList.all (Glob.isOperator · == false) := by decide +kernel
    exact ⟨by decide +kernel, by simpa using hplain⟩
  have htime : InTime shop (fun _ => 0) 1 linesWithX.root := inTime_zero _ _
  obtain ⟨found, hsearch, hmem, -, -⟩ := (search_of_arePlain wellNamed_shop hexts).1 htime
  have hhits : found.map Spot.hit = [⟨"shop/cart.php", 1⟩, ⟨"shop.php", 1⟩, ⟨"shop.php", 3⟩] := by
    rw [search_of_inTime filter_phpAndXml htime, linesWithX, visits_shop] at hsearch
    rw [← Except.ok.inj (Except.ok.inj hsearch)]
    decide +kernel
  refine ⟨wellNamed_shop, hexts, htime, fun hit => ?_, ?_⟩
  · rw [← hhits, List.mem_map]
    simp only [hmem]
  · apply (search_of_arePlain wellNamed_shop hexts).2
    · decide +kernel
    · refine ⟨0, ?_, Nat.le_refl _⟩
      rw [linesWithX, visits_shop]
      decide

def lone : FileTree := { root := .directory [("a.txt", .file (Text.encode "x"))], here := [] }

/-- The names of the files differ, but neither is a text, and the same is read of both. -/
def twins : FileTree :=
  { root := .directory
      [(0xFE :: Text.encode ".php", .file (Text.encode "x")),
        (0xFF :: Text.encode ".php", .file (Text.encode "x"))]
    here := [] }

theorem visits_lone :
    lone.visits "." = [⟨[], lone.root⟩, ⟨["a.txt"], .file (Text.encode "x")⟩] ∧
      lone.visits "a.txt" = [⟨[], .file (Text.encode "x")⟩] := by
  have hfind : lone.find false "." = .ok ([], lone.root) := by rfl
  have hfile : lone.find false "a.txt" = .ok (["a.txt"], .file (Text.encode "x")) := by rfl
  rw [FileTree.visits, hfind, FileTree.visits, hfile]
  simp +decide [lone, FileTree.visitsFrom, FileTree.entryVisits, FileTree.inOrder]

theorem visits_twins :
    twins.visits "." =
      [⟨[], twins.root⟩, ⟨[0xFE :: Text.encode ".php"], .file (Text.encode "x")⟩,
        ⟨[0xFF :: Text.encode ".php"], .file (Text.encode "x")⟩] := by
  have hfind : twins.find false "." = .ok ([], twins.root) := by rfl
  rw [FileTree.visits, hfind]
  simp +decide [twins, FileTree.visitsFrom, FileTree.entryVisits, FileTree.inOrder, List.mergeSort]

/-- Without extensions any file is searched, and so is a file at the root of the search. Two files
of which the same name is read give the same hit twice. -/
theorem search_lone :
    search lone (fun _ => 0) ⟨[], []⟩ 1 ⟨"x", ".", .source⟩ = .ok (.ok [⟨"a.txt", 1⟩]) ∧
      (¬∃ e ∈ (Extensions.mk [] []).ofClass .source, '.' :: e.toList <:+ "a.txt".toList) ∧
      search lone (fun _ => 0) ⟨[], []⟩ 1 ⟨"x", "a.txt", .any⟩ = .ok (.ok [⟨"", 1⟩]) ∧
      search twins (fun _ => 0) phpAndXml 1 ⟨"x", ".", .source⟩ =
        .ok (.ok [⟨"\uFFFD.php", 1⟩, ⟨"\uFFFD.php", 1⟩]) := by
  have hall {cls : FileClass} : (Extensions.mk [] []).filter cls = .ok none :=
    Extensions.filter_eq_ok_none (by cases cls <;> rfl)
  have hanswer {hits hits' : List Hit} (h : hits = hits') :
      (.ok (.ok hits) : Except NoReturn Answer) = .ok (.ok hits') := by rw [h]
  refine ⟨?_, ?_, ?_, ?_⟩
  · rw [search_of_inTime hall (inTime_zero _ _), visits_lone.1]
    exact hanswer (by decide +kernel)
  · rintro ⟨e, he, -⟩
    exact List.not_mem_nil he
  · rw [search_of_inTime hall (inTime_zero _ _), visits_lone.2]
    exact hanswer (by decide +kernel)
  · rw [search_of_inTime filter_phpAndXml (inTime_zero _ _), visits_twins]
    exact hanswer (by decide +kernel)

end Walk
end DocClaims
