import DocClaims.OutputPath
import DocClaims.Proofs.Path.Relative

/-!
# Where default outputs stand

The last name of a path is its last segment that is not silent. What `parent?` leaves of the
path is made of the segments before it, up to the silent ones, so that another name that is
joined to it stands in the same directory. The name of a default output is never the one that
it was made from, as the suffix stands between the stem and the dot behind it, also where the
stem cannot be read without loss.
-/

namespace DocClaims
namespace Path

open Text (Bytes)

variable {p name other : Bytes} {dirs back rest : List Bytes} {absolute : Bool}

theorem component?_eq_none_iff {s : Bytes} : component? s = none ↔ IsSilent s := by
  rw [component?, IsSilent]
  by_cases hsilent : s = [] ∨ s = [dot]
  · rw [if_pos (by simpa using hsilent)]
    exact ⟨fun _ => hsilent, fun _ => rfl⟩
  · rw [if_neg (by simpa using hsilent)]
    refine ⟨fun h => ?_, fun h => absurd h hsilent⟩
    split at h <;> cases h

/-- Behind the name of a file, a path has silent segments only. -/
theorem exists_segments_of_fileName? (h : fileName? p = some name) :
    IsPlainName name ∧
      ∃ dirs back, segments p = dirs ++ name :: back ∧ ∀ s ∈ back, IsSilent s := by
  obtain ⟨c, hlast, hname⟩ := Option.bind_eq_some_iff.1 h
  obtain rfl : c = .name name := by
    cases c <;> simp_all [Component.name?]
  refine ⟨isPlainName_of_mem_components (List.mem_of_getLast? hlast), ?_⟩
  have hstart : .name name ∉ start p := by
    rw [start]
    split
    · simp
    · split <;> simp
  rw [components, List.getLast?_append, Option.or_eq_some_iff] at hlast
  rcases hlast with h | ⟨-, h⟩
  · rw [List.getLast?_filterMap, List.findSome?_eq_some_iff] at h
    obtain ⟨back, s, dirs, hsegments, hs, hback⟩ := h
    obtain ⟨-, rfl⟩ := component?_eq_name_iff.1 hs
    refine ⟨dirs.reverse, back.reverse, ?_, ?_⟩
    · rw [← List.reverse_inj, hsegments]
      simp
    · intro t ht
      exact component?_eq_none_iff.1 (hback t (List.mem_reverse.1 ht))
  · exact absurd (List.mem_of_getLast? h) hstart

/-! ### What is left without the last name -/

theorem exists_append_dropSilent (absolute : Bool) (l : List Bytes) :
    ∃ dropped, l = dropped ++ dropSilent absolute l ∧ ∀ s ∈ dropped, IsSilent s := by
  induction l with
  | nil => exact ⟨[], rfl, by simp⟩
  | cons s rest ih =>
      rw [dropSilent]
      split
      · next hs =>
          obtain ⟨dropped, hrest, hdropped⟩ := ih
          refine ⟨s :: dropped, ?_, List.forall_mem_cons.2 ⟨?_, hdropped⟩⟩
          · rw [List.cons_append, ← hrest]
          · rw [IsSilent]
            simp only [Bool.or_eq_true, Bool.and_eq_true, beq_iff_eq] at hs
            exact hs.imp_right And.left
      · exact ⟨[], rfl, by simp⟩

theorem dropSilent_dropSilent (absolute : Bool) (l : List Bytes) :
    dropSilent absolute (dropSilent absolute l) = dropSilent absolute l := by
  induction l with
  | nil => rfl
  | cons s rest ih =>
      rw [dropSilent]
      split
      · exact ih
      · next hs => rw [dropSilent, if_neg hs]

theorem ne_nil_of_dropSilent_eq_cons {s : Bytes} {l : List Bytes}
    (h : dropSilent absolute l = s :: rest) : s ≠ [] := by
  induction l with
  | nil => cases h
  | cons t l ih =>
      rw [dropSilent] at h
      split at h
      · exact ih h
      · next ht =>
          obtain ⟨rfl, -⟩ := List.cons.inj h
          rintro rfl
          simp at ht

theorem dropSilent_append_cons {silent : List Bytes} (h : ∀ s ∈ silent, IsSilent s)
    (hname : IsName name) : dropSilent absolute (silent ++ name :: rest) = name :: rest := by
  induction silent with
  | nil =>
      rw [List.nil_append, dropSilent, if_neg]
      simp [hname.1, hname.2.1]
  | cons s silent ih =>
      obtain ⟨hs, hsilent⟩ := List.forall_mem_cons.1 h
      rw [List.cons_append, dropSilent, if_pos, ih hsilent]
      rcases hs with rfl | rfl <;> simp

/-- The path of the directory that the segments lead to. -/
def directory (absolute : Bool) (segments : List Bytes) : Bytes :=
  if segments = [] then (if absolute then [slash] else []) else [slash].intercalate segments

theorem parent?_of_segments (hsegments : segments p = dirs ++ name :: back) (hname : IsName name)
    (hback : ∀ s ∈ back, IsSilent s) :
    parent? p =
      some (directory (isAbsolute p) (dropSilent (isAbsolute p) dirs.reverse).reverse) := by
  have hreverse : (segments p).reverse = back.reverse ++ name :: dirs.reverse := by
    rw [hsegments]
    simp
  rw [parent?, hreverse, dropSilent_append_cons (by simpa using hback) hname]
  dsimp only
  cases hkept : dropSilent (isAbsolute p) dirs.reverse with
  | nil => rfl
  | cons s kept =>
      have hne : (s :: kept).reverse ≠ [] := by simp
      rw [directory, if_neg hne]

/-- A path leads to a name in the directory `dir`: the segments before that name begin the path
of every name that is joined to `dir`, but for silent ones. -/
structure InDirectory (p name dir : Bytes) (front silent back : List Bytes) : Prop where
  segments_eq : segments p = front ++ silent ++ name :: back
  isSilent : ∀ s ∈ silent ++ back, IsSilent s
  parent?_eq : parent? p = some dir
  segments_join : ∀ other, IsPlainName other → segments (join dir other) = front ++ [other]
  isAbsolute_join : ∀ other, IsPlainName other → isAbsolute (join dir other) = isAbsolute p
  parent?_join : ∀ other, IsPlainName other → parent? (join dir other) = some dir

theorem parent?_of_segments_concat {front : List Bytes} (hname : IsName name)
    (h : segments p = front ++ [name]) :
    parent? p =
      some (directory (isAbsolute p) (dropSilent (isAbsolute p) front.reverse).reverse) :=
  parent?_of_segments h hname (by simp)

/-- Without names before the last one, the directory is the root or the one that relative paths
begin at. -/
theorem inDirectory_of_silent (hsegments : segments p = dirs ++ name :: back) (hname : IsName name)
    (hback : ∀ s ∈ back, IsSilent s)
    (hnone : dropSilent (isAbsolute p) dirs.reverse = []) :
    ∃ dir front silent, InDirectory p name dir front silent back := by
  have hdirs : ∀ s ∈ dirs, IsSilent s := by
    obtain ⟨dropped, hdropped, hsilent⟩ := exists_append_dropSilent (isAbsolute p) dirs.reverse
    rw [hnone, List.append_nil] at hdropped
    intro s hs
    exact hsilent s (hdropped ▸ List.mem_reverse.2 hs)
  have hparent := parent?_of_segments hsegments hname hback
  rw [hnone] at hparent
  cases habsolute : isAbsolute p with
  | true =>
      rw [habsolute] at hparent
      obtain ⟨silent, rfl⟩ : ∃ silent, dirs = [] :: silent := by
        have hp : p ≠ [] := by
          rintro rfl
          cases habsolute
        have hhead := (isAbsolute_iff_head?_segments hp).1 habsolute
        cases dirs with
        | nil =>
            rw [hsegments, List.nil_append, List.head?_cons, Option.some.injEq] at hhead
            exact absurd hhead hname.1
        | cons s silent =>
            rw [hsegments, List.cons_append, List.head?_cons, Option.some.injEq] at hhead
            exact ⟨silent, by rw [hhead]⟩
      have hjoin (other : Bytes) (hother : IsPlainName other) :
          join [slash] other = [] ++ slash :: other := by
        simp [join, isAbsolute_of_isPlainName hother]
      have hsegments_join (other : Bytes) (hother : IsPlainName other) :
          segments (join [slash] other) = [[]] ++ [other] := by
        rw [hjoin other hother, segments_append_slash, segments_of_not_mem hother.2,
          segments_of_not_mem (by simp)]
      have hroot (other : Bytes) (hother : IsPlainName other) :
          isAbsolute (join [slash] other) = true := by
        simp [hjoin other hother, isAbsolute]
      refine ⟨[slash], [[]], silent, by rw [hsegments]; rfl, ?_, hparent, hsegments_join, ?_, ?_⟩
      · exact List.forall_mem_append.2 ⟨(List.forall_mem_cons.1 hdirs).2, hback⟩
      · rw [habsolute]
        exact hroot
      · intro other hother
        rw [parent?_of_segments_concat hother.1 (hsegments_join other hother), hroot other hother]
        rfl
  | false =>
      rw [habsolute] at hparent
      have hjoin (other : Bytes) (hother : IsPlainName other) : join [] other = other := by
        simp [join, isAbsolute_of_isPlainName hother]
      refine ⟨[], [], dirs, hsegments, List.forall_mem_append.2 ⟨hdirs, hback⟩, hparent, ?_, ?_, ?_⟩
      · intro other hother
        rw [hjoin other hother, segments_of_not_mem hother.2]
        rfl
      · intro other hother
        rw [hjoin other hother, habsolute, isAbsolute_of_isPlainName hother]
      · intro other hother
        have hsegments : segments other = [] ++ [other] := segments_of_not_mem hother.2
        rw [hjoin other hother, parent?_of_segments_concat hother.1 hsegments,
          isAbsolute_of_isPlainName hother]
        rfl

theorem inDirectory_of_names (hsegments : segments p = dirs ++ name :: back) (hname : IsName name)
    (hback : ∀ s ∈ back, IsSilent s)
    (hsome : dropSilent (isAbsolute p) dirs.reverse ≠ []) :
    ∃ dir front silent, InDirectory p name dir front silent back := by
  obtain ⟨dropped, hdropped, hsilent⟩ := exists_append_dropSilent (isAbsolute p) dirs.reverse
  have hparent := parent?_of_segments hsegments hname hback
  have hagain := dropSilent_dropSilent (isAbsolute p) dirs.reverse
  obtain ⟨last, kept, hkept⟩ := List.exists_cons_of_ne_nil hsome
  have hlast := ne_nil_of_dropSilent_eq_cons hkept
  rw [hkept] at hdropped hparent hagain
  have hfront : (last :: kept).reverse ≠ [] := by simp
  rw [directory, if_neg hfront] at hparent
  generalize hdir : [slash].intercalate (last :: kept).reverse = dir at hparent
  obtain rfl : dirs = (last :: kept).reverse ++ dropped.reverse := by
    rw [← List.reverse_append, ← hdropped, List.reverse_reverse]
  have hsegments_dir : segments dir = (last :: kept).reverse := by
    rw [← hdir]
    refine segments_intercalate (fun s hs => ?_) hfront
    apply slash_not_mem_of_mem_segments (p := p)
    rw [hsegments]
    exact List.mem_append_left _ (List.mem_append_left _ hs)
  have hgetLast : (segments dir).getLast? = some last := by
    rw [hsegments_dir, List.reverse_cons, List.getLast?_concat]
  have hne : dir ≠ [] := by
    rintro rfl
    rw [segments_of_not_mem (by simp), List.getLast?_singleton, Option.some.injEq] at hgetLast
    exact hlast hgetLast.symm
  have hp : p ≠ [] := by
    rintro rfl
    have hmem : name ∈ segments [] := by simp [hsegments]
    rw [segments_of_not_mem (by simp), List.mem_singleton] at hmem
    exact hname.1 hmem
  have hsegments_join (other : Bytes) (hother : IsPlainName other) :
      segments (join dir other) = (last :: kept).reverse ++ [other] := by
    obtain ⟨front, empty, hall, hempty, hjoin⟩ :=
      exists_segments_join (isAbsolute_of_isPlainName hother) hne
    obtain rfl : empty = [] := by
      by_contra hsome
      rw [hall, List.getLast?_append_of_ne_nil _ hsome] at hgetLast
      exact hlast (hempty _ (List.mem_of_getLast? hgetLast))
    rw [hjoin, segments_of_not_mem hother.2, ← hsegments_dir, hall, List.append_nil]
  have habsolute (other : Bytes) (hother : IsPlainName other) :
      isAbsolute (join dir other) = isAbsolute p := by
    rw [isAbsolute_join (isAbsolute_of_isPlainName hother) hne, Bool.eq_iff_iff,
      isAbsolute_iff_head?_segments hne, isAbsolute_iff_head?_segments hp, hsegments_dir,
      hsegments, List.append_assoc, List.head?_append_of_ne_nil _ hfront]
  refine ⟨dir, (last :: kept).reverse, dropped.reverse, hsegments, ?_, hparent, hsegments_join,
    habsolute, ?_⟩
  · refine List.forall_mem_append.2 ⟨fun s hs => ?_, hback⟩
    exact hsilent s (List.mem_reverse.1 hs)
  · intro other hother
    rw [parent?_of_segments_concat hother.1 (hsegments_join other hother), habsolute other hother,
      List.reverse_reverse, hagain, directory, if_neg hfront, hdir]

theorem exists_inDirectory (h : fileName? p = some name) :
    ∃ dir front silent back, InDirectory p name dir front silent back := by
  obtain ⟨hname, dirs, back, hsegments, hback⟩ := exists_segments_of_fileName? h
  by_cases hnone : dropSilent (isAbsolute p) dirs.reverse = []
  · obtain ⟨dir, front, silent, hdirectory⟩ :=
      inDirectory_of_silent hsegments hname.1 hback hnone
    exact ⟨dir, front, silent, back, hdirectory⟩
  · obtain ⟨dir, front, silent, hdirectory⟩ :=
      inDirectory_of_names hsegments hname.1 hback hnone
    exact ⟨dir, front, silent, back, hdirectory⟩

theorem fileName?_join {dir : Bytes} (h : IsPlainName other) :
    fileName? (join dir other) = some other := by
  have hcomponents : components (join dir ([slash].intercalate [other])) =
      components dir ++ [other].map .name := components_join_names (by simpa using h)
  rw [List.intercalate_singleton] at hcomponents
  rw [fileName?, hcomponents]
  simp [Component.name?]

/-! ### Stems -/

/-- The stem of a name is all of it before its last dot, unless that dot leads the name. -/
inductive IsStem (name : Bytes) : Bytes → Prop
  | whole : dot ∉ name → IsStem name name
  | hidden {rest : Bytes} : name = dot :: rest → dot ∉ rest → IsStem name name
  | front {front rest : Bytes} :
      name = front ++ dot :: rest → front ≠ [] → dot ∉ rest → IsStem name front

theorem stem_of_not_mem (h : dot ∉ name) : stem name = name := by
  have hnone : name.reverse.dropWhile (· != dot) = [] :=
    List.dropWhile_eq_nil_iff.2 (Text.bne_of_mem_reverse h)
  rw [stem, hnone]
  rfl

theorem stem_append_dot {front rest : Bytes} (h : dot ∉ rest) :
    stem (front ++ dot :: rest) = if front = [] then dot :: rest else front := by
  have hdrop : ((front ++ dot :: rest).reverse.dropWhile (· != dot)).drop 1 = front.reverse := by
    rw [List.reverse_append, List.reverse_cons, List.append_assoc,
      List.dropWhile_append_of_pos (Text.bne_of_mem_reverse h)]
    rfl
  rw [stem, hdrop]
  by_cases hfront : front = []
  · rw [hfront, if_pos rfl]
    rfl
  · rw [if_neg hfront]
    split
    · next hnone => exact absurd (List.reverse_eq_nil_iff.1 hnone) hfront
    · rw [List.reverse_reverse]

theorem isStem_stem (name : Bytes) : IsStem name (stem name) := by
  by_cases hdot : dot ∈ name
  · obtain ⟨rest, front, hreverse, hrest⟩ :=
      List.eq_append_cons_of_mem (List.mem_reverse.2 hdot)
    have hname : name = front.reverse ++ dot :: rest.reverse := by
      rw [← List.reverse_inj, hreverse]
      simp
    have hnot : dot ∉ rest.reverse := by simpa using hrest
    rw [hname, stem_append_dot hnot]
    split
    · next hfront =>
        rw [hfront]
        exact .hidden rfl hnot
    · next hfront => exact .front rfl hfront hnot
  · rw [stem_of_not_mem hdot]
    exact .whole hdot

theorem IsStem.subset {stem : Bytes} (h : IsStem name stem) : stem ⊆ name := by
  cases h with
  | whole | hidden => exact List.Subset.refl _
  | front hname =>
      rw [hname]
      exact List.subset_append_left _ _

theorem fileName?_congr {q : Bytes} (h : components p = components q) :
    fileName? p = fileName? q := by
  rw [fileName?, h, fileName?]

end Path

open DocClaims.Path
open Text (Bytes)

/-- A text that can be set between a stem and the dot before an extension. -/
structure IsSuffix (s : String) : Prop where
  ne_empty : s ≠ ""
  slash_not_mem : '/' ∉ s.toList
  dot_not_mem : '.' ∉ s.toList

/-- The name of a default output for a file of the name. -/
def outputName (name : Bytes) (suffix extension : String) : String :=
  Text.lossy (stem name) ++ suffix ++ "." ++ extension

variable {input name : Bytes} {suffix extension : String}

theorem IsSuffix.append {other : String} (h : IsSuffix suffix) (hother : IsSuffix other) :
    IsSuffix (suffix ++ other) := by
  refine ⟨fun hempty => h.ne_empty (String.append_eq_empty_iff.1 hempty).1, ?_, ?_⟩
  · simp [h.slash_not_mem, hother.slash_not_mem]
  · simp [h.dot_not_mem, hother.dot_not_mem]

/-- The suffix begins with a character that is no dot. -/
theorem IsSuffix.exists_cons (h : IsSuffix suffix) :
    ∃ c cs, suffix.toList = c :: cs ∧ c ≠ '.' := by
  obtain ⟨c, cs, hsuffix⟩ := List.exists_cons_of_ne_nil (mt String.toList_eq_nil_iff.1 h.ne_empty)
  refine ⟨c, cs, hsuffix, ?_⟩
  rintro rfl
  exact h.dot_not_mem (by rw [hsuffix]; exact List.mem_cons_self)

section Output

variable (hsuffix : IsSuffix suffix)
include hsuffix

theorem isPlainName_outputName (hname : IsPlainName name) (hextension : '/' ∉ extension.toList) :
    IsPlainName (outputName name suffix extension) := by
  obtain ⟨c, cs, hcons, hc⟩ := hsuffix.exists_cons
  have hmem : c ∈ (outputName name suffix extension).toList := by simp [outputName, hcons]
  have hdots {dots : String} (hdots : ∀ d ∈ dots.toList, d = '.') :
      outputName name suffix extension ≠ dots := by
    intro heq
    exact hc (hdots c (heq ▸ hmem))
  have hstem : '/' ∉ (Text.lossy (stem name)).toList :=
    slash_not_mem_lossy fun h => hname.2 ((isStem_stem name).subset h)
  refine isPlainName_encode_iff.2 ⟨⟨hdots (by simp), hdots (by simp), hdots (by simp)⟩, ?_⟩
  simp [outputName, hstem, hsuffix.slash_not_mem, hextension]

/-- A name goes on with a dot behind its stem, or not at all. -/
theorem ne_of_isStem {stem : Bytes} (h : IsStem name stem) :
    Text.encode (Text.lossy stem ++ suffix ++ "." ++ extension) ≠ name := by
  intro heq
  have hread : Text.lossy name = Text.lossy stem ++ suffix ++ "." ++ extension := by
    rw [← heq, Text.lossy_encode]
  cases h with
  | whole | hidden =>
      have hlength := congrArg String.length hread
      simp [String.append_assoc] at hlength
  | @front front rest hname =>
      obtain ⟨c, cs, hcons, hc⟩ := hsuffix.exists_cons
      have hdot : dot.toNat < 0x80 := by decide
      have hchar : Char.ofNat dot.toNat = '.' := by decide
      rw [hname, ← String.toList_inj, Text.lossy_append_cons _ hdot, hchar] at hread
      simp [hcons] at hread
      exact hc hread.1.symm

/-- Different suffixes make different names for the same file. -/
theorem outputName_ne_of_suffix {other otherExtension : String} (hother : IsSuffix other)
    (hne : suffix ≠ other) :
    outputName name suffix extension ≠ outputName name other otherExtension := by
  intro h
  have hsplit {s e : String} (hs : IsSuffix s) :
      Text.split '.' (s ++ "." ++ e).toList = s.toList :: Text.split '.' e.toList := by
    rw [← Text.split_append_cons_of_not_mem hs.dot_not_mem]
    simp
  have hbehind : (suffix ++ "." ++ extension).toList = (other ++ "." ++ otherExtension).toList := by
    simpa [outputName, String.append_assoc, ← String.toList_inj] using h
  have hpieces := congrArg (Text.split '.') hbehind
  rw [hsplit hsuffix, hsplit hother] at hpieces
  exact hne (String.toList_inj.1 (List.cons.inj hpieces).1)

variable (hname : fileName? input = some name)
include hname

omit hsuffix in
theorem defaultOutput_eq {dir : Bytes} (hdir : parent? input = some dir) :
    defaultOutput input suffix extension = join dir (outputName name suffix extension) := by
  rw [defaultOutput, hname, hdir]
  rfl

variable (hextension : '/' ∉ extension.toList)
include hextension

/-- The input and its default output lead to names in the same directory. -/
theorem exists_inDirectory_defaultOutput :
    ∃ dir front silent back, InDirectory input name dir front silent back ∧
      IsPlainName (outputName name suffix extension) ∧
      defaultOutput input suffix extension = join dir (outputName name suffix extension) := by
  obtain ⟨hplain, -⟩ := exists_segments_of_fileName? hname
  obtain ⟨dir, front, silent, back, hdirectory⟩ := exists_inDirectory hname
  exact ⟨dir, front, silent, back, hdirectory, isPlainName_outputName hsuffix hplain hextension,
    defaultOutput_eq hname hdirectory.parent?_eq⟩

theorem beside_defaultOutput : Beside input (defaultOutput input suffix extension) := by
  obtain ⟨hplain, -⟩ := exists_segments_of_fileName? hname
  obtain ⟨dir, front, silent, back, hdirectory, houtput, heq⟩ :=
    exists_inDirectory_defaultOutput hsuffix hname hextension
  rw [heq]
  exact .intro hdirectory.segments_eq hdirectory.isSilent (hdirectory.segments_join _ houtput)
    (hdirectory.isAbsolute_join _ houtput) hplain.1 houtput.1
    (ne_of_isStem hsuffix (isStem_stem name))

theorem fileName?_defaultOutput :
    fileName? (defaultOutput input suffix extension) =
      some (Text.encode (outputName name suffix extension)) := by
  obtain ⟨dir, front, silent, back, -, hplain, houtput⟩ :=
    exists_inDirectory_defaultOutput hsuffix hname hextension
  rw [houtput, fileName?_join hplain]

theorem components_defaultOutput_ne :
    components (defaultOutput input suffix extension) ≠ components input := by
  intro h
  have hnames := fileName?_congr h
  rw [fileName?_defaultOutput hsuffix hname hextension, hname, Option.some.injEq] at hnames
  exact ne_of_isStem hsuffix (isStem_stem name) hnames

theorem components_defaultOutput_ne_of_suffix {other otherExtension : String}
    (hother : IsSuffix other) (hotherExtension : '/' ∉ otherExtension.toList)
    (hne : suffix ≠ other) :
    components (defaultOutput input suffix extension) ≠
      components (defaultOutput input other otherExtension) := by
  intro h
  have hnames := fileName?_congr h
  rw [fileName?_defaultOutput hsuffix hname hextension,
    fileName?_defaultOutput hother hname hotherExtension, Option.some.injEq,
    Text.encode_inj] at hnames
  exact outputName_ne_of_suffix hsuffix hother hne hnames

theorem exists_parent?_defaultOutput :
    ∃ dir, parent? input = some dir ∧
      parent? (defaultOutput input suffix extension) = some dir := by
  obtain ⟨dir, front, silent, back, hdirectory, hplain, houtput⟩ :=
    exists_inDirectory_defaultOutput hsuffix hname hextension
  exact ⟨dir, hdirectory.parent?_eq, houtput ▸ hdirectory.parent?_join _ hplain⟩

/-- The default output for a default output is one for the file that this was made for. -/
theorem defaultOutput_defaultOutput (hdot : '.' ∉ extension.toList) (other last : String) :
    defaultOutput (defaultOutput input suffix extension) other last =
      defaultOutput input (suffix ++ other) last := by
  obtain ⟨dir, hinput, houtput⟩ := exists_parent?_defaultOutput hsuffix hname hextension
  have hfront : Text.lossy (stem name) ++ suffix ≠ "" := fun hempty =>
    hsuffix.ne_empty (String.append_eq_empty_iff.1 hempty).2
  have hbytes : Text.encode (outputName name suffix extension) =
      Text.encode (Text.lossy (stem name) ++ suffix) ++ dot :: Text.encode extension := by
    rw [outputName, Text.encode_append, Text.encode_append, List.append_assoc]
    rfl
  have hnot : dot ∉ Text.encode extension :=
    Text.not_mem_flatMap_utf8EncodeChar (by decide) hdot
  have hstem : stem (Text.encode (outputName name suffix extension)) =
      Text.encode (Text.lossy (stem name) ++ suffix) := by
    rw [hbytes, stem_append_dot hnot, if_neg (mt Text.encode_eq_nil.1 hfront)]
  have hagain : outputName (outputName name suffix extension) other last =
      outputName name (suffix ++ other) last := by
    rw [outputName, hstem, Text.lossy_encode, outputName]
    simp only [String.append_assoc]
  rw [defaultOutput_eq (fileName?_defaultOutput hsuffix hname hextension) houtput,
    defaultOutput_eq hname hinput, hagain]

end Output

example : defaultOutput (defaultOutput "./docs//.guide.v2.html/." "_claims" "yaml") "_validation"
    "json" = Text.encode "./docs/.guide.v2_claims_validation.json" := by decide +kernel

end DocClaims
