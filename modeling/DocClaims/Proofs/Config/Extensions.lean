import DocClaims.Search.FileClass
import DocClaims.Proofs.Config.Accepted
import DocClaims.Proofs.Glob.Extension
import DocClaims.Proofs.Outcomes
import DocClaims.Proofs.Path
import Mathlib.Data.List.MinMax

/-!
# Extensions of accepted configurations

The check of a configuration refuses slashes, dots and stars in extensions, but no other
character that has a meaning in globs. What passes it is taken literally exactly if no
such character occurs.
-/

namespace DocClaims

open Outcome Glob

namespace Extensions

variable {exts : Extensions} {cls : FileClass} {f : FileFilter}

/-! ### Filters -/

theorem filter_eq_ok_some_iff :
    exts.filter cls = .ok (some f) ↔ (exts.globs cls).mapM read = .ok f.globs ∧ f.globs ≠ [] := by
  rw [filter, bind_eq_ok_iff]
  constructor
  · rintro ⟨globs, hglobs, hfilter⟩
    by_cases hempty : globs = []
    · simp [hempty] at hfilter
    · obtain rfl : ⟨globs⟩ = f := by simpa [hempty] using hfilter
      exact ⟨hglobs, hempty⟩
  · rintro ⟨hglobs, hempty⟩
    exact ⟨f.globs, hglobs, by simp [hempty]⟩

theorem accepts_iff (h : exts.filter cls = .ok (some f)) (path : String) :
    f.accepts path ↔
      ∃ e ∈ exts.ofClass cls, ∃ pieces, read ("*." ++ e) = .ok pieces ∧ accepts pieces path := by
  have hglobs := (filter_eq_ok_some_iff.1 h).1
  rw [FileFilter.accepts, List.any_eq_true]
  simp only [mem_iff_of_mapM hglobs, globs, List.mem_map]
  constructor
  · rintro ⟨pieces, ⟨-, ⟨e, he, rfl⟩, hread⟩, haccepts⟩
    exact ⟨e, he, pieces, hread, haccepts⟩
  · rintro ⟨e, he, pieces, hread, haccepts⟩
    exact ⟨pieces, ⟨_, ⟨e, he, rfl⟩, hread⟩, haccepts⟩

theorem exists_filter (hsome : exts.ofClass cls ≠ [])
    (h : ∀ e ∈ exts.ofClass cls, ∃ pieces, read ("*." ++ e) = .ok pieces) :
    ∃ f, exts.filter cls = .ok (some f) := by
  obtain ⟨all, hall⟩ : ∃ all, (exts.globs cls).mapM read = .ok all :=
    exists_mapM_eq_ok_iff.2 (List.forall_mem_map.2 h)
  refine ⟨⟨all⟩, filter_eq_ok_some_iff.2 ⟨hall, ?_⟩⟩
  rintro rfl
  obtain ⟨e, he⟩ := List.exists_mem_of_ne_nil _ hsome
  obtain ⟨pieces, hpieces⟩ := h e he
  exact absurd ((mem_iff_of_mapM hall).2 ⟨_, List.mem_map_of_mem he, hpieces⟩) List.not_mem_nil

theorem filter_eq_ok_none (h : exts.ofClass cls = []) : exts.filter cls = .ok none := by
  rw [filter, globs, h]
  rfl

/-! ### Literal extensions -/

/-- The class has a filter, and that covers the paths whose file name ends with a dot and
one of the extensions. -/
def TakenLiterally (exts : Extensions) (cls : FileClass) : Prop :=
  ∃ f, exts.filter cls = .ok (some f) ∧
    ∀ path, f.accepts path ↔ ∃ e ∈ exts.ofClass cls, '.' :: e.toList <:+ (Path.leaf path).toList

theorem not_mem_of_isBadExtension {e : String} (h : Config.isBadExtension e = false) :
    '/' ∉ e.toList ∧ '*' ∉ e.toList ∧ '.' ∉ e.toList := by
  simp only [Config.isBadExtension, Bool.or_eq_false_iff, List.any_eq_false, Bool.or_eq_true,
    beq_iff_eq, not_or] at h
  exact ⟨fun hmem => (h.2 _ hmem).1.1 rfl, fun hmem => (h.2 _ hmem).1.2 rfl,
    fun hmem => (h.2 _ hmem).2 rfl⟩

/-- No extension of the class has a slash or a character with a meaning in globs. -/
def ArePlain (exts : Extensions) (cls : FileClass) : Prop :=
  ∀ e ∈ exts.ofClass cls, '/' ∉ e.toList ∧ ∀ c ∈ e.toList, isOperator c = false

theorem ArePlain.takenLiterally (h : exts.ArePlain cls) (hsome : exts.ofClass cls ≠ []) :
    exts.TakenLiterally cls := by
  obtain ⟨f, hf⟩ := exists_filter hsome fun e he =>
    (accepts_extension (h e he).2).imp fun _ hpieces => hpieces.1
  refine ⟨f, hf, ?_⟩
  intro path
  rw [accepts_iff hf]
  apply exists_congr
  intro e
  apply and_congr_right
  intro he
  obtain ⟨hslash, hplain⟩ := h e he
  obtain ⟨pieces, hread, haccepts⟩ := accepts_extension hplain
  have hslash : '/' ∉ '.' :: e.toList := by simpa using hslash
  rw [Path.suffix_leaf_iff hslash, ← haccepts path]
  simp [hread]

theorem takenLiterally_of_not_isOperator (hsome : exts.ofClass cls ≠ [])
    (hbare : ∀ e ∈ exts.ofClass cls, Config.isBadExtension e = false)
    (h : ∀ e ∈ exts.ofClass cls, ∀ c ∈ e.toList, isOperator c = false) :
    exts.TakenLiterally cls := by
  apply ArePlain.takenLiterally _ hsome
  intro e he
  exact ⟨(not_mem_of_isBadExtension (hbare e he)).1, h e he⟩

/-! ### Extensions with operators -/

theorem eq_of_dot_suffix {xs ys : List Char} (h : '.' :: xs <:+ '.' :: ys) (hys : '.' ∉ ys) :
    xs = ys := by
  rcases List.suffix_cons_iff.1 h with heq | hinside
  · exact (List.cons.inj heq).2
  · exact absurd (hinside.subset List.mem_cons_self) hys

def hasOperator (e : String) : Bool := e.toList.any isOperator

theorem exists_longest (h : ∃ e ∈ exts.ofClass cls, hasOperator e) :
    ∃ e ∈ exts.ofClass cls, hasOperator e ∧
      ∀ e' ∈ exts.ofClass cls, hasOperator e' → size e'.toList ≤ size e.toList := by
  obtain ⟨e, he, hoperator⟩ := h
  have hmem := List.mem_filter.2 ⟨he, hoperator⟩
  cases hmax : ((exts.ofClass cls).filter hasOperator).argmax fun e => size e.toList with
  | none =>
      rw [List.argmax_eq_none.1 hmax] at hmem
      cases hmem
  | some e' =>
      obtain ⟨he', hoperator'⟩ := List.mem_filter.1 (List.argmax_mem hmax)
      refine ⟨e', he', hoperator', ?_⟩
      intro e'' he'' hoperator''
      have hmem'' := List.mem_filter.2 ⟨he'', hoperator''⟩
      exact List.le_of_mem_argmax (f := fun e => size e.toList) hmem'' hmax

theorem not_takenLiterally_of_units {e : String}
    (hbare : ∀ e ∈ exts.ofClass cls, Config.isBadExtension e = false)
    (he : e ∈ exts.ofClass cls) (hunits : ∀ a ∈ e.toList, isUnit a) (hquestion : '?' ∈ e.toList) :
    ¬exts.TakenLiterally cls := by
  rintro ⟨f, hf, hliteral⟩
  have hstarred : f.accepts (String.ofList ('.' :: starred e.toList)) :=
    (accepts_iff hf _).2 ⟨e, he, _, read_extension_of_units hunits, accepts_starred e⟩
  obtain ⟨e', he', hsuffix⟩ := (hliteral _).1 hstarred
  have hleaf := hsuffix.trans (Path.leaf_suffix _)
  rw [String.toList_ofList] at hleaf
  have hdot := dot_not_mem_starred (not_mem_of_isBadExtension (hbare e he)).2.2
  have heq : e'.toList = starred e.toList := eq_of_dot_suffix hleaf hdot
  exact (not_mem_of_isBadExtension (hbare e' he')).2.1 (heq ▸ star_mem_starred hquestion)

/-- Of extensions with operators, consider a longest one. The glob of another one as long
would have to accept it by question marks alone, but these accept stars as well. -/
theorem not_hasOperator_of_takenLiterally
    (hbare : ∀ e ∈ exts.ofClass cls, Config.isBadExtension e = false)
    (h : exts.TakenLiterally cls) : ∀ e ∈ exts.ofClass cls, ¬hasOperator e := by
  by_contra! hsome
  obtain ⟨e, he, hoperator, hlongest⟩ := exists_longest hsome
  obtain ⟨hslash, -, hdot⟩ := not_mem_of_isBadExtension (hbare e he)
  have hitself : ∃ e' ∈ exts.ofClass cls, ∃ pieces, read ("*." ++ e') = .ok pieces ∧
      accepts pieces (String.ofList ('.' :: e.toList)) := by
    obtain ⟨f, hf, hliteral⟩ := h
    apply (accepts_iff hf _).1
    refine (hliteral _).2 ⟨e, he, (Path.suffix_leaf_iff (by simpa using hslash)).2 ?_⟩
    simp only [String.toList_ofList, List.suffix_refl]
  obtain ⟨e', he', pieces, hread, haccepts⟩ := hitself
  by_cases hoperator' : hasOperator e'
  · have hstar := (not_mem_of_isBadExtension (hbare e' he')).2.1
    obtain ⟨hle, hunits⟩ := size_le_of_accepts hstar hdot hread haccepts
    have hunits := hunits (Nat.le_antisymm hle (hlongest e' he' hoperator'))
    have hquestion : '?' ∈ e'.toList := by
      obtain ⟨a, ha, hoperator'⟩ := List.any_eq_true.1 hoperator'
      obtain rfl : a = '?' := by simpa [isUnit, hoperator'] using hunits a ha
      exact ha
    exact not_takenLiterally_of_units hbare he' hunits hquestion h
  · have hplain : ∀ a ∈ e'.toList, isOperator a = false := by
      simpa [hasOperator] using hoperator'
    obtain ⟨pieces', hread', haccepts'⟩ := accepts_extension hplain
    obtain rfl : pieces' = pieces := Except.ok.inj (hread'.symm.trans hread)
    have hsuffix := (haccepts' _).1 haccepts
    rw [String.toList_ofList] at hsuffix
    have heq : e' = e := String.toList_inj.1 (eq_of_dot_suffix hsuffix hdot)
    exact hoperator' (heq ▸ hoperator)

end Extensions

namespace Config

variable {c : Config} {cls : FileClass}

theorem Accepted.ofClass_ne_nil (h : c.Accepted) (hcls : cls ≠ .any) :
    c.search.extensions.ofClass cls ≠ [] := by
  cases cls with
  | source => exact h.sourceExtensions
  | markup => exact h.markupExtensions
  | any => exact absurd rfl hcls

theorem Accepted.bare_of_mem_ofClass (h : c.Accepted) :
    ∀ e ∈ c.search.extensions.ofClass cls, isBadExtension e = false := by
  intro e he
  cases cls with
  | source => exact h.bare e (List.mem_append_left _ he)
  | markup => exact h.bare e (List.mem_append_right _ he)
  | any => cases he

/-- The extensions of an accepted configuration are taken literally exactly if no character
of them has a meaning in globs. -/
theorem takenLiterally_iff_of_accepted (h : c.problem? = none) (hcls : cls ≠ .any) :
    c.search.extensions.TakenLiterally cls ↔
      ∀ e ∈ c.search.extensions.ofClass cls, ∀ a ∈ e.toList, isOperator a = false := by
  have haccepted := problem?_eq_none_iff.1 h
  constructor
  · intro hliteral e he a ha
    have hplain := Extensions.not_hasOperator_of_takenLiterally
      haccepted.bare_of_mem_ofClass hliteral e he
    simp only [Extensions.hasOperator, List.any_eq_true, not_exists, not_and] at hplain
    exact Bool.eq_false_iff.2 (hplain a ha)
  · exact Extensions.takenLiterally_of_not_isOperator (haccepted.ofClass_ne_nil hcls)
      haccepted.bare_of_mem_ofClass

theorem takenLiterally_standard :
    standard.problem? = none ∧ FileClass.source ≠ .any ∧
      standard.search.extensions.TakenLiterally .source := by
  have haccepted : standard.problem? = none := by decide +kernel
  have hcls : FileClass.source ≠ .any := by decide
  refine ⟨haccepted, hcls, (takenLiterally_iff_of_accepted haccepted hcls).2 ?_⟩
  intro e he a ha
  obtain rfl : e = "php" := List.mem_singleton.1 he
  have hplain : "php".toList.all (isOperator · == false) := by decide +kernel
  exact beq_iff_eq.1 (List.all_eq_true.1 hplain a ha)

/-- An extension with a question mark. -/
def questionMark : Config :=
  { standard with search := ⟨["walk"], 10, ["p?p"], ["xml"]⟩ }

/-- An accepted extension may cover files that do not end with it. -/
theorem accepts_questionMark :
    questionMark.problem? = none ∧
      ∃ f, questionMark.search.extensions.filter .source = .ok (some f) ∧
        f.accepts "a.php" = true ∧
        ¬∃ e ∈ questionMark.search.extensions.ofClass .source,
          '.' :: e.toList <:+ (Path.leaf "a.php").toList := by
  have hunits : "p?p".toList.all isUnit := by decide +kernel
  have hread : ["*.p?p"].mapM read = .ok [.anyBytes :: .byte 46 :: "p?p".toList.flatMap unit] :=
    mapM_cons_eq_ok_iff.2
      ⟨_, [], read_extension_of_units (List.all_eq_true.1 hunits), rfl, rfl⟩
  refine ⟨by decide +kernel, ⟨_⟩, Extensions.filter_eq_ok_some_iff.2 ⟨hread, by simp⟩, ?_, ?_⟩
  · decide +kernel
  · decide +kernel

end Config
end DocClaims
