import DocClaims.Config.Basic
import DocClaims.Search.FileClass

/-!
# Accepted configurations

What the check of a configuration assures those who use it.
-/

namespace DocClaims

/-- The extensions that the settings give for the file classes. -/
def SearchSettings.extensions (settings : SearchSettings) : Extensions :=
  ⟨settings.sourceExtensions, settings.markupExtensions⟩

namespace Config

/-- The configuration has no problem. -/
structure Accepted (c : Config) : Prop where
  verbatimTags : c.verbatimTags ≠ []
  vendorPaths : c.validation.vendorPaths ≠ []
  markerModule : Text.allBlank c.validation.markerModule = false
  backends : c.search.backends ≠ []
  known : ∀ name ∈ c.search.backends, (Backend.ofName? name).isSome
  timeout : c.search.timeoutSecs ≠ 0
  sourceExtensions : c.search.sourceExtensions ≠ []
  markupExtensions : c.search.markupExtensions ≠ []
  bare : ∀ e ∈ c.search.sourceExtensions ++ c.search.markupExtensions, isBadExtension e = false

theorem ite_some_eq_none_iff {α : Type} {p : Prop} [Decidable p] {a : α} {o : Option α} :
    (if p then some a else o) = none ↔ ¬p ∧ o = none := by
  split <;> simp [*]

theorem problem?_eq_none_iff {c : Config} : c.problem? = none ↔ c.Accepted := by
  unfold problem?
  cases hfind : c.search.backends.find? fun name => (Backend.ofName? name).isNone with
  | some name =>
      have hname : Backend.ofName? name = none := by simpa using List.find?_some hfind
      have hmem : name ∈ c.search.backends := List.mem_of_find?_eq_some hfind
      constructor
      · intro h
        simp [ite_some_eq_none_iff] at h
      · intro h
        simpa [hname] using h.known name hmem
  | none =>
      have hknown : ∀ name ∈ c.search.backends, (Backend.ofName? name).isSome := by
        intro name hname
        simpa [Option.isSome_iff_ne_none] using List.find?_eq_none.1 hfind name hname
      simp only [ite_some_eq_none_iff, Option.map_eq_none_iff, List.find?_eq_none,
        List.isEmpty_iff, Bool.or_eq_true, not_or, beq_iff_eq, Bool.not_eq_true]
      constructor
      · rintro ⟨htags, hpaths, hmarker, hbackends, htimeout, ⟨hsource, hmarkup⟩, hbare⟩
        exact ⟨htags, hpaths, hmarker, hbackends, hknown, htimeout, hsource, hmarkup, hbare⟩
      · intro h
        exact ⟨h.verbatimTags, h.vendorPaths, h.markerModule, h.backends, h.timeout,
          ⟨h.sourceExtensions, h.markupExtensions⟩, h.bare⟩

end Config
end DocClaims
