import DocClaims.Proofs.Path

/-!
# Paths relative to a root

A relative path that is joined to a root adds its components to those of the root, however the
root is spelled. What is left of a path below a root is made of names, and joined to the root it
gives the path again, component by component, if these names are all that the path adds and can
be read as texts.
-/

namespace DocClaims
namespace Path

open Text (Bytes)

/-- A name of an entry, without a slash. -/
def IsPlainName (s : Bytes) : Prop := IsName s ∧ slash ∉ s

instance : DecidablePred IsPlainName := fun _ => inferInstanceAs (Decidable (_ ∧ _))

variable {p q root rel s t : Bytes} {names : List Bytes} {below : List Component}

/-! ### Components of segments -/

theorem component?_of_isName (h : IsName s) : component? s = some (.name s) := by
  simp [component?, h.1, h.2.1, h.2.2]

theorem component?_eq_name_iff : component? s = some (.name t) ↔ IsName s ∧ s = t := by
  constructor
  · intro h
    rw [component?] at h
    split at h
    · cases h
    · next hsilent =>
        split at h
        · cases h
        · next hup =>
            obtain rfl : s = t := by simpa using h
            simp only [Bool.or_eq_true, beq_iff_eq, not_or] at hsilent
            exact ⟨⟨hsilent.1, hsilent.2, by simpa using hup⟩, rfl⟩
  · rintro ⟨h, rfl⟩
    exact component?_of_isName h

theorem filterMap_component?_names (h : ∀ n ∈ names, IsName n) :
    names.filterMap component? = names.map .name :=
  List.filterMap_eq_map_iff_forall_eq_some.2 fun n hn => component?_of_isName (h n hn)

theorem slash_not_mem_of_mem_segments (h : s ∈ segments p) : slash ∉ s := (Text.of_mem_split h).1

theorem isPlainName_of_mem_components (h : .name s ∈ components p) : IsPlainName s := by
  have hstart : .name s ∉ start p := by
    rw [start]
    split
    · simp
    · split <;> simp
  obtain ⟨t, ht, hcomponent⟩ :=
    List.mem_filterMap.1 ((List.mem_append.1 h).resolve_left hstart)
  obtain ⟨hname, rfl⟩ := component?_eq_name_iff.1 hcomponent
  exact ⟨hname, slash_not_mem_of_mem_segments ht⟩

/-! ### Joined paths -/

theorem isAbsolute_iff_head?_segments (hne : p ≠ []) :
    isAbsolute p = true ↔ (segments p).head? = some [] := by
  cases p with
  | nil => exact absurd rfl hne
  | cons b rest =>
      by_cases hb : b = slash
      · subst hb
        have hsegments : segments (slash :: rest) = [] :: segments rest :=
          segments_append_slash [] rest
        rw [hsegments]
        simp [isAbsolute]
      · obtain ⟨first, others, hsplit⟩ := Text.exists_splitFrom_eq slash rest
        have hsegments : segments (b :: rest) = (b :: first) :: others := by
          rw [segments, Text.split, Text.splitFrom, if_neg (by simpa using hb), hsplit]
          rfl
        rw [hsegments]
        simp [isAbsolute, hb]

/-- A relative path adds the components of its segments, unless it begins with a dot. -/
theorem components_join (hrel : isAbsolute rel = false)
    (hdot : (segments rel).head? ≠ some [dot]) :
    components (join root rel) = components root ++ (segments rel).filterMap component? := by
  by_cases hroot : root = []
  · subst hroot
    have hjoin : join [] rel = rel := by simp [join, hrel]
    have hstart : start rel = [] := by
      rw [start, hrel, if_neg (by decide), if_neg (by simpa using hdot)]
    have hnothing : components [] = [] := by decide
    rw [hjoin, components, hstart, hnothing]
  · obtain ⟨front, back, hsegments, hback, hjoin⟩ := exists_segments_join hrel hroot
    have hsilent : back.filterMap component? = [] := by
      rw [List.filterMap_eq_nil_iff]
      intro s hs
      rw [hback s hs]
      rfl
    have habsolute := isAbsolute_join hrel hroot
    have hstart : start (join root rel) = start root := by
      rw [start, start, habsolute]
      cases hroot' : isAbsolute root with
      | true => rfl
      | false =>
          -- the first segment of a relative root is none of those that end it
          have hfront : front ≠ [] := by
            rintro rfl
            obtain ⟨s, rest, hcons⟩ := exists_segments_eq_cons root
            have hfirst : s = [] := by
              apply hback
              rw [← List.nil_append back, ← hsegments, hcons]
              exact List.mem_cons_self
            have habsurd := (isAbsolute_iff_head?_segments hroot).2 (by rw [hcons, hfirst]; rfl)
            rw [hroot'] at habsurd
            cases habsurd
          rw [hjoin, hsegments, List.head?_append_of_ne_nil _ hfront,
            List.head?_append_of_ne_nil _ hfront]
    rw [components, components, hstart, hjoin, hsegments, List.filterMap_append,
      List.filterMap_append, hsilent, List.append_nil, List.append_assoc]

/-! ### Names separated by slashes -/

theorem isAbsolute_append (h : IsPlainName s) (behind : Bytes) :
    isAbsolute (s ++ behind) = false := by
  obtain ⟨b, bs, rfl⟩ := List.exists_cons_of_ne_nil h.1.1
  have hb : slash ≠ b := List.ne_of_not_mem_cons h.2
  simp [isAbsolute, hb.symm]

theorem isAbsolute_of_isPlainName (h : IsPlainName s) : isAbsolute s = false := by
  simpa using isAbsolute_append h []

section Names

variable (h : ∀ n ∈ names, IsPlainName n)
include h

theorem segments_names (hne : names ≠ []) : segments ([slash].intercalate names) = names :=
  segments_intercalate (fun n hn => (h n hn).2) hne

theorem isAbsolute_names : isAbsolute ([slash].intercalate names) = false := by
  cases names with
  | nil => rfl
  | cons n rest =>
      have hn := h n List.mem_cons_self
      cases rest with
      | nil =>
          rw [List.intercalate_singleton]
          exact isAbsolute_of_isPlainName hn
      | cons other rest =>
          rw [List.intercalate_cons_cons, List.append_assoc]
          exact isAbsolute_append hn _

/-- Names that are joined to a root are added to its components. -/
theorem components_join_names :
    components (join root ([slash].intercalate names)) =
      components root ++ names.map .name := by
  have hdot : (segments ([slash].intercalate names)).head? ≠ some [dot] ∧
      (segments ([slash].intercalate names)).filterMap component? = names.map .name := by
    by_cases hne : names = []
    · rw [hne]
      decide
    · rw [segments_names h hne]
      refine ⟨fun hhead => ?_, filterMap_component?_names fun n hn => (h n hn).1⟩
      exact (h [dot] (List.mem_of_head? hhead)).1.2.1 rfl
  rw [components_join (isAbsolute_names h) hdot.1, hdot.2]

end Names

/-! ### Names read as texts -/

theorem isPlainName_encode_iff {s : String} :
    IsPlainName s ↔ (s ≠ "" ∧ s ≠ "." ∧ s ≠ "..") ∧ '/' ∉ s.toList := by
  rw [IsPlainName, isName_encode_iff, slash_mem_encode_iff]

theorem map_lossy_encode (texts : List String) :
    (texts.map Text.encode).map Text.lossy = texts := by
  have hread : Text.lossy ∘ Text.encode = id := funext Text.lossy_encode
  rw [List.map_map, hread, List.map_id]

theorem slash_not_mem_lossy (h : slash ∉ s) : '/' ∉ (Text.lossy s).toList := by
  intro hslash
  obtain ⟨b, hb, hchar⟩ := Text.exists_mem_of_mem_lossy hslash (by decide)
  have hvalid : b.toNat.isValidChar := .inl (by have := b.toNat_lt; omega)
  have hnat : b.toNat = 47 := by
    rw [← Text.toNat_charOfNat hvalid, hchar]
    rfl
  obtain rfl : b = slash := UInt8.toNat_inj.1 hnat
  exact h hb

/-- What is read of a name is a name again, if not the same one. -/
theorem isPlainName_lossy (h : IsPlainName s) : IsPlainName (Text.lossy s) := by
  have hne {text : String} (htext : ∀ a ∈ text.toList, a.toNat < 0x80) (hs : s ≠ text) :
      Text.lossy s ≠ text := by
    rintro rfl
    exact hs (Text.encode_lossy htext).symm
  refine isPlainName_encode_iff.2 ⟨⟨hne (by simp) h.1.1, hne (by simp) ?_, hne (by simp) ?_⟩, ?_⟩
  · exact h.1.2.1
  · exact h.1.2.2
  · exact slash_not_mem_lossy h.2

theorem isPlainName_of_mem_map_lossy (h : ∀ n ∈ names, IsPlainName n) :
    ∀ n ∈ (names.map Text.lossy).map Text.encode, IsPlainName n := by
  simp only [List.forall_mem_map]
  exact fun n hn => isPlainName_lossy (h n hn)

/-- Texts of names, separated by slashes, neither begin nor end with a slash. -/
theorem getLast?_names_ne_slash {texts : List String} (h : ∀ n ∈ texts, IsPlainName n) :
    (String.intercalate "/" texts).toList.getLast? ≠ some '/' := by
  intro hslash
  obtain ⟨front, hfront⟩ := List.getLast?_eq_some_iff.1 hslash
  have hleaf := leaf_intercalate fun n hn => (isPlainName_encode_iff.1 (h n hn)).2
  rw [leaf, hfront, List.rtakeWhile_concat, if_neg (by simp)] at hleaf
  cases hlast : texts.getLast? with
  | none =>
      rw [List.getLast?_eq_none_iff.1 hlast] at hfront
      simp at hfront
  | some n =>
      rw [hlast] at hleaf
      exact (isPlainName_encode_iff.1 (h n (List.mem_of_getLast? hlast))).1.1
        (by simpa using hleaf.symm)

/-! ### What is left below a root -/

theorem plain_names (names : List Bytes) :
    plain (names.map .name) = String.intercalate "/" (names.map Text.lossy) := by
  rw [plain, List.filterMap_map]
  exact congrArg _ (congrArg _ (List.filterMap_some (l := names)))

theorem relativize_of_components (h : components q = components p ++ below) :
    relativize p q = plain below := by
  rw [relativize, h, if_pos (List.isPrefixOf_iff_prefix.2 (List.prefix_append _ _)), List.drop_left]

theorem exists_names_relativize (p q : Bytes) :
    ∃ names : List Bytes, (∀ n ∈ names, IsPlainName n) ∧
      relativize p q = String.intercalate "/" (names.map Text.lossy) := by
  have hnames {l : List Component} (hl : ∀ c ∈ l, c ∈ components q) :
      ∃ names : List Bytes, (∀ n ∈ names, IsPlainName n) ∧
        plain l = String.intercalate "/" (names.map Text.lossy) := by
    refine ⟨l.filterMap Component.name?, ?_, rfl⟩
    intro n hn
    obtain ⟨c, hc, hname⟩ := List.mem_filterMap.1 hn
    obtain rfl : c = .name n := by
      cases c <;> simp_all [Component.name?]
    exact isPlainName_of_mem_components (hl _ hc)
  rw [relativize]
  split
  · exact hnames fun c => List.mem_of_mem_drop
  · exact hnames fun c hc => hc

/-- Whatever names are joined to a root, they are what is left below it, as far as they can be
read. What is left of any path is made of names, and joined to the root it leads to the path, if
the path adds names only, exactly when it has been read without loss. -/
theorem relativize_join_and_join_relativize (root : Bytes) :
    (∀ names : List Bytes, names ≠ [] → (∀ n ∈ names, IsPlainName n) →
      relativize root (join root ([slash].intercalate names)) =
        String.intercalate "/" (names.map Text.lossy)) ∧
    (∀ names : List String, names ≠ [] → (∀ n ∈ names, IsPlainName n) →
      relativize root (join root (String.intercalate "/" names)) =
        String.intercalate "/" names) ∧
    ∀ path : Bytes,
      (∃ names : List String, (∀ n ∈ names, IsPlainName n) ∧
        relativize root path = String.intercalate "/" names) ∧
      isAbsolute (relativize root path) = false ∧
      (relativize root path).toList.getLast? ≠ some '/' ∧
      ∀ names : List Bytes, (∀ n ∈ names, IsPlainName n) →
        components path = components root ++ names.map .name →
        components (join root (relativize root path)) =
          components root ++ names.map (fun n => .name (Text.lossy n)) ∧
        (components (join root (relativize root path)) = components path ↔
          ∀ n ∈ names, ∃ s : String, n = s) := by
  have hjoined (names : List Bytes) (hnames : ∀ n ∈ names, IsPlainName n) :
      relativize root (join root ([slash].intercalate names)) =
        String.intercalate "/" (names.map Text.lossy) := by
    rw [relativize_of_components (components_join_names hnames), plain_names]
  refine ⟨fun names _ => hjoined names, ?_, ?_⟩
  · intro names _ hnames
    rw [encode_intercalate, hjoined _ (List.forall_mem_map.2 hnames), map_lossy_encode]
  · intro path
    obtain ⟨left, hleft, hrelative⟩ := exists_names_relativize root path
    have hread := isPlainName_of_mem_map_lossy hleft
    refine ⟨⟨left.map Text.lossy, List.forall_mem_map.1 hread, hrelative⟩, ?_, ?_, ?_⟩
    · rw [hrelative, encode_intercalate]
      exact isAbsolute_names hread
    · rw [hrelative]
      exact getLast?_names_ne_slash (List.forall_mem_map.1 hread)
    · intro names hnames hpath
      have hback : components (join root (relativize root path)) =
          components root ++ names.map (fun n => .name (Text.lossy n)) := by
        rw [relativize_of_components hpath, plain_names, encode_intercalate,
          components_join_names (isPlainName_of_mem_map_lossy hnames), List.map_map, List.map_map]
        rfl
      refine ⟨hback, ?_⟩
      rw [hback, hpath, List.append_right_inj, List.map_inj_left]
      refine forall₂_congr fun n _ => ?_
      constructor
      · intro hname
        exact ⟨Text.lossy n, (Component.name.inj hname).symm⟩
      · rintro ⟨s, rfl⟩
        rw [Text.lossy_encode]

/-- Names that are not UTF-8 are lost: below `/r` the file of the one byte FF has its replacement
character as its path, from which the path of the file is not found again. -/
theorem relativize_byteFF :
    IsPlainName [0xFF] ∧
      components (join "/r" [0xFF]) = components "/r" ++ [.name [0xFF]] ∧
      relativize "/r" (join "/r" [0xFF]) = "\uFFFD" ∧
      components (join "/r" (relativize "/r" (join "/r" [0xFF]))) ≠
        components (join "/r" [0xFF]) := by
  decide

end Path
end DocClaims
