import DocClaims.Proofs.TypePath.Segments

/-!
# Names and expected paths

However many backslashes a name is written with, its segments alone decide on the expected path
of the type. Where the first segment is made of capitalized words, the segments can be told from
the path, so that no two types are expected in one file.
-/

namespace DocClaims
namespace TypePath

variable {segs others rest : List String} {cs : List Char} {name other s : String}
  {p q : TypePath}

/-! ### Names written with backslashes -/

/-- Each segment stands behind one backslash or more, and any number of them comes last. -/
inductive Backslashed : List String → List Char → Prop
  | finish (n : Nat) : Backslashed [] (List.replicate n '\\')
  | segment {s : String} {segs : List String} {cs : List Char} (n : Nat) : Backslashed segs cs →
      Backslashed (s :: segs) (List.replicate (n + 1) '\\' ++ (s.toList ++ cs))

/-- The name is the root namespace with the segments behind it. -/
def Spells (name : String) (segs : List String) : Prop :=
  ∃ cs, name.toList = rootNamespace.toList ++ cs ∧ Backslashed segs cs

theorem pieces_cons (cs : List Char) : pieces ('\\' :: cs) = pieces cs := by
  have hsplit : Text.split '\\' ('\\' :: cs) = [] :: Text.split '\\' cs :=
    Text.split_append_cons_of_not_mem List.not_mem_nil cs
  rw [pieces, hsplit, List.filter_cons_of_neg (by simp), pieces]

theorem pieces_replicate_append (n : Nat) (cs : List Char) :
    pieces (List.replicate n '\\' ++ cs) = pieces cs := by
  induction n with
  | zero => rfl
  | succ n ih => rw [List.replicate_succ, List.cons_append, pieces_cons, ih]

theorem Backslashed.eq_nil_or_cons (h : Backslashed segs cs) :
    cs = [] ∨ ∃ rest, cs = '\\' :: rest := by
  cases h with
  | finish n =>
      cases n with
      | zero => exact .inl rfl
      | succ n => exact .inr ⟨_, rfl⟩
  | segment n _ => exact .inr ⟨_, rfl⟩

theorem IsSegment.pieces_append (h : IsSegment s) (hcs : cs = [] ∨ ∃ rest, cs = '\\' :: rest) :
    pieces (s.toList ++ cs) = s :: pieces cs := by
  have hbackslash : '\\' ∉ s.toList := by
    intro hmem
    exact absurd (h.2 _ hmem) (by decide)
  have hne : (!s.toList.isEmpty) = true := by
    simpa using h.1
  rcases hcs with rfl | ⟨rest, rfl⟩
  · have hnil : pieces [] = [] := by decide
    rw [List.append_nil, pieces, Text.split_of_not_mem hbackslash, List.filter_cons,
      if_pos hne, hnil, List.filter_nil, List.map_singleton, String.ofList_toList]
  · rw [pieces, Text.split_append_cons_of_not_mem hbackslash, List.filter_cons, if_pos hne,
      List.map_cons, String.ofList_toList, pieces_cons, pieces]

theorem Backslashed.pieces_eq (h : Backslashed segs cs) (hsegs : ∀ s ∈ segs, IsSegment s) :
    pieces cs = segs := by
  induction h with
  | finish n =>
      have hpieces := pieces_replicate_append n []
      rwa [List.append_nil] at hpieces
  | segment n hrest ih =>
      obtain ⟨hs, hsegs⟩ := List.forall_mem_cons.1 hsegs
      rw [pieces_replicate_append, hs.pieces_append hrest.eq_nil_or_cons, ih hsegs]

/-- The segments of a name are those that it spells. -/
theorem Spells.segments_eq (h : Spells name segs) (hsegs : ∀ s ∈ segs, IsSegment s)
    (hne : segs ≠ []) : segments name = segs := by
  obtain ⟨cs, hname, hcs⟩ := h
  have hpieces := hcs.pieces_eq hsegs
  obtain ⟨rest, rfl⟩ : ∃ rest, cs = '\\' :: rest := by
    cases hcs with
    | finish => exact absurd rfl hne
    | segment n _ => exact ⟨_, rfl⟩
  have hmarker : name.toList = qualifiedMarker.toList ++ rest := hname
  have hprefix : qualifiedMarker.toList.isPrefixOf name.toList = true := by
    rw [List.isPrefixOf_iff_prefix, hmarker]
    exact List.prefix_append _ _
  have hlength : qualifiedMarker.length = qualifiedMarker.toList.length := rfl
  rw [segments, if_pos hprefix, hmarker, hlength, List.drop_left, ← hpieces, pieces_cons]
  rfl

/-! ### Reading the segments back -/

/-- The first segment is made of capitalized words. -/
def BeginsWithWords (segs : List String) : Prop :=
  ∃ words rest, segs = String.join words :: rest ∧ ∀ w ∈ words, IsCapitalized w

theorem BeginsWithWords.ne_nil (h : BeginsWithWords segs) : segs ≠ [] := by
  obtain ⟨words, rest, rfl, -⟩ := h
  exact List.cons_ne_nil _ _

theorem segs_eq_of_relative_eq (hsegs : ∀ s ∈ segs, IsSegment s)
    (hothers : ∀ s ∈ others, IsSegment s) (hwords : BeginsWithWords segs)
    (hwords' : BeginsWithWords others) (hp : ofSegments? segs = some p)
    (hq : ofSegments? others = some q) (heq : p.relative = q.relative) : segs = others := by
  obtain ⟨words, rest, rfl, hwords⟩ := hwords
  obtain ⟨words', rest', rfl, hwords'⟩ := hwords'
  obtain ⟨hfirst, hrest⟩ := List.forall_mem_cons.1 hsegs
  obtain ⟨hfirst', hrest'⟩ := List.forall_mem_cons.1 hothers
  obtain ⟨head, tail, front, last, hhead, hbehind, hrelative⟩ := exists_steps_relative hp
  obtain ⟨head', tail', front', last', hhead', hbehind', hrelative'⟩ :=
    exists_steps_relative hq
  rw [hfirst.steps_eq] at hhead
  rw [hfirst'.steps_eq] at hhead'
  rw [flatMap_steps hrest] at hbehind
  rw [flatMap_steps hrest'] at hbehind'
  obtain ⟨rfl, rfl⟩ := List.cons.inj hhead
  obtain ⟨rfl, rfl⟩ := List.cons.inj hhead'
  rw [heq, hrelative', List.map_nil, List.nil_append, List.nil_append] at hrelative
  obtain ⟨hmodule, hinner⟩ := List.cons.inj hrelative
  obtain ⟨rfl, hlast⟩ := List.append_inj' hinner rfl
  have hkebab : kebabCase (String.join words) = kebabCase (String.join words') :=
    (String.append_right_inj _).1 hmodule.symm
  have hlast : last = last' := (String.append_left_inj _).1 (List.singleton_inj.1 hlast).symm
  rw [join_eq_of_kebabCase_eq hwords hwords' hkebab, hbehind, hbehind', hlast]

/-- The segments of a name decide on the expected path: there is none for a single segment, and
otherwise it is made of them all. Names with other segments have other paths, where the first
segments are made of capitalized words. -/
theorem ofName?_of_spells (hsegs : ∀ s ∈ segs, IsSegment s) (hne : segs ≠ [])
    (h : Spells name segs) :
    (segs.length = 1 → ofName? name = none) ∧
    (∀ first rest, segs = first :: rest → rest ≠ [] → ∃ p, ofName? name = some p ∧
      p.relative = "module-" ++ kebabCase first ++ "/" ++ String.intercalate "/" rest ++ ".php" ∧
      rest.getLast? = some p.shortName) ∧
    (∀ other, Spells other segs → ofName? other = ofName? name) ∧
    (∀ words rest, segs = String.join words :: rest → (∀ w ∈ words, IsCapitalized w) →
      kebabCase (String.join words) = String.intercalate "-" (words.map Text.lowerAscii)) ∧
    ∀ others other p q, (∀ s ∈ others, IsSegment s) → Spells other others →
      BeginsWithWords segs → BeginsWithWords others → ofName? name = some p →
      ofName? other = some q → segs ≠ others → p.relative ≠ q.relative := by
  have hname : ofName? name = ofSegments? segs := by
    rw [ofName?, h.segments_eq hsegs hne]
  refine ⟨?_, ?_, ?_, ?_, ?_⟩
  · intro hone
    rw [hname, ofSegments?_eq_none_iff, hone]
    decide
  · rintro first rest rfl hrest
    rw [hname]
    cases hp : ofSegments? (first :: rest) with
    | none =>
        rw [ofSegments?_eq_none_iff, List.length_cons] at hp
        exact absurd (List.length_pos_iff.2 hrest) (by omega)
    | some p =>
        obtain ⟨_, _, hsegs, -, hrelative, hlast⟩ := ofSegments?_eq_some_iff.1 hp
        obtain ⟨rfl, rfl⟩ := List.cons.inj hsegs
        exact ⟨p, rfl, hrelative, hlast⟩
  · intro other hother
    rw [hname, ofName?, hother.segments_eq hsegs hne]
  · intro words rest _ hwords
    exact kebabCase_join hwords
  · intro others other p q hothers hother hwords hwords' hp hq hdiffer heq
    rw [hname] at hp
    rw [ofName?, hother.segments_eq hothers hwords'.ne_nil] at hq
    exact hdiffer (segs_eq_of_relative_eq hsegs hothers hwords hwords' hp hq heq)

def stock : List String := ["CatalogInventory", "Model", "Stock2"]

def stocks : List String := ["CatalogInventory", "Model2", "Stock"]

theorem isCapitalized_catalog : ∀ w ∈ ["Catalog", "Inventory"], IsCapitalized w := by
  have hcatalog : IsCapitalized "Catalog" :=
    ⟨'C', 'a', "talog".toList, by decide, by decide, List.all_eq_true.1 (by decide)⟩
  have hinventory : IsCapitalized "Inventory" :=
    ⟨'I', 'n', "ventory".toList, by decide, by decide, List.all_eq_true.1 (by decide)⟩
  simp [hcatalog, hinventory]

theorem ofName?_of_spells_stock :
    (∀ s ∈ stock, IsSegment s) ∧ (∀ s ∈ stocks, IsSegment s) ∧
      Spells "Magento\\\\CatalogInventory\\Model\\\\\\Stock2\\" stock ∧
      Spells "Magento\\CatalogInventory\\Model2\\Stock" stocks ∧
      ∃ p q, ofName? "Magento\\\\CatalogInventory\\Model\\\\\\Stock2\\" = some p ∧
        ofName? "Magento\\CatalogInventory\\Model2\\Stock" = some q ∧
        p.relative = "module-catalog-inventory/Model/Stock2.php" ∧ p.shortName = "Stock2" ∧
        p.relative ≠ q.relative := by
  have hwords : "CatalogInventory" = String.join ["Catalog", "Inventory"] := by decide
  have hsegment (rest : List String) (h : rest.all fun s =>
      !s.isEmpty && s.toList.all fun c => Text.isAsciiLetter c || Text.isAsciiDigit c) :
      ∀ s ∈ rest, IsSegment s := by
    simpa [IsSegment] using h
  have hstock := hsegment stock (by decide)
  have hstocks := hsegment stocks (by decide)
  have hspells : Spells "Magento\\\\CatalogInventory\\Model\\\\\\Stock2\\" stock :=
    ⟨_, rfl, .segment 1 (.segment 0 (.segment 2 (.finish 1)))⟩
  have hspells' : Spells "Magento\\CatalogInventory\\Model2\\Stock" stocks :=
    ⟨_, rfl, .segment 0 (.segment 0 (.segment 0 (.finish 0)))⟩
  have hbegins : BeginsWithWords stock := ⟨_, _, congrArg (· :: _) hwords, isCapitalized_catalog⟩
  have hbegins' : BeginsWithWords stocks := ⟨_, _, congrArg (· :: _) hwords, isCapitalized_catalog⟩
  obtain ⟨-, hpath, -, hkebab, hdiffer⟩ :=
    ofName?_of_spells hstock (List.cons_ne_nil _ _) hspells
  obtain ⟨-, hpath', -⟩ := ofName?_of_spells hstocks (List.cons_ne_nil _ _) hspells'
  obtain ⟨p, hp, hrelative, hshort⟩ := hpath _ _ rfl (List.cons_ne_nil _ _)
  obtain ⟨q, hq, -, -⟩ := hpath' _ _ rfl (List.cons_ne_nil _ _)
  refine ⟨hstock, hstocks, hspells, hspells', p, q, hp, hq, ?_, ?_, ?_⟩
  · have hmodule := hkebab _ _ (congrArg (· :: _) hwords) isCapitalized_catalog
    rw [hrelative, hwords, hmodule]
    decide
  · exact (Option.some.inj hshort).symm
  · exact hdiffer _ _ p q hstocks hspells' hbegins hbegins' hp hq (by decide)

end TypePath
end DocClaims
