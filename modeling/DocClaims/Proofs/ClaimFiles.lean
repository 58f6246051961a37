import DocClaims.ClaimDocument
import DocClaims.Proofs.ClaimSets
import DocClaims.Proofs.Yaml.RoundTrip

/-!
# Claim documents in files

A claim document is read back from its file as it was, whatever its texts are,
and with it the set of claims it was made of.
-/

namespace DocClaims

theorem toTexts?_texts (values : List String) : (Datum.texts values).toTexts? = some values :=
  @mapM_encode String .text Datum.toText? (fun _ => rfl) values

theorem toOptionalText?_optionalText (s : Option String) :
    (Datum.optionalText s).toOptionalText? = some s := by
  cases s <;> rfl

namespace Review

theorem fits_toDatum (r : Review) : shape.Fits r.toDatum := by
  rw [shape, toDatum, Shape.fits_record]
  simp

theorem ofDatum?_toDatum (r : Review) : ofDatum? r.toDatum = some r := by
  simp [ofDatum?, toDatum, Datum.get?, List.lookup_cons, Datum.toFlag?,
    toOptionalText?_optionalText]

end Review

namespace ClaimDocument

theorem fits_lists (lists : List (Category × List String)) :
    (Shape.keyed (Category.all.map Category.key) (.list .text)).Fits
      (.table (lists.map fun (c, values) => (c.key, .texts values))) := by
  rw [Shape.Fits]
  refine ⟨_, rfl, ?_⟩
  intro e he
  obtain ⟨⟨c, values⟩, -, rfl⟩ := List.mem_map.1 he
  exact ⟨List.mem_map_of_mem (Category.mem_all c), Shape.fits_texts values⟩

theorem fits_toDatum (doc : ClaimDocument) : shape.Fits doc.toDatum := by
  have hclaims := fits_lists doc.lists
  rw [shape, toDatum, Shape.fits_record]
  simp [Review.fits_toDatum, hclaims]

theorem foldlM_withList (doc : ClaimDocument) :
    (doc.lists.map fun (c, values) => (c.key, .texts values)).foldlM withList
      (PerCategory.replicate none) = some doc.claims := by
  refine PerCategory.foldlM_present (fun t c values => ?_) doc.claims
  simp [withList, Category.ofKey?_key, toTexts?_texts]

theorem ofDatum?_toDatum (doc : ClaimDocument) : ofDatum? doc.toDatum = some doc := by
  have hclaims := foldlM_withList doc
  simp [ofDatum?, toDatum, Datum.get?, List.lookup_cons, Datum.toText?, Datum.toTable?, hclaims,
    Review.ofDatum?_toDatum]

theorem wellKeyed_shape : shape.wellKeyed Yaml.isKeyText := by decide +kernel

theorem parse_write (doc : ClaimDocument) : parse doc.write = .ok doc := by
  have hread : Yaml.read shape doc.write = .ok doc.toDatum :=
    Yaml.read_write wellKeyed_shape doc.fits_toDatum
  rw [parse, hread, Outcome.ok_bind, ofDatum?_toDatum]
  rfl

theorem lists_ofSet (set : ClaimSet) :
    (ofSet set).lists = Category.all.map fun c => (c, (set.values.get c).toList) := by
  simp [lists, ofSet, PerCategory.toList, List.filterMap_map]

theorem flatMap_lists_ofSet (set : ClaimSet) :
    (ofSet set).lists.flatMap (fun (c, values) => values.map (Claim.mk c)) = set.toList := by
  rw [lists_ofSet, List.flatMap_map, ClaimSet.toList]

theorem toSet_ofSet (set : ClaimSet) : (ofSet set).toSet = set := by
  have hclaims := flatMap_lists_ofSet set
  rw [toSet, hclaims]
  exact set.ofClaims_toList

theorem parse_write_and_toSet :
    (∀ doc : ClaimDocument, parse doc.write = .ok doc) ∧
      ∀ set : ClaimSet, ∃ doc, parse (ofSet set).write = .ok doc ∧ doc.toSet = set :=
  ⟨parse_write, fun set => ⟨ofSet set, parse_write (ofSet set), toSet_ofSet set⟩⟩

end ClaimDocument
end DocClaims
