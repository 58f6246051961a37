import DocClaims.Proofs.Pattern.Fits

/-!
# Characters of a pattern

The characters that a pattern fits are among those of its sets and literals. Whether these are
all in a list of ranges is computed.
-/

namespace DocClaims

namespace CharSet

/-- Every member of the item is a member of one of the items. -/
def Item.isIn (items : List Item) : Item → Bool
  | .range first last =>
      items.any fun
        | .range low high => low ≤ first && last ≤ high
        | .one _ => false
  | .one c => items.any (·.has c)

def isIn (items : List Item) : CharSet → Bool
  | .oneOf own => own.all (·.isIn items)
  | .blank | .noneOf _ => false

variable {items : List Item} {item : Item} {set : CharSet} {c : Char}

theorem Item.has_of_isIn (h : item.isIn items) (hc : item.has c) : (oneOf items).has c := by
  cases item with
  | one d =>
      obtain rfl : c = d := beq_iff_eq.1 hc
      exact h
  | range first last =>
      obtain ⟨other, hother, hwider⟩ := List.any_eq_true.1 h
      refine List.any_eq_true.2 ⟨other, hother, ?_⟩
      cases other with
      | one d => cases hwider
      | range low high =>
          simp only [Item.has, Bool.and_eq_true, decide_eq_true_eq] at hc hwider ⊢
          exact ⟨Char.le_trans hwider.1 hc.1, Char.le_trans hc.2 hwider.2⟩

theorem has_of_isIn (h : set.isIn items) (hc : set.has c) : (oneOf items).has c := by
  cases set with
  | oneOf own =>
      obtain ⟨item, hitem, hhas⟩ := List.any_eq_true.1 hc
      exact Item.has_of_isIn (List.all_eq_true.1 h item hitem) hhas
  | blank | noneOf => cases h

end CharSet

namespace Pattern

/-- The pattern fits no characters but those of the items. -/
def isOver (items : List CharSet.Item) : Pattern → Bool
  | literal s => s.toList.all (CharSet.oneOf items).has
  | one set | run _ set => set.isIn items
  | seq p q | either p q => p.isOver items && q.isOver items
  | optional p | group p => p.isOver items
  | boundary => true

theorem Fits.has_of_isOver {p : Pattern} {items : List CharSet.Item} {b a : Option Char}
    {s : List Char} {m m' : Option (List Char)} (h : p.Fits b s a m m') (hp : p.isOver items) :
    ∀ c ∈ s, (CharSet.oneOf items).has c := by
  induction p generalizing b s a m m' with
  | literal w =>
      obtain ⟨rfl, -⟩ := h
      exact List.all_eq_true.1 hp
  | one set =>
      obtain ⟨⟨c, rfl, hc⟩, -⟩ := h
      rw [List.forall_mem_singleton]
      exact CharSet.has_of_isIn hp hc
  | run least set =>
      obtain ⟨⟨-, hs⟩, -⟩ := h
      exact fun c hc => CharSet.has_of_isIn hp (hs c hc)
  | seq p q ihp ihq =>
      obtain ⟨hfirst, hsecond⟩ := Bool.and_eq_true_iff.1 hp
      obtain ⟨t, u, k, rfl, ht, hu⟩ := h
      exact List.forall_mem_append.2 ⟨ihp ht hfirst, ihq hu hsecond⟩
  | either p q ihp ihq =>
      obtain ⟨hfirst, hsecond⟩ := Bool.and_eq_true_iff.1 hp
      rcases h with h | h
      · exact ihp h hfirst
      · exact ihq h hsecond
  | optional p ih =>
      rcases h with h | ⟨rfl, -⟩
      · exact ih h hp
      · simp
  | group p ih =>
      obtain ⟨⟨k, h⟩, -⟩ := h
      exact ih h hp
  | boundary =>
      obtain ⟨⟨rfl, -⟩, -⟩ := h
      simp

end Pattern
end DocClaims
