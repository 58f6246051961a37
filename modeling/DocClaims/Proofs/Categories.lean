import DocClaims.PerCategory
import DocClaims.Data.Datum

/-!
# Entries by category

A table that lacks some categories is rebuilt from the entries it has, and a key
names one category only.
-/

namespace DocClaims

theorem Category.mem_all (c : Category) : c ∈ Category.all := by
  cases c <;> decide

theorem Category.ofKey?_key (c : Category) : Category.ofKey? c.key = some c := by
  cases c <;> decide

namespace PerCategory

variable {α : Type}

def present (t : PerCategory (Option α)) : List (Category × α) :=
  t.toList.filterMap fun (c, a) => a.map (c, ·)

def setEach (t : PerCategory (Option α)) (entries : List (Category × α)) :
    PerCategory (Option α) :=
  entries.foldl (fun t (c, a) => t.set c (some a)) t

theorem get_setEach (t u : PerCategory (Option α)) (cs : List Category)
    (h : ∀ c ∈ cs, u.get c = none ∨ u.get c = t.get c) (d : Category) :
    (u.setEach (cs.filterMap fun c => (t.get c).map (c, ·))).get d =
      if d ∈ cs then t.get d else u.get d := by
  induction cs generalizing u with
  | nil => rfl
  | cons c cs ih =>
      cases hc : t.get c with
      | none =>
          have hrest : (c :: cs).filterMap (fun c => (t.get c).map (c, ·)) =
              cs.filterMap (fun c => (t.get c).map (c, ·)) := by
            simp [hc]
          have hnone : u.get c = none := by simpa [hc] using h c
          rw [hrest, ih u fun e he => h e (by simp [he])]
          by_cases hd : d = c
          · simp [hd, hc, hnone]
          · simp [hd]
      | some a =>
          have hrest : (c :: cs).filterMap (fun c => (t.get c).map (c, ·)) =
              (c, a) :: cs.filterMap (fun c => (t.get c).map (c, ·)) := by
            simp [hc]
          have hset : ∀ e ∈ cs, (u.set c (some a)).get e = none ∨
              (u.set c (some a)).get e = t.get e := by
            intro e he
            rw [get_set]
            split
            · next heq => exact .inr (heq ▸ hc.symm)
            · exact h e (by simp [he])
          rw [hrest, setEach, List.foldl_cons, ← setEach, ih _ hset, get_set]
          by_cases hd : d = c
          · simp [hd, hc]
          · simp [hd, Ne.symm hd]

theorem setEach_present (t : PerCategory (Option α)) : (replicate none).setEach t.present = t := by
  have hpresent : t.present = Category.all.filterMap fun c => (t.get c).map (c, ·) := by
    rw [present, toList, List.filterMap_map]
    rfl
  ext c
  rw [hpresent, get_setEach t _ _ (by simp), if_pos (Category.mem_all c)]

variable {f : PerCategory (Option α) → String × Datum → Option (PerCategory (Option α))}
  {encode : α → Datum}

theorem foldlM_setEach (hf : ∀ t c a, f t (c.key, encode a) = some (t.set c (some a)))
    (entries : List (Category × α)) (t : PerCategory (Option α)) :
    (entries.map fun (c, a) => (c.key, encode a)).foldlM f t = some (t.setEach entries) := by
  induction entries generalizing t with
  | nil => rfl
  | cons e entries ih =>
      rw [List.map_cons, List.foldlM_cons, hf]
      exact ih _

/-- A table is read from its entries when each of them is. -/
theorem foldlM_present (hf : ∀ t c a, f t (c.key, encode a) = some (t.set c (some a)))
    (t : PerCategory (Option α)) :
    (t.present.map fun (c, a) => (c.key, encode a)).foldlM f (replicate none) = some t := by
  rw [foldlM_setEach hf, setEach_present]

end PerCategory
end DocClaims
