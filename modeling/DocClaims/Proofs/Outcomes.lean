import Mathlib.Data.List.Forall2

/-!
# Computations that may fail

When a computation built from smaller ones succeeds.
-/

namespace DocClaims
namespace Outcome

variable {ε ε' α β : Type}

theorem bind_eq_ok_iff {x : Except ε α} {f : α → Except ε β} {b : β} :
    x >>= f = .ok b ↔ ∃ a, x = .ok a ∧ f a = .ok b := by
  cases x <;> simp [bind, Except.bind]

theorem pure_eq_ok_iff {a b : α} : (pure a : Except ε α) = .ok b ↔ a = b := by
  simp [pure, Except.pure]

theorem mapError_eq_ok_iff {x : Except ε α} {f : ε → ε'} {a : α} :
    x.mapError f = .ok a ↔ x = .ok a := by
  constructor
  · intro h
    cases x with
    | error e => cases h
    | ok b => rw [Except.ok.inj h]
  · rintro rfl
    rfl

@[simp] theorem ok_bind (a : α) (f : α → Except ε β) : (Except.ok a >>= f) = f a := rfl

@[simp] theorem pure_eq_ok (a : α) : (pure a : Except ε α) = .ok a := rfl

/-! ### One result for each element of a list -/

variable {f : α → Except ε β} {xs : List α} {ys : List β}

theorem mapM_nil_eq_ok_iff : ([] : List α).mapM f = .ok ys ↔ ys = [] := by
  rw [List.mapM_nil, pure_eq_ok_iff]
  exact eq_comm

theorem mapM_cons_eq_ok_iff {x : α} :
    (x :: xs).mapM f = .ok ys ↔
      ∃ y rest, f x = .ok y ∧ xs.mapM f = .ok rest ∧ ys = y :: rest := by
  simp only [List.mapM_cons, bind_eq_ok_iff, pure_eq_ok_iff]
  constructor
  · rintro ⟨y, hy, rest, hrest, rfl⟩
    exact ⟨y, rest, hy, hrest, rfl⟩
  · rintro ⟨y, rest, hy, hrest, rfl⟩
    exact ⟨y, hy, rest, hrest, rfl⟩

theorem mapM_eq_ok {g : α → β} (h : ∀ x ∈ xs, f x = .ok (g x)) : xs.mapM f = .ok (xs.map g) := by
  induction xs with
  | nil => rfl
  | cons x xs ih =>
      have hrest := ih fun y hy => h y (by simp [hy])
      exact mapM_cons_eq_ok_iff.2 ⟨g x, xs.map g, h x (by simp), hrest, rfl⟩

theorem exists_mapM_eq_ok_iff : (∃ ys, xs.mapM f = .ok ys) ↔ ∀ x ∈ xs, ∃ y, f x = .ok y := by
  induction xs with
  | nil => simp
  | cons x xs ih =>
      rw [List.forall_mem_cons, ← ih]
      constructor
      · rintro ⟨ys, h⟩
        obtain ⟨y, rest, hy, hrest, -⟩ := mapM_cons_eq_ok_iff.1 h
        exact ⟨⟨y, hy⟩, rest, hrest⟩
      · rintro ⟨⟨y, hy⟩, rest, hrest⟩
        exact ⟨_, mapM_cons_eq_ok_iff.2 ⟨y, rest, hy, hrest, rfl⟩⟩

/-- The results belong to the elements, one by one. -/
theorem mapM_eq_ok_iff_forall₂ : xs.mapM f = .ok ys ↔ List.Forall₂ (fun x y => f x = .ok y) xs ys := by
  induction xs generalizing ys with
  | nil => rw [mapM_nil_eq_ok_iff, List.forall₂_nil_left_iff]
  | cons x xs ih =>
      rw [mapM_cons_eq_ok_iff, List.forall₂_cons_left_iff]
      simp only [ih]

theorem mem_iff_of_mapM (h : xs.mapM f = .ok ys) {y : β} : y ∈ ys ↔ ∃ x ∈ xs, f x = .ok y := by
  induction xs generalizing ys with
  | nil => simp [mapM_nil_eq_ok_iff.1 h]
  | cons x xs ih =>
      obtain ⟨z, rest, hz, hrest, rfl⟩ := mapM_cons_eq_ok_iff.1 h
      simp [ih hrest, hz, eq_comm (a := y)]

theorem map_eq_map_of_mapM {γ : Type} {g : β → γ} {k : α → γ} (h : xs.mapM f = .ok ys)
    (hg : ∀ x y, f x = .ok y → k x = g y) : ys.map g = xs.map k := by
  induction xs generalizing ys with
  | nil => simp [mapM_nil_eq_ok_iff.1 h]
  | cons x xs ih =>
      obtain ⟨y, rest, hy, hrest, rfl⟩ := mapM_cons_eq_ok_iff.1 h
      rw [List.map_cons, List.map_cons, hg x y hy, ih hrest]

/-- The elements come back from their results if each of them does. -/
theorem map_eq_of_mapM {g : β → α} (h : xs.mapM f = .ok ys) (hg : ∀ x y, f x = .ok y → g y = x) :
    ys.map g = xs := by
  rw [map_eq_map_of_mapM h fun x y hy => (hg x y hy).symm, List.map_id']

end Outcome
end DocClaims
