import DocClaims.Claim

/-!
# One value for each category

A total table over the categories, listed in canonical order.
-/

namespace DocClaims

structure PerCategory (α : Type) where
  classes : α
  interfaces : α
  methods : α
  events : α
  tables : α
  aclResources : α
  configPaths : α
  filePaths : α
  deriving DecidableEq, Repr

namespace PerCategory

variable {α β : Type}

def ofFn (f : Category → α) : PerCategory α :=
  ⟨f .classes, f .interfaces, f .methods, f .events, f .tables, f .aclResources, f .configPaths,
    f .filePaths⟩

def replicate (a : α) : PerCategory α := ofFn fun _ => a

def get (t : PerCategory α) : Category → α
  | .classes => t.classes
  | .interfaces => t.interfaces
  | .methods => t.methods
  | .events => t.events
  | .tables => t.tables
  | .aclResources => t.aclResources
  | .configPaths => t.configPaths
  | .filePaths => t.filePaths

def set (t : PerCategory α) (c : Category) (a : α) : PerCategory α :=
  match c with
  | .classes => ⟨a, t.2, t.3, t.4, t.5, t.6, t.7, t.8⟩
  | .interfaces => ⟨t.1, a, t.3, t.4, t.5, t.6, t.7, t.8⟩
  | .methods => ⟨t.1, t.2, a, t.4, t.5, t.6, t.7, t.8⟩
  | .events => ⟨t.1, t.2, t.3, a, t.5, t.6, t.7, t.8⟩
  | .tables => ⟨t.1, t.2, t.3, t.4, a, t.6, t.7, t.8⟩
  | .aclResources => ⟨t.1, t.2, t.3, t.4, t.5, a, t.7, t.8⟩
  | .configPaths => ⟨t.1, t.2, t.3, t.4, t.5, t.6, a, t.8⟩
  | .filePaths => ⟨t.1, t.2, t.3, t.4, t.5, t.6, t.7, a⟩

def modify (t : PerCategory α) (c : Category) (f : α → α) : PerCategory α := t.set c (f (t.get c))

def map (f : α → β) (t : PerCategory α) : PerCategory β := ofFn fun c => f (t.get c)

def toList (t : PerCategory α) : List (Category × α) := Category.all.map fun c => (c, t.get c)

@[simp] theorem get_ofFn (f : Category → α) (c : Category) : (ofFn f).get c = f c := by
  cases c <;> rfl

@[simp] theorem get_replicate (a : α) (c : Category) : (replicate a).get c = a := get_ofFn _ c

@[simp] theorem get_map (f : α → β) (t : PerCategory α) (c : Category) :
    (t.map f).get c = f (t.get c) := get_ofFn _ c

theorem get_set (t : PerCategory α) (c d : Category) (a : α) :
    (t.set c a).get d = if c = d then a else t.get d := by
  cases c <;> cases d <;> rfl

theorem get_modify (t : PerCategory α) (c d : Category) (f : α → α) :
    (t.modify c f).get d = if c = d then f (t.get d) else t.get d := by
  rw [modify, get_set]
  split
  · next h => rw [h]
  · rfl

@[ext] theorem ext {t u : PerCategory α} (h : ∀ c, t.get c = u.get c) : t = u := by
  cases t
  cases u
  exact congr (congr (congr (congr (congr (congr (congr (congrArg mk (h .classes))
    (h .interfaces)) (h .methods)) (h .events)) (h .tables)) (h .aclResources)) (h .configPaths))
    (h .filePaths)

end PerCategory
end DocClaims
