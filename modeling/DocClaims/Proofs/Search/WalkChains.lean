import DocClaims.Proofs.Search.Chain
import DocClaims.Proofs.Search.Walks

/-!
# Chains of just the walk

A chain may have no backend but the walk. As long as that stays in time, all its searches of a
directory have an outcome, and the hits are those of the tree alone.
-/

namespace DocClaims

open Text (Bytes)

namespace Walk

variable {files : FileTree} {clock : Clock} {exts : Extensions} {limit : Nat} {q : Query}
  {filter : Option FileFilter}

/-- The hits of a walk that is in time. There are none if an extension makes no glob, since the
walk fails then. -/
def hits (files : FileTree) (exts : Extensions) (q : Query) : List Hit :=
  match exts.filter q.fileClass with
  | .ok filter => (files.visits q.root).flatMap (hitsAt files q filter)
  | .error _ => []

theorem hits_of_filter (h : exts.filter q.fileClass = .ok filter) :
    hits files exts q = (files.visits q.root).flatMap (hitsAt files q filter) := by
  rw [hits, h]

theorem search_of_fault {fault : Glob.Fault} (h : exts.filter q.fileClass = .error fault)
    (hroom : clock 0 + limit < clockEnd) :
    search files clock exts limit q =
      .ok (.error (.failed name "invalid glob" fault.message)) := by
  rw [search, if_neg (Nat.not_le.2 hroom), h]

/-- A walk in time ends, with its hits unless it fails. -/
theorem search_eq_hits (exts : Extensions) (h : InTime files clock limit q.root) :
    search files clock exts limit q = .ok (.ok (hits files exts q)) ∨
      hits files exts q = [] ∧
        ∃ failure, search files clock exts limit q = .ok (.error failure) := by
  cases hfilter : exts.filter q.fileClass with
  | ok filter =>
      left
      rw [search_of_inTime hfilter h, hits_of_filter hfilter]
  | error fault =>
      right
      refine ⟨?_, _, search_of_fault hfilter h.1⟩
      rw [hits, hfilter]

end Walk

namespace SearchChain

variable {chain : SearchChain} {files : FileTree} {exts : Extensions} {root : Bytes}

/-- The walk is the only backend of the chain, and in searches of the directory it is in time. -/
inductive WalksInTime (chain : SearchChain) (files : FileTree) (exts : Extensions)
    (root : Bytes) : Prop
  | intro (limit : Nat) (surroundings : Query → Surroundings) :
      chain.searchers = [Placement.searcher ⟨.walk, exts, limit, surroundings⟩] →
      (∀ q, q.root = root → (surroundings q).files = files ∧
        Walk.InTime files (surroundings q).clock limit root) →
      WalksInTime chain files exts root

theorem WalksInTime.exists_search (h : chain.WalksInTime files exts root) (pattern : String)
    (k : FileClass) :
    ∃ o, chain.search ⟨pattern, root, k⟩ = .ok o ∧
      o.hits = Walk.hits files exts ⟨pattern, root, k⟩ := by
  obtain ⟨limit, surroundings, hchain, htime⟩ := h
  obtain ⟨hfiles, htime⟩ := htime ⟨pattern, root, k⟩ rfl
  have hask := Placement.ask_of_walk (p := ⟨.walk, exts, limit, surroundings⟩)
    (q := ⟨pattern, root, k⟩) rfl
  rw [hfiles] at hask
  rcases Walk.search_eq_hits (q := ⟨pattern, root, k⟩) exts htime with
    hsearch | ⟨hnone, failure, hsearch⟩
  · refine ⟨⟨[], some (Walk.hits files exts ⟨pattern, root, k⟩)⟩, ?_, rfl⟩
    rw [search_eq_ok_iff, hchain]
    exact .answered (hask.trans hsearch)
  · refine ⟨⟨[failure], none⟩, ?_, hnone.symm⟩
    rw [search_eq_ok_iff, hchain]
    exact .failed (hask.trans hsearch) .exhausted

theorem WalksInTime.hits_eq (h : chain.WalksInTime files exts root) {pattern : String}
    {k : FileClass} {o : SearchOutcome} (ho : chain.search ⟨pattern, root, k⟩ = .ok o) :
    o.hits = Walk.hits files exts ⟨pattern, root, k⟩ := by
  obtain ⟨other, hother, hhits⟩ := h.exists_search pattern k
  obtain rfl := Except.ok.inj (ho.symm.trans hother)
  exact hhits

/-- A chain that is set up with the walk alone, where no time passes. -/
def walkOnly (files : FileTree) (exts : Extensions) : SearchChain :=
  ⟨[Backend.walk.searcher ⟨files, fun _ => none, fun _ => 0⟩ exts 1]⟩

theorem walksInTime_walkOnly (files : FileTree) (exts : Extensions) (root : Bytes) :
    (walkOnly files exts).WalksInTime files exts root :=
  .intro 1 (fun _ => ⟨files, fun _ => none, fun _ => 0⟩) rfl
    fun _ _ => ⟨rfl, Walk.inTime_zero files root⟩

end SearchChain
end DocClaims
