import PatternSampler.Proofs.Alphabet
import PatternSampler.Proofs.SymbolSet.Search
import PatternSampler.Proofs.Tree.Normal
import PatternSampler.Stored.Corruption

/-! # What the check of a stored tree means

  The check reports the first part that is wrong, but whether it passes is a condition on the
  single nodes of a tree (`checkTree_eq_ok_iff`), and that a set is canonical is what reading
  its intervals again tests (`checkSet_eq_ok_iff`). Normal trees meet it, and the rest of what
  makes a tree normal is not checked (`normalNode_iff`).
-/

namespace PatternSampler.Stored

/-- What the check asks of one node. -/
def CheckedNode [UnicodeClasses] (m : Mode) : Tree SymbolSet → Prop
  | .literal s => s ∈ m.alphabet.full
  | .bracket content _ => content.intervals ≠ [] ∧ content.Canonical
  | .alternation branches => 2 ≤ branches.length
  | .repetition _ bounds _ => bounds.Consistent
  | _ => True

theorem checkSet_eq_ok_iff {s : SymbolSet} :
    checkSet s = .ok () ↔ s.intervals ≠ [] ∧ s.Canonical := by
  have reread : SymbolSet.ofIntervals s.intervals = s ↔ s.Canonical :=
    ⟨fun same => same ▸ SymbolSet.canonical_ofIntervals s.intervals,
      SymbolSet.ofIntervals_eq_self⟩
  unfold checkSet
  by_cases no_intervals : s.intervals = []
  · simp [no_intervals]
  · by_cases canonical : s.Canonical
    · simp [no_intervals, canonical, reread]
    · simp [no_intervals, canonical, reread]

theorem checkBounds_eq_ok_iff {bounds : Bounds} :
    checkBounds bounds = .ok () ↔ bounds.Consistent := by
  obtain ⟨least, most⟩ := bounds
  cases most with
  | none => simp [checkBounds, Bounds.Consistent]
  | some most => simp [checkBounds, Bounds.Consistent]

variable [UnicodeClasses] {m : Mode}

theorem checkTrees_eq_ok_iff {ts : List (Tree SymbolSet)} :
    checkTrees m ts = .ok () ↔ ∀ t ∈ ts, checkTree m t = .ok () := by
  induction ts with
  | nil => simp [checkTrees]
  | cons t ts ih =>
    unfold checkTrees
    rw [List.forall_mem_cons, ← ih]
    cases checkTree m t <;> simp [bind, Except.bind]

/-- A tree passes the check when all its nodes are as they should be. -/
theorem checkTree_eq_ok_iff {t : Tree SymbolSet} :
    checkTree m t = .ok () ↔ t.Everywhere (CheckedNode m) := by
  induction t with
  | literal s =>
    have found := @SymbolSet.contains_iff_mem s _ (Alphabet.lawful_mode m).full
    simp [checkTree, Tree.Everywhere, CheckedNode, found]
  | wildcard | shorthand _ | anchor _ => simp [checkTree, Tree.Everywhere, CheckedNode]
  | bracket content negated =>
    unfold checkTree
    exact checkSet_eq_ok_iff
  | concat terms ih =>
    unfold checkTree
    rw [checkTrees_eq_ok_iff, Tree.everywhere_iff, forall₂_congr ih]
    exact (iff_of_eq (true_and _)).symm
  | alternation branches ih =>
    have parts := checkTrees_eq_ok_iff.trans (forall₂_congr ih)
    unfold checkTree
    rw [Tree.everywhere_iff]
    show _ ↔ 2 ≤ branches.length ∧ ∀ u ∈ branches, u.Everywhere (CheckedNode m)
    rw [← parts]
    by_cases few : branches.length < 2
    · simp [few]
    · simp [few, Nat.le_of_not_lt few]
  | group body _ _ ih | look _ body _ ih =>
    unfold checkTree
    rw [ih, Tree.Everywhere]
    exact (iff_of_eq (true_and _)).symm
  | repetition body bounds greedy ih =>
    unfold checkTree
    rw [Tree.Everywhere, ← ih]
    show _ ↔ bounds.Consistent ∧ _
    rw [← checkBounds_eq_ok_iff]
    cases checkBounds bounds <;> simp [bind, Except.bind]

/-! ## Normal trees -/

/-- What is true of the nodes of compiled trees and is not checked when a tree is loaded. -/
def NestedNode (a : Alphabet) : Tree SymbolSet → Prop
  | .bracket content _ => ∀ i ∈ content.intervals, i.low ∈ a.full ∧ i.high ∈ a.full
  | .concat terms => terms.length ≠ 1 ∧ ∀ t ∈ terms, t.IsTerm
  | .alternation branches => ∀ t ∈ branches, t.IsBranch
  | .group _ capturing name => ∀ n, name = some n → capturing = true ∧ ValidName n
  | .repetition body _ _ => body.IsQuantifiable
  | _ => True

/-- The check and what it leaves out are together what makes a node normal. -/
theorem normalNode_iff {t : Tree SymbolSet} :
    t.NormalNode (fun s => s ∈ m.alphabet.full) (Tree.NormalContent m.alphabet) ↔
      CheckedNode m t ∧ NestedNode m.alphabet t := by
  cases t with
  | literal s => exact (and_iff_left trivial).symm
  | bracket content negated =>
    exact ⟨fun h => ⟨⟨h.not_empty, h.canonical⟩, h.ends⟩, fun h => ⟨h.1.1, h.1.2, h.2⟩⟩
  | concat terms => exact (and_iff_right trivial).symm
  | alternation branches => exact Iff.rfl
  | group body capturing name => exact (and_iff_right trivial).symm
  | repetition body bounds greedy => exact and_comm
  | wildcard | shorthand _ | look _ _ _ | anchor _ => exact (and_iff_left trivial).symm

/-- A normal tree passes the check. -/
theorem checkTree_of_normal {t : Tree SymbolSet} (normal : t.Normal m.alphabet) :
    checkTree m t = .ok () :=
  checkTree_eq_ok_iff.2 (normal.imp fun _ node => (normalNode_iff.1 node).1)

end PatternSampler.Stored
