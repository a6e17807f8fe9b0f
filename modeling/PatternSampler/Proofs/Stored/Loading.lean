import PatternSampler.Proofs.Stored.RoundTrip

/-! # What loading admits

  A tree that is loaded has passed the check, and the check is weaker than what is true of
  compiled trees: it does not look at how nodes are nested, at the names of groups and at the
  ends of the intervals in brackets. So a tree may be loaded that no pattern is compiled to
  (`ofBytes_repeated_repetition`). The loaded trees that are compiled ones as well are those
  that meet the rest of the conditions (`exists_compile_iff_of_ofBytes`).
-/

namespace PatternSampler

namespace Pattern

open Stored

section

variable [UnicodeClasses] {m : Mode} {bytes : List UInt8} {q : Pattern m}

/-- Loading lets no tree through that does not pass the check. -/
theorem checkTree_of_ofBytes (loaded : ofBytes m bytes = .ok q) : checkTree m q.tree = .ok () := by
  unfold ofBytes at loaded
  split at loaded
  · cases loaded
  · rename_i stored tree rest read_eq
    split at loaded
    · split at loaded
      · rename_i checked
        cases loaded
        exact checked
      · cases loaded
    · cases loaded

/-- What is compiled from some pattern is normal, and everything that is normal is compiled from
    the pattern it is written as. -/
theorem exists_compile_iff : (∃ p, compile m p = .ok q) ↔ q.tree.Normal m.alphabet := by
  constructor
  · rintro ⟨p, compiled⟩
    exact (Notation.everywhere_of_parse (compile_eq_ok_iff.1 compiled)).1
  · intro normal
    exact ⟨q.tree.pattern m, compile_pattern normal⟩

/-- A loaded tree passes the check everywhere, and a pattern is compiled to it exactly if it also
    meets everywhere the conditions that the check leaves out. -/
theorem exists_compile_iff_of_ofBytes (loaded : ofBytes m bytes = .ok q) :
    q.tree.Everywhere (CheckedNode m) ∧
      ((∃ p, compile m p = .ok q) ↔ q.tree.Everywhere (NestedNode m.alphabet)) := by
  have checked := checkTree_eq_ok_iff.1 (checkTree_of_ofBytes loaded)
  refine ⟨checked, ?_⟩
  rw [exists_compile_iff]
  constructor
  · intro normal
    exact normal.imp fun _ node => (normalNode_iff.1 node).2
  · intro nested
    exact (checked.and nested).imp fun _ node => normalNode_iff.2 node

end

/-- The stored form of the pattern `a*` of text is loaded, and a pattern is compiled to its
    tree. -/
theorem ofBytes_repetition :
    let q : Pattern .text := ⟨.times (.literal 0x61) 0 none⟩
    ofBytes .text [0x00, 0x07, 0x00, 0x61, 0x00, 0x00, 0x01] = .ok q ∧
      ∃ p, compile .text p = .ok q := by
  intro q
  have loaded : ofBytes .text [0x00, 0x07, 0x00, 0x61, 0x00, 0x00, 0x01] = .ok q := by
    rfl
  have nested : q.tree.Everywhere (NestedNode Mode.text.alphabet) := by
    simp [q, Tree.times, Tree.Everywhere, NestedNode, Tree.IsQuantifiable]
  exact ⟨loaded, (exists_compile_iff_of_ofBytes loaded).2.2 nested⟩

/-- The bytes of a repetition that is repeated at once, as in `a**`, are loaded. No pattern is
    compiled to such a tree. -/
theorem ofBytes_repeated_repetition :
    let q : Pattern .text := ⟨.times (.times (.literal 0x61) 0 none) 0 none⟩
    ofBytes .text [0x00, 0x07, 0x07, 0x00, 0x61, 0x00, 0x00, 0x01, 0x00, 0x00, 0x01] = .ok q ∧
      ¬ ∃ p, compile .text p = .ok q := by
  intro q
  have loaded : ofBytes .text
      [0x00, 0x07, 0x07, 0x00, 0x61, 0x00, 0x00, 0x01, 0x00, 0x00, 0x01] = .ok q := by
    rfl
  refine ⟨loaded, fun compiled => ?_⟩
  have normal := exists_compile_iff.1 compiled
  exact normal.self.1

end Pattern

end PatternSampler
