import PatternSampler.Proofs.Generation.Trace
import PatternSampler.Proofs.SymbolSet.Indexing

/-! # Picking a symbol

  A symbol of a set is picked by its index. The index is drawn below the size of the set, and
  the indices below the size are the members in their order, so there is a member for every
  draw: picking fails for an empty set and for nothing else.

  `sampling_orderIso` puts together what is known of sizes, of indices and of picks.
-/

namespace PatternSampler

namespace Action

variable {σ : Type} [WordSource σ] {s : SymbolSet}

/-- Nothing is drawn for a set without members. -/
theorem pick_of_empty (empty : ∀ x, x ∉ s) (context : String) (run : Run σ) :
    pick s context run = .error (.noSymbol context) run := by
  have no_size : s.size = 0 := by
    apply Nat.eq_zero_of_not_pos
    intro pos
    obtain ⟨x, x_mem⟩ := SymbolSet.size_pos_iff.1 pos
    exact empty x x_mem
  unfold pick
  simp only [no_size, if_true]
  rfl

/-- Every draw below the size of a set has a member, so one draw is all it takes. -/
theorem pick_of_mem (some_symbol : ∃ x, x ∈ s) (context : String) (run : Run σ) :
    let drawn := WordSource.between run.source .double 0 (s.size - 1)
    ∃ x ∈ s, s.nth? drawn.1 = some x ∧
      pick s context run = .ok x { run with source := drawn.2 } := by
  intro drawn
  have pos : 0 < s.size := SymbolSet.size_pos_iff.2 some_symbol
  have below : drawn.1 < s.size := by
    have last := (WordSource.between_bounds run.source .double (Nat.zero_le (s.size - 1))).2
    have last : drawn.1 ≤ s.size - 1 := last
    omega
  obtain ⟨x, found⟩ := Option.isSome_iff_exists.1 (SymbolSet.nth?_isSome_iff.2 below)
  refine ⟨x, SymbolSet.mem_of_nth? found, found, ?_⟩
  have draw_ok : drawing (WordSource.between · .double 0 (s.size - 1)) run =
      .ok drawn.1 { run with source := drawn.2 } := rfl
  unfold pick
  simp only [Nat.ne_of_gt pos, if_false]
  -- after the draw the index is looked up, and the other failure is out of reach
  show (drawing (WordSource.between · .double 0 (s.size - 1)) >>= _) run = _
  rw [bind_of_ok draw_ok]
  simp only [found]
  rfl

end Action

namespace SymbolSet

variable {s : SymbolSet}

/-- Sampling a canonical set goes through an order isomorphism.

    - The size is the number of members, and the indices below it are those that name a symbol.
    - They name the members in their order, each member once.
    - Computed in words of 64 and 32 bits, all of this comes out the same: no sum is too large,
      and nothing is subtracted from a smaller number.
    - Picking from the empty set fails and draws nothing. From any other set it draws one index
      below the size and gives the member at that index, whatever the kind of the source. -/
theorem sampling_orderIso (canonical : s.Canonical) :
    {x | x ∈ s}.ncard = s.size ∧
    (∀ index, (s.nth? index).isSome ↔ index < s.size) ∧
    (∃ iso : Fin s.size ≃o {x // x ∈ s}, ∀ index : Fin s.size,
      s.nth? index = some (iso index).val) ∧
    (∀ x, x ∈ s ↔ ∃! index, s.nth? index = some x) ∧
    (s.size ≤ 2 ^ 32 ∧ s.sizeInWords = some (UInt64.ofNat s.size) ∧
      ∀ index, s.nthInWords? index = some (s.nth? index.toNat)) ∧
    (∀ {σ : Type} [WordSource σ] context (run : Run σ), (∀ x, x ∉ s) →
      Action.pick s context run = .error (.noSymbol context) run) ∧
    (∀ {σ : Type} [WordSource σ] context (run : Run σ), (∃ x, x ∈ s) →
      let drawn := WordSource.between run.source .double 0 (s.size - 1)
      ∃ x ∈ s, s.nth? drawn.1 = some x ∧
        Action.pick s context run = .ok x { run with source := drawn.2 }) := by
  refine ⟨ncard_eq_size canonical, fun _ => nth?_isSome_iff, ?_, ?_, ?_, ?_, ?_⟩
  · exact ⟨indexIso canonical, s.nth?_eq_member⟩
  · intro x
    exact mem_iff_existsUnique_index canonical
  · exact ⟨canonical.size_le, sizeInWords_eq canonical, nthInWords?_eq canonical.ordered⟩
  · intro σ _ context run empty
    exact Action.pick_of_empty empty context run
  · intro σ _ context run some_symbol
    exact Action.pick_of_mem some_symbol context run

/-- The set of all symbols has one member more than the greatest 32-bit number, and its last
    index names that number. Nothing can be picked from the set without symbols. -/
theorem sampling_orderIso_all_symbols :
    let all : SymbolSet := ⟨[⟨0, 0xFFFFFFFF⟩]⟩
    let run := Run.start (Source.seeded 7)
    all.Canonical ∧ {x | x ∈ all}.ncard = 2 ^ 32 ∧ all.sizeInWords = some 0x100000000 ∧
      all.nthInWords? 0xFFFFFFFF = some (some 0xFFFFFFFF) ∧
      (∃ x ∈ all, ∃ source, Action.pick all "the wildcard" run = .ok x { run with source }) ∧
      empty.Canonical ∧
      Action.pick empty "a character class" run = .error (.noSymbol "a character class") run := by
  intro all run
  have canonical : all.Canonical := by decide
  have size_eq : all.size = 2 ^ 32 := by decide
  obtain ⟨card, -, -, -, ⟨-, words, nth_words⟩, -, picks⟩ := sampling_orderIso canonical
  obtain ⟨x, x_mem, -, picked⟩ := picks "the wildcard" run ⟨0, by decide⟩
  obtain ⟨-, -, -, -, -, fails, -⟩ := sampling_orderIso canonical_empty
  refine ⟨canonical, ?_, ?_, ?_, ⟨x, x_mem, _, picked⟩, canonical_empty, ?_⟩
  · rw [card, size_eq]
  · rw [words, size_eq]
    rfl
  · rw [nth_words]
    decide
  · exact fails "a character class" run not_mem_empty

end SymbolSet

end PatternSampler
