import PatternSampler.Proofs.Alphabet
import PatternSampler.Proofs.Generation.Picking
import PatternSampler.Proofs.Notation.RoundTrip

/-! # Shorthands inside and outside of brackets

  A shorthand can be written by itself, in a bracket, or as its opposite in a negated bracket.
  The set to choose from is then made in three ways: `\d` is resolved when the value is
  generated, `[\d]` when the pattern is read and restricted to the alphabet later, and `[^\D]`
  takes away from the alphabet what `\D` rules out. All three are the same list of intervals, so
  the same draw gives the same symbol.

  The two sets of a shorthand and the two sets of its opposite come from two readings of the
  class only: a shorthand is resolved under one of them, and its opposite rules symbols out under
  the same one (`mem_resolve_iff`, `mem_resolveExcluded_iff`). What does not belong to a
  shorthand belongs to its opposite. All sets are canonical, so that it is enough to look at their
  members. The extents only have to be canonical for this. That they contain the ASCII classes
  keeps a shorthand and its opposite apart, and that they are the ASCII classes makes the two
  exhaust the alphabet. `shorthand_inside_and_outside` puts this together with what the three
  patterns are read as.
-/

namespace PatternSampler

/-! ## The sets of a shorthand and of its opposite -/

namespace Alphabet

variable {a : Alphabet} {x : Symbol}

/-- The reading of classes that a shorthand is resolved under. -/
def reading (a : Alphabet) (k : Shorthand) : CharClass → SymbolSet :=
  if k.negated then a.extent else CharClass.ascii

/-- What does not belong to a shorthand belongs to its opposite. -/
theorem belongs_opposite_iff {reading : CharClass → SymbolSet} {k : Shorthand} :
    Belongs reading k.opposite x ↔ ¬ Belongs reading k x := by
  obtain ⟨c, negated⟩ := k
  cases negated with
  | false => exact Iff.rfl
  | true => exact not_not.symm

/-- A shorthand stands for what belongs to it under its reading. -/
theorem mem_resolve_iff (sets : a.CanonicalSets) {k : Shorthand} :
    x ∈ a.resolve k ↔ x ∈ a.full ∧ Belongs (a.reading k) k x := by
  obtain ⟨c, negated⟩ := k
  cases negated with
  | false => exact SymbolSet.mem_intersection sets.full (CharClass.canonical_ascii c)
  | true => exact mem_complement (sets.extent c)

/-- A shorthand rules out what belongs to it under the reading of its opposite. -/
theorem mem_resolveExcluded_iff (sets : a.CanonicalSets) {k : Shorthand} :
    x ∈ a.resolveExcluded k ↔ x ∈ a.full ∧ Belongs (a.reading k.opposite) k x := by
  obtain ⟨c, negated⟩ := k
  cases negated with
  | false => exact SymbolSet.mem_intersection sets.full (sets.extent c)
  | true => exact mem_complement (CharClass.canonical_ascii c)

/-- What is left when the symbols of a shorthand are ruled out is what its opposite stands
    for. -/
theorem complement_resolveExcluded (sets : a.CanonicalSets) (k : Shorthand) :
    a.complement (a.resolveExcluded k) = a.resolve k.opposite := by
  apply SymbolSet.eq_of_mem_iff (sets.complement (sets.resolveExcluded k)) (sets.resolve k.opposite)
  intro x
  rw [mem_complement (sets.resolveExcluded k), mem_resolveExcluded_iff sets, mem_resolve_iff sets,
    belongs_opposite_iff]
  tauto

/-- All symbols but those that a shorthand stands for are what its opposite rules out. -/
theorem complement_resolve (sets : a.CanonicalSets) (k : Shorthand) :
    a.complement (a.resolve k) = a.resolveExcluded k.opposite := by
  apply SymbolSet.eq_of_mem_iff (sets.complement (sets.resolve k)) (sets.resolveExcluded k.opposite)
  intro x
  rw [mem_complement (sets.resolve k), mem_resolve_iff sets, mem_resolveExcluded_iff sets,
    belongs_opposite_iff, Shorthand.opposite_opposite]
  tauto

/-- What a shorthand stands for lies in the alphabet already. -/
theorem restrict_resolve (sets : a.CanonicalSets) (k : Shorthand) :
    a.restrict (a.resolve k) = a.resolve k := by
  apply SymbolSet.eq_of_mem_iff (sets.restrict (sets.resolve k)) (sets.resolve k)
  intro x
  have mem_restrict : x ∈ a.restrict (a.resolve k) ↔ x ∈ a.full ∧ x ∈ a.resolve k :=
    SymbolSet.mem_intersection sets.full (sets.resolve k)
  rw [mem_restrict, mem_resolve_iff sets]
  tauto

/-- If the extent contains the ASCII class, nothing belongs to a shorthand and to its opposite,
    each under its own reading. -/
theorem not_mem_resolve_opposite (sets : a.CanonicalSets) {k : Shorthand}
    (wide : ∀ x ∈ k.charClass.ascii, x ∈ a.extent k.charClass) (mem : x ∈ a.resolve k) :
    x ∉ a.resolve k.opposite := by
  intro mem_opposite
  have belongs := ((mem_resolve_iff sets).1 mem).2
  have belongs_opposite := ((mem_resolve_iff sets).1 mem_opposite).2
  -- one of the two is in the ASCII class, and the other is outside the extent
  obtain ⟨c, negated⟩ := k
  cases negated with
  | false => exact belongs_opposite (wide x belongs)
  | true => exact belongs (wide x belongs_opposite)

/-- If the extent is the ASCII class, a shorthand and its opposite share out the alphabet. -/
theorem union_resolve_opposite (sets : a.CanonicalSets) {k : Shorthand}
    (narrow : a.extent k.charClass = k.charClass.ascii) :
    (a.resolve k).union (a.resolve k.opposite) = a.full := by
  have canonical : ((a.resolve k).union (a.resolve k.opposite)).Canonical :=
    SymbolSet.canonical_union (sets.resolve k).ordered (sets.resolve k.opposite).ordered
  apply SymbolSet.eq_of_mem_iff canonical sets.full
  intro x
  -- both readings are the same one
  have one_reading : ∀ k' : Shorthand, k'.charClass = k.charClass →
      (Belongs (a.reading k') k' x ↔ Belongs CharClass.ascii k' x) := by
    rintro ⟨c, negated⟩ rfl
    cases negated with
    | false => exact Iff.rfl
    | true => exact not_congr (iff_of_eq (congrArg (x ∈ ·) narrow))
  rw [SymbolSet.mem_union, mem_resolve_iff sets, mem_resolve_iff sets, one_reading k rfl,
    one_reading k.opposite rfl, belongs_opposite_iff]
  tauto

end Alphabet

/-! ## Choosing from equal sets -/

namespace Script

variable {σ : Type} [WordSource σ] {set : SymbolSet} {limit : Option Nat}

/-- The context of a choice is told in failures only, and choosing from a set with a symbol does
    not fail. -/
theorem pick_eq_of_mem (some_symbol : ∃ x, x ∈ set) (context context' : String) :
    (Action.pick set context : Action σ Symbol) = Action.pick set context' := by
  funext run
  obtain ⟨x, -, found, picked⟩ := Action.pick_of_mem some_symbol context run
  obtain ⟨y, -, found', picked'⟩ := Action.pick_of_mem some_symbol context' run
  have same : x = y := Option.some.inj (found.symm.trans found')
  rw [picked, picked', same]

/-- Writing a symbol of a set that has one takes one step and nothing else that could fail. -/
theorem generate_choice_of_mem (some_symbol : ∃ x, x ∈ set) (context : String) {limit : Nat}
    (one_step : 0 < limit) (source : σ) :
    ∃ x ∈ set, ∃ source', (sequence [choice set context]).generate (some limit) source =
      (.ok [x], source') := by
  obtain ⟨x, x_mem, -, picked⟩ := Action.pick_of_mem some_symbol context (.start source)
  let middle : Run σ := .start (WordSource.between source .double 0 (set.size - 1)).2
  have picked : Action.pick set context (.start source) = .ok x middle := picked
  have written : Action.write (some limit) x middle = .ok () ⟨middle.source, 1, #[x]⟩ := by
    have not_past : ¬ limit < 1 := Nat.not_lt.2 one_step
    have step_eq : Action.step (some limit) middle = .ok () { middle with steps := 1 } := by
      show (if limit < 1 then _ else _) = _
      rw [if_neg not_past]
      rfl
    unfold Action.write
    rw [Action.bind_of_ok step_eq]
    rfl
  have performed : (sequence [choice set context]).perform (some limit) (.start source) =
      .ok () ⟨middle.source, 1, #[x]⟩ := by
    have choice_eq : (choice set context).perform (some limit) (.start source) = _ :=
      (Action.bind_of_ok picked).trans written
    simp only [perform, performAll]
    exact Action.bind_of_ok choice_eq
  refine ⟨x, x_mem, middle.source, ?_⟩
  simp only [generate, performed]

/-- Two scripts that write one symbol of the same set generate the same. -/
theorem generate_choice_eq (some_symbol : ∃ x, x ∈ set) (context context' : String)
    (source : σ) :
    (sequence [choice set context]).generate limit source =
      (sequence [choice set context']).generate limit source := by
  have picks : (Action.pick set context : Action σ Symbol) = Action.pick set context' :=
    pick_eq_of_mem some_symbol context context'
  simp only [generate, perform, performAll, picks]

end Script

namespace Notation

/-! ## Three ways to write a shorthand -/

variable {a : Alphabet}

/-- A draft of one piece is read back over every alphabet. -/
theorem parse_write_leaf {d : Draft} (leaf : d.IsLeaf) (writable : WritableNode d) :
    parse a (write d) = .ok (d.over a) := by
  unfold parse
  rw [read_write (leaf.everywhere writable)]
  rfl

/-- The set of a bracket with one shorthand. -/
theorem covered_shorthand (sets : a.CanonicalSets) (negated : Bool) (k : Shorthand) :
    covered a negated [.shorthand k] = shorthandSet a negated k := by
  apply SymbolSet.eq_of_mem_iff (canonical_covered sets negated _)
    (canonical_shorthandSet sets negated k)
  intro x
  rw [mem_covered fun _ _ mem => by cases List.mem_singleton.1 mem]
  simp only [List.mem_singleton, exists_eq_left]
  rfl

/-- Reading a bracket that holds one shorthand. -/
theorem parse_bracket_shorthand (sets : a.CanonicalSets) (negated : Bool) (k : Shorthand) :
    parse a (write (.bracket [.shorthand k] negated)) =
      .ok (.bracket (if negated then a.resolveExcluded k else a.resolve k) negated) := by
  have writable : WritableNode (.bracket [.shorthand k] negated) :=
    ⟨List.cons_ne_nil _ _, fun _ _ mem => by cases List.mem_singleton.1 mem⟩
  have leaf : Tree.IsLeaf (.bracket [.shorthand k] negated : Draft) := True.intro
  rw [parse_write_leaf leaf writable]
  show Except.ok (Tree.bracket (covered a negated [.shorthand k]) negated) = _
  rw [covered_shorthand sets]
  rfl

/-- Shorthands mean the same inside and outside of brackets, over every alphabet of canonical
    sets.

    - What is left of the alphabet when a shorthand is ruled out, or when what it stands for is
      taken away, is what its opposite stands for, or rules out. What it stands for is in the
      alphabet already. These are equalities of lists of intervals.
    - `[\d]`, `[^\D]` and `\d` are read as three different trees. If there is a digit to choose
      at all, they generate the same with all settings and from every state of the source, and
      where the settings allow one step that is a digit.
    - If the extent contains the ASCII class, a shorthand and its opposite have no symbol in
      common. If it is the ASCII class, they share out the alphabet. -/
theorem shorthand_inside_and_outside (sets : a.CanonicalSets) (k : Shorthand) :
    (a.complement (a.resolveExcluded k) = a.resolve k.opposite ∧
      a.complement (a.resolve k) = a.resolveExcluded k.opposite ∧
      a.restrict (a.resolve k) = a.resolve k) ∧
    (let within := Tree.bracket (a.resolve k) false
      let without := Tree.bracket (a.resolveExcluded k.opposite) true
      parse a (ofChars ['[', '\\', shorthandLetter k, ']']) = .ok within ∧
      parse a (ofChars ['[', '^', '\\', shorthandLetter k.opposite, ']']) = .ok without ∧
      parse a (ofChars ['\\', shorthandLetter k]) = .ok (.shorthand k) ∧
      ((∃ x, x ∈ a.resolve k) → ∀ {σ : Type} [WordSource σ] (settings : Settings) (source : σ),
        within.generate a settings source = (Tree.shorthand k).generate a settings source ∧
        without.generate a settings source = (Tree.shorthand k).generate a settings source ∧
        (0 < settings.expansionLimit → ∃ x ∈ a.resolve k, ∃ source',
          (Tree.shorthand k).generate a settings source = (.ok [x], source')))) ∧
    ((∀ x ∈ k.charClass.ascii, x ∈ a.extent k.charClass) →
      ∀ x ∈ a.resolve k, x ∉ a.resolve k.opposite) ∧
    (a.extent k.charClass = k.charClass.ascii →
      (a.resolve k).union (a.resolve k.opposite) = a.full ∧
      ∀ x ∈ a.resolve k, x ∉ a.resolve k.opposite) := by
  refine ⟨⟨?_, ?_, ?_⟩, ⟨?_, ?_, ?_, ?_⟩, ?_, ?_⟩
  · exact Alphabet.complement_resolveExcluded sets k
  · exact Alphabet.complement_resolve sets k
  · exact Alphabet.restrict_resolve sets k
  · exact parse_bracket_shorthand sets false k
  · exact parse_bracket_shorthand sets true k.opposite
  · have leaf : Tree.IsLeaf (.shorthand k : Draft) := True.intro
    exact parse_write_leaf leaf True.intro
  · intro some_symbol σ _ settings source
    have within_set : a.restrict (a.resolve k) = a.resolve k := Alphabet.restrict_resolve sets k
    have without_set : a.complement (a.resolveExcluded k.opposite) = a.resolve k := by
      rw [Alphabet.complement_resolveExcluded sets, Shorthand.opposite_opposite]
    -- all three scripts are one choice from this set
    refine ⟨?_, ?_, ?_⟩
    · show (Script.sequence [.choice (a.restrict (a.resolve k)) _]).generate _ source = _
      rw [within_set]
      exact Script.generate_choice_eq some_symbol _ _ source
    · show (Script.sequence [.choice (a.complement (a.resolveExcluded k.opposite)) _]).generate
        _ source = _
      rw [without_set]
      exact Script.generate_choice_eq some_symbol _ _ source
    · intro one_step
      exact Script.generate_choice_of_mem some_symbol _ (UInt64.lt_iff_toNat_lt.1 one_step) source
  · intro wide x mem
    exact Alphabet.not_mem_resolve_opposite sets wide mem
  · intro narrow
    refine ⟨Alphabet.union_resolve_opposite sets narrow, fun x mem => ?_⟩
    exact Alphabet.not_mem_resolve_opposite sets (fun x ascii => narrow ▸ ascii) mem

/-- Over an alphabet whose widest reading of a digit is `1` alone, `\D` stands for the other digits
    too, and `[^\d]` writes the same symbol with the same draw. The extent of text contains the
    ASCII word characters, so no character is one and not one; for bytes it is the ASCII class, and
    every byte is either. -/
theorem shorthand_inside_and_outside_narrow_extent :
    let narrow : Alphabet :=
      { full := ⟨[⟨0x30, 0x39⟩, ⟨0xFFFFFFFF, 0xFFFFFFFF⟩]⟩, extent := fun _ => ⟨[⟨0x31, 0x31⟩]⟩ }
    let digit : Shorthand := ⟨.digit, false⟩
    let word : Shorthand := ⟨.word, false⟩
    let without := Tree.bracket (narrow.resolveExcluded digit) true
    narrow.CanonicalSets ∧
    narrow.resolve digit.opposite =
      ⟨[⟨0x30, 0x30⟩, ⟨0x32, 0x39⟩, ⟨0xFFFFFFFF, 0xFFFFFFFF⟩]⟩ ∧
    narrow.complement (narrow.resolveExcluded digit) = narrow.resolve digit.opposite ∧
    parse narrow (ofChars ['[', '^', '\\', 'd', ']']) = .ok without ∧
    without.generate narrow {} (Source.seeded 7) =
      (Tree.shorthand digit.opposite).generate narrow {} (Source.seeded 7) ∧
    (∃ x ∈ narrow.resolve digit.opposite, ∃ source,
      (Tree.shorthand digit.opposite).generate narrow {} (Source.seeded 7) = (.ok [x], source)) ∧
    (∀ x ∈ Alphabet.text.resolve word, x ∉ Alphabet.text.resolve word.opposite) ∧
    (Alphabet.bytes.resolve word).union (Alphabet.bytes.resolve word.opposite) =
      Alphabet.bytes.full := by
  intro narrow digit word without
  have extent_canonical : SymbolSet.Canonical ⟨[⟨0x31, 0x31⟩]⟩ := by decide
  have sets : narrow.CanonicalSets := ⟨by decide, fun _ => extent_canonical⟩
  have some_symbol : ∃ x, x ∈ narrow.resolve digit.opposite := ⟨0xFFFFFFFF, by decide⟩
  obtain ⟨-, ⟨-, parsed, -, generates⟩, -, -⟩ :=
    shorthand_inside_and_outside sets digit.opposite
  obtain ⟨-, -, apart, -⟩ :=
    shorthand_inside_and_outside Alphabet.lawful_text.canonicalSets word
  obtain ⟨-, -, -, share_out⟩ :=
    shorthand_inside_and_outside Alphabet.lawful_bytes.canonicalSets word
  obtain ⟨-, same, chosen⟩ := generates some_symbol {} (Source.seeded 7)
  refine ⟨sets, by decide, ?_, parsed, same, chosen (by decide), ?_, (share_out rfl).1⟩
  · exact (shorthand_inside_and_outside sets digit).1.1
  · exact apart (Alphabet.lawful_text.ascii_subset .word)

end Notation

end PatternSampler
