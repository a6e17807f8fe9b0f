import PatternSampler.Proofs.Notation.Refusals

/-! # Where the top level stops early

  Outside all groups, reading stops before the end of a pattern at a parenthesis that closes
  nothing. It also stops at a symbol that is no character, and reports the same fault there:
  such a symbol ends the pieces of a level like the end of the pattern does, so that it is never
  read as a literal.

  `parse_unbalanced_iff` says where the fault is reported. What comes before the place is always
  a pattern of its own, and what comes after it does not matter.
-/

namespace PatternSampler.Notation

open Cursor

variable {position : Nat} {s : Symbol} {symbols tail : List Symbol}

/-- What stops the top level leaves the symbols before it as they are. -/
theorem detached_of_stops (stops : s = .ofChar ')' ∨ Symbol.char? s = none) :
    Detached (s :: tail) := by
  rcases stops with rfl | no_character
  · exact detached_cons (Or.inl rfl)
  · intro ch starts
    obtain rfl : s = Symbol.ofChar ch := Option.some.inj starts
    rw [Symbol.char?_ofChar] at no_character
    contradiction

/-- Outside all groups a step fails before what stops the top level. -/
theorem step_of_stops (stops : s = .ofChar ')' ∨ Symbol.char? s = none) (level : Level) :
    Progress.step ⟨[], level, ⟨position, s :: tail⟩⟩ =
      .error (.malformed position .unbalancedParenthesis) := by
  rcases stops with rfl | no_character
  · simp [Progress.step, readPiece_closing, throw, throwThe, MonadExceptOf.throw, bind, Except.bind]
  · have no_piece : readPiece ⟨position, s :: tail⟩ = .ok none :=
      readPiece_eq_none_iff.2 no_character
    simp [Progress.step, Progress.finish, no_piece, bind, Except.bind]

/-- The reader reports an unbalanced parenthesis exactly where it has read all that comes before,
    outside all groups, and what stands there stops it. -/
theorem read_unbalanced_iff :
    read symbols = .error (.malformed position .unbalancedParenthesis) ↔
      (∃ s, symbols[position]? = some s ∧ (s = .ofChar ')' ∨ Symbol.char? s = none)) ∧
        ∃ d, read (symbols.take position) = .ok d := by
  constructor
  · intro h
    obtain ⟨p, led, failed⟩ := Progress.leads_of_run_eq_error h
    rcases refused_step failed with ⟨outside, rest_eq, stops, e_eq⟩ | ⟨_, e_eq⟩ | ⟨refused, _, _, _⟩
    · obtain ⟨before, symbols_eq, position_eq, up_to⟩ := leads_up_to led
      obtain rfl : position = before.length := by
        rw [← position_eq]
        exact (Misreading.malformed.inj e_eq).1
      rw [rest_eq] at symbols_eq
      have led_before := up_to [] p.cursor.rest rfl
      rw [List.append_nil] at led_before
      refine ⟨⟨_, ?_, stops⟩, ?_⟩
      · rw [symbols_eq]
        simp
      · rw [symbols_eq, List.take_left]
        exact read_of_leads led_before rfl outside
    · exact absurd (Misreading.malformed.inj e_eq).2 (by simp)
    · exact absurd rfl refused.balanced
  · rintro ⟨⟨s, here, stops⟩, d, read_before⟩
    obtain ⟨last, led, outside, ended, -⟩ := Progress.leads_of_run read_before
    obtain ⟨within, here⟩ := List.getElem?_eq_some_iff.1 here
    have symbols_eq : symbols = symbols.take position ++ s :: symbols.drop (position + 1) := by
      rw [← here, ← List.drop_eq_getElem_cons within, List.take_append_drop]
    have position_eq : last.cursor.position = position := by
      have passed := (reaches_of_leads led).position_add_remaining
      rw [remaining, ended] at passed
      simpa [Progress.start, Cursor.start, remaining, Nat.min_eq_left within.le] using passed
    -- with the rest of the pattern behind them, the first symbols are read by the same steps
    have detached : Detached (s :: symbols.drop (position + 1)) := detached_of_stops stops
    have led_whole := leads_followedBy detached led
    have last_eq : last.followedBy (s :: symbols.drop (position + 1)) =
        ⟨[], last.level, ⟨position, s :: symbols.drop (position + 1)⟩⟩ := by
      rw [Progress.followedBy, followedBy, ended, outside, position_eq, List.nil_append]
    rw [last_eq] at led_whole
    rw [symbols_eq]
    exact (Progress.run_eq_of_leads led_whole).trans (Progress.run_of_error (step_of_stops stops _))

/-- Where parsing reports an unbalanced parenthesis.

    This is where all symbols before the place are a pattern on their own, and the symbol there is
    a closing parenthesis or no character at all. The alphabet and the symbols after the place do
    not matter. -/
theorem parse_unbalanced_iff (a : Alphabet) (symbols : List Symbol) (position : Nat) :
    parse a symbols = .error (.malformed position .unbalancedParenthesis) ↔
      (∃ s, symbols[position]? = some s ∧ (s = .ofChar ')' ∨ Symbol.char? s = none)) ∧
        ∃ t, parse a (symbols.take position) = .ok t := by
  rw [parse_eq_error_iff, exists_parse_iff]
  exact read_unbalanced_iff

/-- A symbol that is no character is reported as an unbalanced parenthesis, in an alphabet of all
    symbols. -/
theorem parse_unbalanced_surrogate :
    let a : Alphabet := .ofIntervals [⟨0, 0xFFFFFFFF⟩]
    let symbols : List Symbol := [0xD800]
    0xD800 ∈ a.full ∧ parse a symbols = .error (.malformed 0 .unbalancedParenthesis) ∧
      symbols[0]? ≠ some (.ofChar ')') := by
  intro a symbols
  have in_full : 0xD800 ∈ a.full :=
    SymbolSet.mem_ofIntervals.2 ⟨_, List.mem_singleton_self _, by decide⟩
  exact ⟨in_full, by cbv, by decide⟩

end PatternSampler.Notation
