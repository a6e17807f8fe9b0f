import PatternSampler.Proofs.Notation.Braces
import PatternSampler.Proofs.Notation.Brackets

/-! # The texts of pieces and quantifiers

  What was read is a text of one of the forms. For brackets and braces this is shown where their
  forms are listed; here it is shown for openings (`form_of_readOpening`), for any piece
  (`text_of_readPiece`) and for a term with its quantifier (`form_of_quantify`). So a piece is
  the same wherever its text stands and whatever follows it.
-/

namespace PatternSampler.Notation

open Cursor

variable {c d : Cursor} {b : Bounds} {t term : Draft} {piece : Piece}

/-! ## Openings -/

/-- A name is read with the `>` after it. -/
theorem form_of_readName {name : String} (h : readName c = .ok (name, d)) :
    ValidName name ∧ c.Passes (ofChars name.toList ++ [.ofChar '>']) d := by
  refine ⟨(of_readName h).2.1, ?_⟩
  obtain ⟨rest_eq, position_eq, -, -⟩ := c.takeWhile_spec isNameChar
  unfold readName at h
  simp only at h
  split at h
  · cases h
  · split at h
    · rename_i closes
      split at h
      · cases h
      · cases h
        obtain ⟨tail, stop_rest⟩ := peek_eq_some_iff.1 closes
        have passes : c.Passes (ofChars (c.takeWhile isNameChar).1) (c.takeWhile isNameChar).2 := by
          refine ⟨rest_eq, ?_⟩
          rw [position_eq, ofChars, List.length_map]
        rw [String.toList_ofList]
        exact passes.trans (passes_next stop_rest).1
    · cases h
    · cases h

theorem form_of_readNamed {o : Opening} (h : readNamed c = .ok (o, d)) :
    ∃ name, ValidName name ∧ o = .group true (some name) ∧
      c.Passes (ofChars name.toList ++ [.ofChar '>']) d := by
  unfold readNamed at h
  obtain ⟨⟨name, stop⟩, name_eq, h⟩ := bind_eq_ok_iff.1 h
  cases h
  obtain ⟨valid, passes⟩ := form_of_readName name_eq
  exact ⟨name, valid, rfl, passes⟩

/-- What is read after `(?` completes one of the forms of an opening. -/
theorem form_of_readExtension {opened : Nat} {o : Opening}
    (h : readExtension opened c = .ok (o, d)) :
    ∃ text, OpeningForm o (ofChars ['(', '?'] ++ text) ∧ c.Passes text d := by
  have named_shortly (angle : c.peek = some '<') (named : readNamed c.next = .ok (o, d)) :
      ∃ text, OpeningForm o (ofChars ['(', '?'] ++ text) ∧ c.Passes text d := by
    obtain ⟨name, valid, rfl, passes⟩ := form_of_readNamed named
    exact ⟨_, .namedShortly valid, (passes_of_peek angle).trans passes⟩
  unfold readExtension at h
  split at h
  · cases h
    exact ⟨_, .plain, passes_of_peek ‹_›⟩
  · cases h
    exact ⟨_, .ahead, passes_of_peek ‹_›⟩
  · cases h
    exact ⟨_, .notAhead, passes_of_peek ‹_›⟩
  · rename_i angle
    split at h
    · cases h
      exact ⟨_, .behind, (passes_of_peek angle).trans (passes_of_peek ‹_›)⟩
    · cases h
      exact ⟨_, .notBehind, (passes_of_peek angle).trans (passes_of_peek ‹_›)⟩
    · split at h
      · cases h
      · exact named_shortly angle h
    · exact named_shortly angle h
  · rename_i letter
    split at h
    · rename_i angle
      obtain ⟨name, valid, rfl, passes⟩ := form_of_readNamed h
      exact ⟨_, .named valid, (passes_of_peek letter).trans ((passes_of_peek angle).trans passes)⟩
    · cases h
    · cases h
    · cases h
  · cases h
  · cases h
  · cases h
  · cases h
  · cases h
  · split at h
    · cases h
    · split at h
      · cases h
      · cases h
  · cases h

/-- An opening has one of its forms, and after a single parenthesis no question mark stands. -/
theorem form_of_readOpening {o : Opening} (opens : c.peek = some '(')
    (h : readOpening c = .ok (o, d)) :
    ∃ text, OpeningForm o text ∧ c.Passes text d ∧
      (text = ofChars ['('] → d.rest.head? ≠ some (.ofChar '?')) := by
  unfold readOpening at h
  by_cases mark : c.next.peek = some '?'
  · rw [eat?, if_pos mark] at h
    obtain ⟨text, form, passes⟩ := form_of_readExtension h
    refine ⟨_, form, (passes_of_peek opens).trans ((passes_of_peek mark).trans passes), ?_⟩
    intro single
    cases single
  · rw [eat?, if_neg mark] at h
    cases h
    refine ⟨_, .capturing, passes_of_peek opens, ?_⟩
    intro _ starts
    obtain ⟨tail, rest_eq⟩ := List.head?_eq_some_iff.1 starts
    exact mark (peek_eq_some_iff.2 ⟨tail, rest_eq⟩)

/-! ## Pieces -/

/-- An escape is a backslash and one symbol. What stands after it is only looked at where the
    escape is refused. -/
theorem text_of_readEscapedTerm (escapes : c.peek = some '\\')
    (h : readEscapedTerm c = .ok (t, d)) :
    ∃ s, c.Passes [.ofChar '\\', s] d ∧ ∀ position rest,
      readEscapedTerm ⟨position, .ofChar '\\' :: s :: rest⟩ = .ok (t, ⟨position + 2, rest⟩) := by
  unfold readEscapedTerm at h
  obtain ⟨⟨e, stop⟩, escape_eq, h⟩ := bind_eq_ok_iff.1 h
  unfold readEscape at escape_eq
  split at escape_eq
  · cases escape_eq
  · rename_i s tail next_rest
    obtain ⟨rfl, rfl⟩ := Prod.mk.inj (Except.ok.inj escape_eq)
    have passes : c.Passes [.ofChar '\\', s] c.next.next :=
      (passes_of_peek escapes).trans (passes_next next_rest).1
    refine ⟨s, ?_⟩
    cases e_eq : Escape.of s with
    | shorthand kind =>
      rw [e_eq] at h
      cases h
      refine ⟨passes, ?_⟩
      intro position rest
      simp [readEscapedTerm, readEscape_backslash, e_eq, bind, Except.bind]
    | symbol escaped =>
      rw [e_eq] at h
      cases h
      refine ⟨passes, ?_⟩
      intro position rest
      simp [readEscapedTerm, readEscape_backslash, e_eq, bind, Except.bind]
    | other escaped =>
      rw [e_eq] at h
      cases escaped with
      | none => cases h
      | some ch =>
        simp only at h
        repeat' split at h
        all_goals cases h

/-- A piece is the text that was passed, wherever this text stands and whatever follows it. Only
    a question mark where none stood before could change the opening of a group. -/
theorem text_of_readPiece (h : readPiece c = .ok (some (piece, d))) :
    ∃ text, c.Passes text d ∧ ∀ position rest,
      (rest.head? = some (.ofChar '?') → d.rest.head? = some (.ofChar '?')) →
      readPiece ⟨position, text ++ rest⟩ =
        .ok (some (piece, ⟨position + text.length, rest⟩)) := by
  unfold readPiece at h
  split at h
  · cases h
  · cases h
    exact ⟨_, passes_of_peek ‹_›, fun _ _ _ => readPiece_closing⟩
  · cases h
    exact ⟨_, passes_of_peek ‹_›, fun _ _ _ => readPiece_bar⟩
  · rename_i opens
    obtain ⟨⟨o, stop⟩, opening_eq, h⟩ := bind_eq_ok_iff.1 h
    cases h
    obtain ⟨text, form, passes, no_mark⟩ := form_of_readOpening opens opening_eq
    refine ⟨text, passes, ?_⟩
    intro position rest no_new_mark
    exact readPiece_of_form form fun single => mt no_new_mark (no_mark single)
  · rename_i ch not_closing not_bar not_opening peeked
    obtain ⟨⟨t, stop⟩, term_eq, h⟩ := bind_eq_ok_iff.1 h
    cases h
    unfold readTerm at term_eq
    split at term_eq
    · obtain ⟨⟨items, negated, stop⟩, bracket_eq, h⟩ := bind_eq_ok_iff.1 term_eq
      cases h
      obtain ⟨text, form, passes⟩ := form_of_readBracket peeked bracket_eq
      exact ⟨text, passes, fun _ _ _ => readPiece_bracket_iff.2 ⟨text, form, rfl, rfl⟩⟩
    · obtain ⟨s, passes, anywhere⟩ := text_of_readEscapedTerm peeked term_eq
      refine ⟨_, passes, ?_⟩
      intro position rest _
      simp [readPiece, readTerm, anywhere, bind, Except.bind]
    · cases term_eq
      refine ⟨_, passes_of_peek peeked, ?_⟩
      intro position rest _
      simp [readPiece, readTerm, bind, Except.bind]
    · cases term_eq
      refine ⟨_, passes_of_peek peeked, ?_⟩
      intro position rest _
      simp [readPiece, readTerm, bind, Except.bind]
    · cases term_eq
      refine ⟨_, passes_of_peek peeked, ?_⟩
      intro position rest _
      simp [readPiece, readTerm, bind, Except.bind]
    · cases term_eq
    · cases term_eq
    · cases term_eq
    · cases term_eq
      refine ⟨_, passes_of_peek peeked, ?_⟩
      intro position rest _
      simp_all [readPiece, readTerm, bind, Except.bind]

/-! ## Quantifiers -/

/-- Bounds that are read have one of their forms. -/
theorem form_of_readBounds (h : readBounds c = .ok (some (b, d))) :
    ∃ text, QuantifierForm b text ∧ c.Passes text d := by
  by_cases opens : c.peek = some '{'
  · obtain ⟨rest, rest_eq⟩ := peek_eq_some_iff.1 opens
    obtain ⟨position, symbols⟩ := c
    obtain rfl : symbols = .ofChar '{' :: rest := rest_eq
    obtain ⟨least, most, text, form, admissible, rfl, passes⟩ := exists_form_of_readBounds h
    exact ⟨text, form.quantifierForm admissible, passes⟩
  · unfold readBounds at h
    split at h
    · cases h
      exact ⟨_, .star, passes_of_peek ‹_›⟩
    · cases h
      exact ⟨_, .plus, passes_of_peek ‹_›⟩
    · cases h
      exact ⟨_, .question, passes_of_peek ‹_›⟩
    · exact absurd ‹_› opens
    · cases h

theorem passes_of_readGreediness {greedy : Bool} (h : readGreediness c = (greedy, d)) :
    c.Passes (writeGreediness greedy) d := by
  unfold readGreediness at h
  by_cases mark : c.peek = some '?'
  · rw [eat?, if_pos mark] at h
    cases h
    exact passes_of_peek mark
  · rw [eat?, if_neg mark] at h
    cases h
    exact ⟨rfl, rfl⟩

/-- What a quantifier does to the term before it: nothing, where none is read, or a repetition
    that is written in one of the forms and has no other quantifier after it. -/
theorem form_of_quantify (h : quantify t c = .ok (term, d)) :
    (readBounds c = .ok none ∧ term = t ∧ d = c) ∨
      ∃ b text greedy, QuantifierForm b text ∧ b.Consistent ∧ repeatable t = true ∧
        term = .repetition t b greedy ∧ c.Passes (text ++ writeGreediness greedy) d ∧
        startsQuantifier d = false := by
  unfold quantify at h
  obtain ⟨read, bounds_eq, h⟩ := bind_eq_ok_iff.1 h
  rcases read with _ | ⟨bounds, afterBounds⟩
  · left
    cases h
    exact ⟨bounds_eq, rfl, rfl⟩
  · right
    obtain ⟨-, consistent⟩ := of_readBounds bounds_eq
    obtain ⟨text, form, passes⟩ := form_of_readBounds bounds_eq
    simp only at h
    by_cases can_repeat : repeatable t = true
    · rw [if_pos can_repeat] at h
      by_cases second : startsQuantifier (readGreediness afterBounds).2 = true
      · rw [if_pos second] at h
        cases h
      · rw [if_neg second] at h
        cases h
        have lazy_mark : readGreediness afterBounds = (_, (readGreediness afterBounds).2) := rfl
        exact ⟨bounds, text, _, form, consistent, can_repeat, rfl,
          passes.trans (passes_of_readGreediness lazy_mark), Bool.eq_false_iff.2 second⟩
    · rw [if_neg can_repeat] at h
      cases h

end PatternSampler.Notation
