import PatternSampler.Proofs.Notation.Prefixes

/-! # What is refused, and where

  Each reading function chooses the place to blame: where a construct begins, or some symbols
  further on. `RefusedAfter c text e` says that the place lies after the symbols `text`, which
  begin at `c`. For every refusal these symbols are told, and how they can go on:

  - within a piece they become a whole piece by one of a few `endings` (`refused_piece`);
  - after a term they are the quantifier that stands there, or braces that hold no quantifier as
    long as the number that is too long is left out (`refused_quantifier`).

  None of these refusals is for an unbalanced parenthesis.
-/

namespace PatternSampler.Notation

open Cursor

variable {c d : Cursor} {position opened : Nat} {t : Draft} {e : Misreading} {first : Bool}
  {text rest after : List Symbol}

/-- The rule that is broken, if one is. -/
def Misreading.fault? : Misreading → Option Fault
  | malformed _ fault => some fault
  | unsupported _ _ => none

/-- Reading at `c` is refused for what stands after the symbols `text`, which begin at `c`. The
    reason is not a parenthesis that closes nothing. -/
structure RefusedAfter (c : Cursor) (text : List Symbol) (e : Misreading) : Prop where
  /-- The symbols are there. -/
  begins : text <+: c.rest
  /-- The place to blame comes after them. -/
  position : e.position = c.position + text.length
  /-- The reason is another one. -/
  balanced : e.fault? ≠ some .unbalancedParenthesis

/-- A rule is broken at the place itself. -/
theorem refusedAfter_fault {fault : Fault} (other : fault ≠ .unbalancedParenthesis) :
    RefusedAfter c [] (.malformed c.position fault) :=
  ⟨List.nil_prefix, rfl, fun same => other (Option.some.inj same)⟩

/-- A construct without support begins at the place itself. -/
theorem refusedAfter_construct {construct : Construct} :
    RefusedAfter c [] (.unsupported c.position construct) :=
  ⟨List.nil_prefix, rfl, by simp [Misreading.fault?]⟩

/-- What is refused after a place that was reached is refused after the symbols passed, too. -/
theorem RefusedAfter.of_passes {passed : List Symbol} (passes : c.Passes passed d)
    (refused : RefusedAfter d text e) : RefusedAfter c (passed ++ text) e where
  begins := by
    rw [passes.1]
    exact (List.prefix_append_right_inj passed).2 refused.begins
  position := by
    rw [refused.position, passes.2, List.length_append, Nat.add_assoc]
  balanced := refused.balanced

/-- What completes a piece that has been left open: the kind of a group, the rest of a name, the
    end of a bracket, and a bracket's only item before its end. -/
def endings : List (List Char) := [[':'], ['a', '>'], [']'], ['a', ']']]

/-! ## Brackets -/

theorem refused_escape (h : readEscape c = .error e) : RefusedAfter c [] e := by
  unfold readEscape at h
  split at h
  · cases h
    exact refusedAfter_fault (by simp)
  · contradiction

theorem refused_bracketAtom (more : c.rest ≠ []) (h : readBracketAtom c = .error e) :
    RefusedAfter c [] e := by
  unfold readBracketAtom at h
  split at h
  · exact absurd ‹_› more
  · split at h
    · rcases bind_eq_error_iff.1 h with escape_eq | ⟨⟨escape, stop⟩, -, h⟩
      · exact refused_escape escape_eq
      · rcases escape with kind | s | escaped
        · contradiction
        · contradiction
        · cases h
          exact refusedAfter_fault (by simp)
    · contradiction

/-- An item is refused where it starts, or after a symbol and the dash that follows it. -/
theorem refused_bracketItem (more : c.rest ≠ []) (h : readBracketItem c = .error e) :
    RefusedAfter c [] e ∨
      ∃ low text, AtomForm (.symbol low) text ∧ RefusedAfter c (text ++ [.ofChar '-']) e := by
  unfold readBracketItem at h
  rcases bind_eq_error_iff.1 h with atom_eq | ⟨⟨atom, stop⟩, atom_eq, h⟩
  · exact Or.inl (refused_bracketAtom more atom_eq)
  · rcases atom with low | kind
    · simp only at h
      by_cases joins : dashJoins stop = true
      · rw [if_pos joins] at h
        -- the dash stands between the two ends, so there is a symbol after it
        obtain ⟨s, tail, stop_rest, -⟩ := (dashJoins_iff.1 joins).exists_cons
        obtain ⟨to_dash, after_dash⟩ := passes_next stop_rest
        have more_after : stop.next.rest ≠ [] := by
          rw [after_dash]
          exact List.cons_ne_nil s tail
        rcases bind_eq_error_iff.1 h with high_eq | ⟨⟨atom', afterHigh⟩, -, h⟩
        · right
          obtain ⟨text, form, to_stop⟩ := form_of_readBracketAtom atom_eq
          have refused := (refused_bracketAtom more_after high_eq).of_passes (to_stop.trans to_dash)
          rw [List.append_nil] at refused
          exact ⟨low, text, form, refused⟩
        · left
          rcases atom' with high | kind
          · simp only at h
            split at h
            · contradiction
            · cases h
              exact refusedAfter_fault (by simp)
          · cases h
            exact refusedAfter_fault (by simp)
      · rw [if_neg joins] at h
        contradiction
    · simp only at h
      split at h
      · cases h
        exact Or.inl (refusedAfter_fault (by simp))
      · contradiction

theorem not_joinsOn_single {s : Symbol} : ¬ JoinsOn [s] := fun joins => joins

/-- A dash right before the closing bracket joins nothing. -/
theorem not_joinsOn_closing {s : Symbol} : ¬ JoinsOn [s, .ofChar ']'] := fun joins => joins.2 rfl

/-- Ending the bracket early makes no dash a joining one. -/
theorem joinsOn_of_closing (joins : JoinsOn (text ++ [.ofChar ']'])) : JoinsOn (text ++ after) := by
  match text, joins with
  | [s], joins => exact absurd joins not_joinsOn_closing
  | _ :: _ :: _, joins => exact joins

/-- What is refused among the items comes after some whole items, and after a dash perhaps. There
    the bracket may be closed, unless no item has been read. -/
theorem refused_bracketItems (h : readBracketItems opened first c = .error e) :
    e = .malformed opened .unterminatedBracket ∨ ∃ text, RefusedAfter c text e ∧
      (first = true ∧ text = [] ∨ ∃ items, ItemsForm first items (text ++ [.ofChar ']'])) := by
  fun_induction readBracketItems opened first c with
  | case1 first c ended =>
    cases h
    exact Or.inl rfl
  | case2 => cases h
  | case3 first c more stays e' item_eq =>
    right
    cases h
    have more : c.rest ≠ [] := by simpa using more
    rcases refused_bracketItem more item_eq with here | ⟨low, text, form, refused⟩
    · refine ⟨[], here, ?_⟩
      cases first with
      | true => exact Or.inl ⟨rfl, rfl⟩
      | false => exact Or.inr ⟨[], .closing⟩
    · refine ⟨_, refused, Or.inr ⟨[.range low low, .range (.ofChar '-') (.ofChar '-')], ?_⟩⟩
      -- the dash becomes an item of its own
      have dash : ItemsForm false [.range (.ofChar '-') (.ofChar '-')]
          (ofChars ['-'] ++ [.ofChar ']']) :=
        .item (.single (.plain (by decide)) not_joinsOn_single) (Or.inr (by decide)) .closing
      have stays_form := stays_of_begins stays
        ((List.prefix_append text _).trans refused.begins)
      rw [List.append_assoc]
      exact .item (.single form not_joinsOn_closing) stays_form dash
  | case4 first c more stays item stop item_eq _ e' others_eq ih =>
    cases h
    rcases ih others_eq with unterminated | ⟨text, refused, ⟨at_start, -⟩ | ⟨items, others_form⟩⟩
    · exact Or.inl unterminated
    · cases at_start
    · right
      -- the item before the refusal is read as before when the bracket is closed behind `text`
      obtain ⟨itemText, form, to_stop⟩ := form_of_readBracketItem item_eq
      refine ⟨itemText ++ text, refused.of_passes to_stop, Or.inr ⟨item :: items, ?_⟩⟩
      obtain ⟨after, rest_eq⟩ := refused.begins
      rw [← rest_eq] at form
      have stays_form := stays_of_begins stays ⟨_, to_stop.1.symm⟩
      rw [List.append_assoc]
      exact .item (form.change joinsOn_of_closing) stays_form others_form
  | case5 => cases h

theorem itemsForm_letter :
    ItemsForm true [.range (.ofChar 'a') (.ofChar 'a')] (ofChars ['a'] ++ [.ofChar ']']) :=
  .item (.single (.plain (by decide)) not_joinsOn_single) (Or.inl rfl) .closing

theorem refused_bracket (opens : c.peek = some '[') (h : readBracket c = .error e) :
    ∃ text, RefusedAfter c text e ∧ (text = [] ∨ ∃ ending ∈ endings, ∃ negated items,
      BracketForm negated items (text ++ ofChars ending)) := by
  have to_next := passes_of_peek opens
  unfold readBracket at h
  by_cases mark : c.next.peek = some '^'
  · rw [eat?, if_pos mark] at h
    rcases bind_eq_error_iff.1 h with items_eq | ⟨_, -, h⟩
    · rcases refused_bracketItems items_eq with rfl | ⟨text, refused, completed⟩
      · exact ⟨[], refusedAfter_fault (by simp), Or.inl rfl⟩
      · have to_inside := to_next.trans (passes_of_peek mark)
        refine ⟨_, refused.of_passes to_inside, Or.inr ?_⟩
        rcases completed with ⟨-, rfl⟩ | ⟨items, form⟩
        · exact ⟨['a', ']'], by decide, true, _, .negated itemsForm_letter⟩
        · exact ⟨[']'], by decide, true, items, .negated form⟩
    · contradiction
  · rw [eat?, if_neg mark] at h
    rcases bind_eq_error_iff.1 h with items_eq | ⟨_, -, h⟩
    · rcases refused_bracketItems items_eq with rfl | ⟨text, refused, completed⟩
      · exact ⟨[], refusedAfter_fault (by simp), Or.inl rfl⟩
      · refine ⟨_, refused.of_passes to_next, Or.inr ?_⟩
        rcases completed with ⟨-, rfl⟩ | ⟨items, form⟩
        · exact ⟨['a', ']'], by decide, false, _, .positive itemsForm_letter (by decide)⟩
        · -- no mark was read, so the items do not begin with one: closing early adds none
          have no_mark : (text ++ [Symbol.ofChar ']']).head? ≠ some (.ofChar '^') := by
            rcases text with _ | ⟨s, text⟩
            · decide
            · intro starts
              obtain rfl : s = Symbol.ofChar '^' := Option.some.inj starts
              obtain ⟨after, rest_eq⟩ := refused.begins
              exact mark (peek_eq_some_iff.2 ⟨_, rest_eq.symm⟩)
          exact ⟨[']'], by decide, false, items, .positive form no_mark⟩
    · contradiction

/-! ## Openings -/

/-- Name characters of which the first is no digit become a name by one more letter. -/
theorem validName_append_letter {chars : List Char} (all : ∀ ch ∈ chars, isNameChar ch = true)
    (no_digit : ¬ chars.head?.any Char.isDigit = true) :
    ValidName (String.ofList (chars ++ ['a'])) := by
  rcases chars with _ | ⟨first, others⟩
  · exact validName_ofList (by decide) (by simp [isNameChar])
  · apply validName_ofList
    · simpa using no_digit
    · intro ch ch_mem
      have ch_mem : ch ∈ (first :: others) ++ ['a'] := ch_mem
      rcases List.mem_append.1 ch_mem with ch_mem | ch_mem
      · exact all ch ch_mem
      · rw [List.mem_singleton.1 ch_mem]
        decide

/-- A name is refused at its start, or after the characters that may stand in it. -/
theorem refused_name (h : readName c = .error e) :
    ∃ chars, RefusedAfter c (ofChars chars) e ∧ ValidName (String.ofList (chars ++ ['a'])) := by
  obtain ⟨rest_eq, position_eq, all, -⟩ := c.takeWhile_spec isNameChar
  have at_start {fault : Fault} (other : fault ≠ .unbalancedParenthesis) :
      ∃ chars, RefusedAfter c (ofChars chars) (.malformed c.position fault) ∧
        ValidName (String.ofList (chars ++ ['a'])) := by
    have letter : ValidName (String.ofList ([] ++ ['a'])) :=
      validName_append_letter (List.forall_mem_nil _) (by simp)
    exact ⟨[], refusedAfter_fault other, letter⟩
  unfold readName at h
  simp only at h
  split at h
  · cases h
    exact at_start (by simp)
  · rename_i no_digit
    split at h
    · split at h
      · cases h
        exact at_start (by simp)
      · contradiction
    · cases h
      refine ⟨(c.takeWhile isNameChar).1, ⟨⟨_, rest_eq.symm⟩, ?_, by simp [Misreading.fault?]⟩,
        validName_append_letter all no_digit⟩
      rw [ofChars, List.length_map]
      exact position_eq
    · cases h
      exact at_start (by simp)

theorem refused_named (h : readNamed c = .error e) :
    ∃ chars, RefusedAfter c (ofChars chars) e ∧ ValidName (String.ofList (chars ++ ['a'])) := by
  unfold readNamed at h
  rcases bind_eq_error_iff.1 h with name_eq | ⟨_, -, h⟩
  · exact refused_name name_eq
  · contradiction

/-- What follows `(?` is refused at the parenthesis, or after symbols that can still become an
    opening. -/
theorem refused_extension (h : readExtension opened c = .error e) :
    (∃ construct, e = .unsupported opened construct) ∨
      ∃ text, RefusedAfter c text e ∧ ∃ ending ∈ endings, ∃ o,
        OpeningForm o (ofChars ['(', '?'] ++ (text ++ ofChars ending)) := by
  have at_start {fault : Fault} (other : fault ≠ .unbalancedParenthesis) :
      ∃ text, RefusedAfter c text (.malformed c.position fault) ∧ ∃ ending ∈ endings, ∃ o,
        OpeningForm o (ofChars ['(', '?'] ++ (text ++ ofChars ending)) := by
    exact ⟨[], refusedAfter_fault other, [':'], by decide, _, .plain⟩
  have named_shortly (angle : c.peek = some '<') (named : readNamed c.next = .error e) :
      ∃ text, RefusedAfter c text e ∧ ∃ ending ∈ endings, ∃ o,
        OpeningForm o (ofChars ['(', '?'] ++ (text ++ ofChars ending)) := by
    obtain ⟨chars, refused, valid⟩ := refused_named named
    refine ⟨_, refused.of_passes (passes_of_peek angle), ['a', '>'], by decide,
      .group true (some (String.ofList (chars ++ ['a']))), ?_⟩
    have form := OpeningForm.namedShortly valid
    simpa [ofChars] using form
  unfold readExtension at h
  split at h
  · contradiction
  · contradiction
  · contradiction
  · rename_i angle
    split at h
    · contradiction
    · contradiction
    · split at h
      · cases h
        exact Or.inl ⟨_, rfl⟩
      · exact Or.inr (named_shortly angle h)
    · exact Or.inr (named_shortly angle h)
  · rename_i letter
    split at h
    · rename_i angle
      right
      obtain ⟨chars, refused, valid⟩ := refused_named h
      have to_name := (passes_of_peek letter).trans (passes_of_peek angle)
      refine ⟨_, refused.of_passes to_name, ['a', '>'], by decide,
        .group true (some (String.ofList (chars ++ ['a']))), ?_⟩
      have form := OpeningForm.named valid
      simpa [ofChars] using form
    · cases h
      exact Or.inl ⟨_, rfl⟩
    · cases h
      exact Or.inl ⟨_, rfl⟩
    · cases h
      exact Or.inr (at_start (by simp))
  · cases h
    exact Or.inl ⟨_, rfl⟩
  · cases h
    exact Or.inl ⟨_, rfl⟩
  · cases h
    exact Or.inl ⟨_, rfl⟩
  · cases h
    exact Or.inl ⟨_, rfl⟩
  · cases h
    exact Or.inl ⟨_, rfl⟩
  · split at h
    · cases h
      exact Or.inl ⟨_, rfl⟩
    · split at h
      · cases h
        exact Or.inl ⟨_, rfl⟩
      · cases h
        exact Or.inr (at_start (by simp))
  · cases h
    exact Or.inr (at_start (by simp))

theorem refused_opening (opens : c.peek = some '(') (h : readOpening c = .error e) :
    ∃ text, RefusedAfter c text e ∧ (text = [] ∨ ∃ ending ∈ endings, ∃ o,
      OpeningForm o (text ++ ofChars ending)) := by
  unfold readOpening at h
  by_cases mark : c.next.peek = some '?'
  · rw [eat?, if_pos mark] at h
    rcases refused_extension h with ⟨construct, rfl⟩ |
      ⟨text, refused, ending, is_ending, o, form⟩
    · exact ⟨[], refusedAfter_construct, Or.inl rfl⟩
    · have to_extension := (passes_of_peek opens).trans (passes_of_peek mark)
      refine ⟨_, refused.of_passes to_extension, Or.inr ⟨ending, is_ending, o, ?_⟩⟩
      rw [List.append_assoc]
      exact form
  · rw [eat?, if_neg mark] at h
    contradiction

/-! ## Pieces -/

/-- The symbols are the beginning of a piece: one of the endings makes them a whole one, which is
    no closing parenthesis. -/
def BeginsPiece (text : List Symbol) : Prop :=
  ∃ ending ∈ endings, ∃ piece, piece ≠ .closing ∧ ∀ position,
    readPiece ⟨position, text ++ ofChars ending⟩ =
      .ok (some (piece, ⟨position + (text ++ ofChars ending).length, []⟩))

theorem refused_escapedTerm (h : readEscapedTerm c = .error e) : RefusedAfter c [] e := by
  unfold readEscapedTerm at h
  rcases bind_eq_error_iff.1 h with escape_eq | ⟨⟨escape, stop⟩, -, h⟩
  · exact refused_escape escape_eq
  · rcases escape with kind | s | escaped
    · contradiction
    · contradiction
    · rcases escaped with _ | ch
      · cases h
        exact refusedAfter_fault (by simp)
      · simp only at h
        split at h
        · cases h
          exact refusedAfter_construct
        · split at h
          · cases h
            exact refusedAfter_construct
          · cases h
            exact refusedAfter_fault (by simp)

/-- A piece is refused where it starts, or after the beginning of a piece. -/
theorem refused_piece (h : readPiece c = .error e) :
    ∃ text, RefusedAfter c text e ∧ (text = [] ∨ BeginsPiece text) := by
  unfold readPiece at h
  split at h
  · contradiction
  · contradiction
  · contradiction
  · rename_i opens
    rcases bind_eq_error_iff.1 h with opening_eq | ⟨_, -, h⟩
    · obtain ⟨text, refused, rfl | ⟨ending, is_ending, o, form⟩⟩ := refused_opening opens opening_eq
      · exact ⟨[], refused, Or.inl rfl⟩
      · refine ⟨text, refused, Or.inr ⟨ending, is_ending, .opening o, by simp, ?_⟩⟩
        intro position
        have whole := @readPiece_of_form position [] o _ form fun _ => by simp
        rw [List.append_nil] at whole
        exact whole
    · contradiction
  · rename_i ch _ _ _ peeked
    rcases bind_eq_error_iff.1 h with term_eq | ⟨_, -, h⟩
    · unfold readTerm at term_eq
      split at term_eq
      · rcases bind_eq_error_iff.1 term_eq with bracket_eq | ⟨_, -, h⟩
        · obtain ⟨text, refused, rfl | ⟨ending, is_ending, negated, items, form⟩⟩ :=
            refused_bracket peeked bracket_eq
          · exact ⟨[], refused, Or.inl rfl⟩
          · refine ⟨text, refused, Or.inr ⟨ending, is_ending, ?_⟩⟩
            refine ⟨.term (.bracket items negated), by simp, ?_⟩
            intro position
            have passes : Cursor.Passes ⟨position, text ++ ofChars ending⟩ _ ⟨_, []⟩ :=
              ⟨(List.append_nil _).symm, rfl⟩
            exact readPiece_bracket_iff.2 ⟨_, form, passes⟩
        · contradiction
      · exact ⟨[], refused_escapedTerm term_eq, Or.inl rfl⟩
      · contradiction
      · contradiction
      · contradiction
      · cases term_eq
        exact ⟨[], refusedAfter_fault (by simp), Or.inl rfl⟩
      · cases term_eq
        exact ⟨[], refusedAfter_fault (by simp), Or.inl rfl⟩
      · cases term_eq
        exact ⟨[], refusedAfter_fault (by simp), Or.inl rfl⟩
      · contradiction
    · contradiction

/-! ## Quantifiers -/

/-- The symbols before a number that is too long are a brace and characters of a quantifier. Up
    to there they are no quantifier. -/
theorem LongNumber.exists_chars {offset : Nat} (long : LongNumber offset text) :
    ∃ chars, ofChars ('{' :: chars) <+: text ∧ offset = (ofChars ('{' :: chars)).length ∧
      (∀ ch ∈ chars, InBraces ch) ∧
      ∀ position, readBounds ⟨position, ofChars ('{' :: chars)⟩ = .ok none := by
  have no_digit : NoDigit [] := by simp [NoDigit]
  rcases long with _ | @⟨lower, upper, rest, lower_all, fits, _, _, _⟩
  · exact ⟨[], ⟨_, rfl⟩, rfl, List.forall_mem_nil _, fun _ => rfl⟩
  · refine ⟨lower ++ [','], ⟨ofChars upper ++ rest, ?_⟩, ?_, ?_, ?_⟩
    · simp [ofChars]
    · simp [ofChars]
    · intro ch ch_mem
      rcases List.mem_append.1 ch_mem with digit | comma
      · exact Or.inl (lower_all ch digit)
      · exact Or.inr (Or.inl (List.mem_singleton.1 comma))
    · intro position
      -- after the comma no number and no brace follow
      have text_eq : ofChars ('{' :: (lower ++ [','])) =
          .ofChar '{' :: (ofChars lower ++ .ofChar ',' :: []) := by
        simp [ofChars]
      rw [text_eq, readBounds_eq_readBraces, readBraces_comma lower_all fits,
        readNumber_of_not_digit no_digit]
      rfl

/-- Only numbers in braces are refused. -/
theorem refused_bounds (h : readBounds c = .error e) :
    e = .malformed c.position .boundsReversed ∨ ∃ offset, LongNumber offset c.rest ∧
      e = .malformed (c.position + offset) .numberTooLarge := by
  by_cases opens : c.peek = some '{'
  · obtain ⟨rest, rest_eq⟩ := peek_eq_some_iff.1 opens
    obtain ⟨position, symbols⟩ := c
    obtain rfl : symbols = .ofChar '{' :: rest := rest_eq
    exact blame_of_readBounds h
  · unfold readBounds at h
    split at h
    · contradiction
    · contradiction
    · contradiction
    · exact absurd ‹_› opens
    · contradiction

/-- What stands after a term is refused where it starts, after the quantifier of the term, or
    after a brace and the characters before a number that is too long. -/
theorem refused_quantifier (h : quantify t c = .error e) :
    ∃ text, RefusedAfter c text e ∧
      ((∃ term stop, quantify t ⟨c.position, text⟩ = .ok (term, ⟨stop, []⟩)) ∨
        ∃ chars, text = ofChars ('{' :: chars) ∧ (∀ ch ∈ chars, InBraces ch) ∧
          readBounds ⟨c.position, text⟩ = .ok none) := by
  unfold quantify at h
  rcases bind_eq_error_iff.1 h with bounds_eq | ⟨read, bounds_eq, h⟩
  · rcases refused_bounds bounds_eq with rfl | ⟨offset, long, rfl⟩
    · exact ⟨[], refusedAfter_fault (by simp), Or.inl ⟨t, _, quantify_of_quiet quiet_nil⟩⟩
    · obtain ⟨chars, begins, rfl, all, none_read⟩ := long.exists_chars
      exact ⟨_, ⟨begins, rfl, by simp [Misreading.fault?]⟩,
        Or.inr ⟨chars, rfl, all, none_read c.position⟩⟩
  · rcases read with _ | ⟨bounds, afterBounds⟩
    · contradiction
    · simp only at h
      by_cases can_repeat : repeatable t = true
      · rw [if_pos can_repeat] at h
        split at h
        · -- the first quantifier stands alone, so nothing is wrong with it
          cases h
          obtain ⟨text, form, passes⟩ := form_of_readBounds bounds_eq
          have lazy_mark : readGreediness afterBounds =
            ((readGreediness afterBounds).1, (readGreediness afterBounds).2) := rfl
          have to_stop := passes.trans (passes_of_readGreediness lazy_mark)
          have quantified := @quantify_of_form c.position [] _ t _ _ form
            (readGreediness afterBounds).1 can_repeat (of_readBounds bounds_eq).2
            (startsQuantifier_of_quiet quiet_nil)
          rw [List.append_nil] at quantified
          exact ⟨_, ⟨⟨_, to_stop.1.symm⟩, to_stop.2, by simp [Misreading.fault?]⟩,
            Or.inl ⟨_, _, quantified⟩⟩
        · contradiction
      · rw [if_neg can_repeat] at h
        cases h
        exact ⟨[], refusedAfter_fault (by simp), Or.inl ⟨t, _, quantify_of_quiet quiet_nil⟩⟩

/-! ## Steps -/

/-- Why a step fails. -/
inductive Progress.Refused (p : Progress) (e : Misreading) : Prop where
  /-- Outside all groups, reading stops before a parenthesis or a symbol that is no character. -/
  | unbalanced {s : Symbol} {tail : List Symbol} (outside : p.groups = [])
      (rest_eq : p.cursor.rest = s :: tail)
      (stops : s = .ofChar ')' ∨ Symbol.char? s = none)
      (e_eq : e = .malformed p.cursor.position .unbalancedParenthesis)
  /-- The pattern ends inside a group, which is blamed where it was opened. -/
  | unterminated {group : OpenGroup} (is_open : group ∈ p.groups)
      (e_eq : e = .malformed group.opened .unterminatedGroup)
  /-- What stands there is refused after some symbols. With one of the endings, or with nothing
      more, these symbols are read to their end. -/
  | after {text : List Symbol} {ending : List Char} {q : Progress}
      (refused : RefusedAfter p.cursor text e) (is_ending : ending ∈ [] :: endings)
      (leads : Progress.Leads ⟨p.groups, p.level, ⟨p.cursor.position, text ++ ofChars ending⟩⟩ q)
      (ended : q.cursor.rest = [])

variable {p : Progress}

/-- No piece starts at the end, nor before a symbol that is no character. -/
theorem readPiece_eq_none_iff : readPiece c = .ok none ↔ c.peek = none := by
  constructor
  · intro h
    unfold readPiece at h
    split at h
    · assumption
    · cases h
    · cases h
    · obtain ⟨_, -, h⟩ := bind_eq_ok_iff.1 h
      cases h
    · obtain ⟨_, -, h⟩ := bind_eq_ok_iff.1 h
      cases h
  · intro nothing
    unfold readPiece
    rw [nothing]

/-- A whole piece is read to its end, unless it closes a group. -/
theorem leads_of_piece {piece : Piece} {stop : Nat} (no_closing : piece ≠ .closing)
    (h : readPiece ⟨position, text⟩ = .ok (some (piece, ⟨stop, []⟩))) (groups : List OpenGroup)
    (level : Level) :
    ∃ q, Progress.Leads ⟨groups, level, ⟨position, text⟩⟩ q ∧ q.cursor.rest = [] := by
  rcases piece with t | o | _ | _
  · exact ⟨_, .single (.term h (quantify_of_quiet quiet_nil)), rfl⟩
  · exact ⟨_, .single (.opening h), rfl⟩
  · exact absurd rfl no_closing
  · exact ⟨_, .single (.bar h), rfl⟩

/-- What stands after a term is refused. The term is the piece that was read, or the group that
    this piece closes: with a quantifier that is read it leads to `groups` and `add`. -/
theorem refused_after_term {piece : Piece} (groups : List OpenGroup) (add : Draft → Level)
    (read : readPiece p.cursor = .ok (some (piece, d))) (h : quantify t d = .error e)
    (onward : ∀ symbols d term stop,
      readPiece ⟨p.cursor.position, symbols⟩ = .ok (some (piece, d)) →
      quantify t d = .ok (term, stop) →
      Progress.Onward ⟨p.groups, p.level, ⟨p.cursor.position, symbols⟩⟩
        ⟨groups, add term, stop⟩) : p.Refused e := by
  obtain ⟨text, passes, anywhere⟩ := text_of_readPiece read
  obtain ⟨more, refused, goes_on⟩ := refused_quantifier h
  have refused_whole := refused.of_passes passes
  -- the same piece, with nothing behind the symbols that come after it
  have again : readPiece ⟨p.cursor.position, text ++ more⟩ =
      .ok (some (piece, ⟨d.position, more⟩)) := by
    rw [passes.2]
    refine anywhere _ _ ?_
    intro starts
    obtain ⟨after, rest_eq⟩ := refused.begins
    rw [← rest_eq]
    exact List.mem_head?_append_of_mem_head? starts
  rw [← List.append_nil (text ++ more)] at again
  rcases goes_on with ⟨term, stop, quantified⟩ | ⟨chars, rfl, all, none_read⟩
  · have step := onward _ _ _ _ again quantified
    exact .after refused_whole List.mem_cons_self (.single step) rfl
  · have quantified : quantify t ⟨d.position, ofChars ('{' :: chars)⟩ =
        .ok (t, ⟨d.position, ofChars ('{' :: chars)⟩) := by
      unfold quantify
      rw [none_read]
      rfl
    have step := onward _ _ _ _ again quantified
    exact .after refused_whole List.mem_cons_self (.head step (leads_inBraces all _ _ _)) rfl

theorem refused_step (h : p.step = .error e) : p.Refused e := by
  unfold Progress.step at h
  rcases bind_eq_error_iff.1 h with piece_eq | ⟨read, piece_eq, h⟩
  · obtain ⟨text, refused, rfl | ⟨ending, is_ending, piece, no_closing, whole⟩⟩ :=
      refused_piece piece_eq
    · exact .after refused List.mem_cons_self .refl rfl
    · obtain ⟨q, leads, ended⟩ := leads_of_piece no_closing (whole _) p.groups p.level
      exact .after refused (List.mem_cons_of_mem _ is_ending) leads ended
  · split at h
    · rcases bind_eq_error_iff.1 h with finish_eq | ⟨_, -, h⟩
      · unfold Progress.finish at finish_eq
        split at finish_eq
        · rename_i group outer groups_eq
          refine .unterminated ?_ (Except.error.inj finish_eq).symm
          rw [groups_eq]
          exact List.mem_cons_self
        · rename_i outside
          split at finish_eq
          · contradiction
          · rename_i more
            obtain ⟨s, tail, rest_eq⟩ := List.exists_cons_of_ne_nil (mt List.isEmpty_iff.2 more)
            have no_character : Symbol.char? s = none := by
              have peeked := readPiece_eq_none_iff.1 piece_eq
              rw [peek, rest_eq] at peeked
              exact peeked
            exact .unbalanced outside rest_eq (Or.inr no_character)
              (Except.error.inj finish_eq).symm
      · contradiction
    · contradiction
    · contradiction
    · split at h
      · rename_i outside
        exact .unbalanced outside (rest_of_closing piece_eq) (Or.inl rfl) (Except.error.inj h).symm
      · rename_i group outer groups_eq
        rcases bind_eq_error_iff.1 h with quantified | ⟨_, -, h⟩
        · refine refused_after_term outer group.outer.add piece_eq quantified ?_
          intro _ _ _ _ piece quantified
          exact .closing piece groups_eq quantified
        · contradiction
    · rcases bind_eq_error_iff.1 h with quantified | ⟨_, -, h⟩
      · refine refused_after_term p.groups p.level.add piece_eq quantified ?_
        intro _ _ _ _ piece quantified
        exact .term piece quantified
      · contradiction

end PatternSampler.Notation
