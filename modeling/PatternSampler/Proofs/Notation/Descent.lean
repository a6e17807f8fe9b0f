import PatternSampler.Proofs.Notation.Nesting
import PatternSampler.Proofs.Notation.Procedures

/-! # Descent and steps

  The procedures for terms, branches and levels call each other, and the reader of `Nesting` takes
  steps with the open groups on a stack. Both read the same: what a procedure reads between two
  places is, over its alphabet, what the steps add to the level under way between them, whatever
  groups are open.

  Each call of a level inside a group starts further on than the group does, so that groups are
  nested no deeper than the pattern is long.

  `Discipline` lists what the procedures do with the place wherever they are called, and
  `pattern_disciplined` puts it together: the place never leaves the pattern, what takes a symbol
  moves it forward, what only looks leaves it alone, and so nothing goes on for ever.
-/

namespace PatternSampler.Notation

open Cursor

/-! ## Runs from a piece on -/

namespace Progress

variable {groups : List OpenGroup} {level : Level} {c stop : Cursor} {e : Misreading}

theorem run_of_piece_error (piece : readPiece c = .error e) :
    run ⟨groups, level, c⟩ = .error e :=
  run_of_error (by simp only [step, piece, bind, Except.bind])

theorem run_of_term {t : Draft} (piece : readPiece c = .ok (some (.term t, stop))) :
    run ⟨groups, level, c⟩ = (do
      let (term, stop) ← quantify t stop
      run ⟨groups, level.add term, stop⟩) := by
  cases read : quantify t stop with
  | error e => exact run_of_error (by simp only [step, piece, read, bind, Except.bind])
  | ok found => exact run_eq_of_onward (.term piece read)

theorem run_of_closing (closes : c.peek = some ')') (group : OpenGroup) :
    run ⟨group :: groups, level, c⟩ = (do
      let (term, stop) ← quantify (group.opening.wrap level.tree) c.next
      run ⟨groups, group.outer.add term, stop⟩) := by
  have piece : readPiece c = .ok (some (.closing, c.next)) := by
    rw [readPiece, closes]
    rfl
  cases read : quantify (group.opening.wrap level.tree) c.next with
  | error e => exact run_of_error (by simp only [step, piece, read, bind, Except.bind])
  | ok found => exact run_eq_of_onward (.closing piece rfl read)

theorem run_of_unopened (closes : c.peek = some ')') :
    run ⟨[], level, c⟩ = .error (.malformed c.position .unbalancedParenthesis) := by
  have piece : readPiece c = .ok (some (.closing, c.next)) := by
    rw [readPiece, closes]
    rfl
  exact run_of_error (by simp only [step, piece, bind, Except.bind]; rfl)

theorem run_of_bar (bar : c.peek = some '|') :
    run ⟨groups, level, c⟩ = run ⟨groups, level.split, c.next⟩ := by
  have piece : readPiece c = .ok (some (.bar, c.next)) := by
    rw [readPiece, bar]
    rfl
  exact run_eq_of_onward (.bar piece)

/-- Where no piece starts reading ends. -/
theorem run_of_end (ended : c.peek = none) :
    run ⟨groups, level, c⟩ = finish ⟨groups, level, c⟩ := by
  have piece : readPiece c = .ok none := by rw [readPiece, ended]
  cases finished : finish ⟨groups, level, c⟩ with
  | error e => exact run_of_error (by simp only [step, piece, finished, bind, Except.bind])
  | ok draft =>
    exact run_of_finished (by simp only [step, piece, finished, bind, Except.bind]; rfl)

end Progress

/-! ## What is read between two places -/

open Progress

/-- A term starts here: there is a character, and it ends no branch. -/
def StartsTerm (c : Cursor) : Prop := ∃ ch, c.peek = some ch ∧ ch ≠ ')' ∧ ch ≠ '|'

theorem not_startsTerm {c : Cursor} (no_char : c.peek = none) : ¬ StartsTerm c := by
  rintro ⟨ch, peeked, -⟩
  rw [no_char] at peeked
  cases peeked

/-- A branch ends where the pattern is at its end, or a symbol is no character, or before a closing
    or a bar. -/
theorem peek_of_not_startsTerm {c : Cursor} (no_term : ¬ StartsTerm c)
    (no_bar : c.peek ≠ some '|') : c.peek = none ∨ c.peek = some ')' := by
  cases peeked : c.peek with
  | none => exact Or.inl rfl
  | some ch =>
    by_cases closing : ch = ')'
    · exact Or.inr (congrArg some closing)
    · refine absurd ⟨ch, peeked, closing, ?_⟩ no_term
      rintro rfl
      exact no_bar peeked

/-- Steps from `c` on read a term that ends at `d`, up to its quantifier. -/
def ReadsTerm (c : Cursor) (t : Draft) (d : Cursor) : Prop :=
  ∀ groups level, run ⟨groups, level, c⟩ = do
    let (term, stop) ← quantify t d
    run ⟨groups, level.add term, stop⟩

/-- Steps from `c` on refuse the pattern. -/
def Refuses (c : Cursor) (reason : Misreading) : Prop :=
  ∀ groups level, run ⟨groups, level, c⟩ = .error reason

/-- Steps from `c` to `d` read a branch. -/
def ReadsBranch (c : Cursor) (t : Draft) (d : Cursor) : Prop :=
  ∃ terms, t = .ofTerms terms.reverse ∧
    ∀ groups branches, run ⟨groups, ⟨branches, []⟩, c⟩ = run ⟨groups, ⟨branches, terms⟩, d⟩

/-- Steps from `c` to `d` read a level. -/
def ReadsLevel (c : Cursor) (t : Draft) (d : Cursor) : Prop :=
  ∃ level, t = level.tree ∧ ∀ groups, run ⟨groups, .empty, c⟩ = run ⟨groups, level, d⟩

namespace Descent

variable {a : Alphabet} {input : Input} {place : Place}

/-- The procedure reads at a place the level that the steps read there, over an alphabet. -/
def LevelAt (a : Alphabet) (input : Input) (procedure : Descent (Tree SymbolSet))
    (place : Place) : Prop :=
  Ends input procedure place
    (fun t after => place.position ≤ after.position ∧
      ((input.cursor after).peek = none ∨ (input.cursor after).peek = some ')') ∧
      ∃ d : Draft, t = d.over a ∧ ReadsLevel (input.cursor place) d (input.cursor after))
    (fun reason => ∀ groups, run ⟨groups, .empty, input.cursor place⟩ = .error reason)

/-- The procedure reads at a place the term that the steps read there, over an alphabet. It goes on
    past a symbol at least, also where no term starts. -/
def TermAt (a : Alphabet) (input : Input) (procedure : Descent (Tree SymbolSet))
    (place : Place) : Prop :=
  Ends input procedure place
    (fun t after => place.position < after.position ∧
      (StartsTerm (input.cursor place) →
        ∃ d : Draft, t = d.over a ∧ ReadsTerm (input.cursor place) d (input.cursor after)))
    (fun reason => StartsTerm (input.cursor place) → Refuses (input.cursor place) reason)

/-! ## Terms -/

/-- A term without parts. -/
theorem termAt_of_readTerm {procedure : Descent (Tree SymbolSet)} {ch : Char}
    (inside : place.Inside input) (peeked : (input.cursor place).peek = some ch)
    (no_group : ch ≠ '(')
    (makes : Makes input procedure (Draft.over a) place (readTerm ch (input.cursor place))) :
    TermAt a input procedure place := by
  have piece (starts : StartsTerm (input.cursor place)) :
      readPiece (input.cursor place) =
        readTerm ch (input.cursor place) >>= fun read => .ok (some (.term read.1, read.2)) := by
    obtain ⟨ch', peeked', no_closing, no_bar⟩ := starts
    rw [peeked] at peeked'
    cases peeked'
    unfold readPiece
    rw [peeked]
    split <;> simp_all
  refine makes.imp ?_ ?_
  · rintro t after inside_after ⟨d, rfl, read⟩
    refine ⟨?_, fun starts => ⟨d, rfl, fun groups level => ?_⟩⟩
    · apply inside.position_lt inside_after
      exact Nat.lt_of_le_of_lt (remaining_le_of_readTerm read) (remaining_next_lt_of_peek peeked)
    · apply run_of_term
      rw [piece starts, read]
      rfl
  · intro reason refused starts groups level
    apply run_of_piece_error
    rw [piece starts, refused]
    rfl

/-- A symbol that stands for itself, if there is one. It may be no character, and then the steps
    read no term here. -/
theorem termAt_literal (inside : place.Inside input)
    (ordinary : ∀ ch, (input.cursor place).peek = some ch → ch ≠ '(' ∧
      readTerm ch (input.cursor place) = .ok (.literal (.ofChar ch), (input.cursor place).next)) :
    TermAt a input (do
      match ← advance with
      | some symbol => return .literal symbol
      | none => refuse (.malformed place.position .endOfPattern)) place := by
  cases peeked : (input.cursor place).peek with
  | none =>
    have no_term := not_startsTerm peeked
    refine Ends.advance inside (fun _ => ?_) fun symbol rest after rest_eq inside_after passed => ?_
    · exact .refuse inside fun starts => absurd starts no_term
    · refine .pure inside_after ⟨?_, fun starts => absurd starts no_term⟩
      apply inside.position_lt inside_after
      rw [passed]
      exact remaining_next_lt (by simp [rest_eq])
  | some ch =>
    obtain ⟨no_group, read⟩ := ordinary ch peeked
    obtain ⟨tail, tail_eq⟩ := peek_eq_some_iff.1 peeked
    refine termAt_of_readTerm inside peeked no_group ?_
    refine Ends.advance inside (fun ended => ?_) ?_
    · rw [ended] at tail_eq
      cases tail_eq
    · intro symbol rest after rest_eq inside_after passed
      rw [rest_eq] at tail_eq
      cases tail_eq
      exact .pure inside_after ⟨.literal _, rfl, by rw [read, passed]⟩

/-- A character stands for a term. -/
theorem makes_leaf {ch : Char} {d : Draft} (inside : place.Inside input)
    (peeked : (input.cursor place).peek = some ch)
    (read : readTerm ch (input.cursor place) = .ok (d, (input.cursor place).next)) :
    Makes input (do pass; return d.over a) (Draft.over a) place
      (readTerm ch (input.cursor place)) := by
  refine Ends.pass inside (rest_ne_nil_of_peek peeked) fun after inside_after passed => ?_
  exact .pure inside_after ⟨d, rfl, by rw [read, passed]⟩

section
variable (enough : input.symbols.length < input.limit) {nested : Descent (Tree SymbolSet)}
  {bound : Nat}
  (levels : ∀ here : Place, here.Inside input → bound < here.position →
    LevelAt a input nested here)
include enough levels

theorem termAt_group (inside : place.Inside input) (further : bound ≤ place.position)
    (opens : (input.cursor place).peek = some '(') : TermAt a input (group nested) place := by
  refine Ends.position (Ends.bind ((gives_opening enough inside opens).imp_reason ?_) ?_)
  · intro reason refused _ groups level
    apply run_of_piece_error
    unfold readPiece
    rw [opens, refused]
    rfl
  intro opening start inside_start opened
  have piece : readPiece (input.cursor place) =
      .ok (some (.opening opening, input.cursor start)) := by
    unfold readPiece
    rw [opens, opened]
    rfl
  have forward : place.position < start.position :=
    inside.position_lt inside_start (remaining_lt_of_readPiece piece)
  -- the group is open while the level inside it is read
  have enters (groups : List OpenGroup) (level : Level) :
      run ⟨groups, level, input.cursor place⟩ =
        run ⟨⟨place.position, opening, level⟩ :: groups, .empty, input.cursor start⟩ :=
    run_eq_of_onward (.opening piece)
  refine Ends.bind ((levels start inside_start (by omega)).imp_reason ?_) ?_
  · intro reason refused _ groups level
    rw [enters, refused]
  rintro body here inside_here ⟨not_back, stops, d, rfl, level', rfl, reads⟩
  refine Ends.eat inside_here (fun after inside_after eaten => ?_) fun stays => ?_
  · obtain ⟨closes, passed⟩ := eat?_eq_some_iff.1 eaten
    refine .pure inside_after ⟨?_, fun _ => ⟨opening.wrap level'.tree, ?_, fun groups level => ?_⟩⟩
    · have := position_of_next closes passed.symm
      omega
    · rw [over_wrap]
    · rw [enters, reads, run_of_closing closes, passed]
  · -- the level ends at a parenthesis or where no piece starts, so it is the latter
    have ended : (input.cursor here).peek = none :=
      stops.resolve_right (eat?_eq_none_iff.1 stays)
    refine .refuse inside_here fun _ groups level => ?_
    rw [enters, reads, run_of_end ended]
    rfl

theorem termAt_atom (inside : place.Inside input) (further : bound ≤ place.position) :
    TermAt a input (atom a nested) place := by
  have group_read := termAt_group enough levels inside further
  have bracket_read := makes_bracket a enough inside
  have escape_read := makes_escapedTerm a inside
  refine Ends.position (Ends.peek ?_)
  -- one case for each character that starts a term of its own kind
  generalize peeked : (input.cursor place).peek = first at group_read bracket_read escape_read ⊢
  split
  · exact group_read rfl
  · exact termAt_of_readTerm inside peeked (by decide) (bracket_read rfl)
  · exact termAt_of_readTerm inside peeked (by decide) (escape_read rfl)
  · exact termAt_of_readTerm inside peeked (by decide)
      (@makes_leaf a _ _ _ .wildcard inside peeked rfl)
  · exact termAt_of_readTerm inside peeked (by decide)
      (@makes_leaf a _ _ _ (.anchor .start) inside peeked rfl)
  · exact termAt_of_readTerm inside peeked (by decide)
      (@makes_leaf a _ _ _ (.anchor .finish) inside peeked rfl)
  · exact termAt_of_readTerm inside peeked (by decide) (.refuse inside rfl)
  · exact termAt_of_readTerm inside peeked (by decide) (.refuse inside rfl)
  · exact termAt_of_readTerm inside peeked (by decide) (.refuse inside rfl)
  · refine termAt_literal inside fun ch peeked' => ?_
    rw [peeked] at peeked'
    subst peeked'
    refine ⟨by simp_all, ?_⟩
    unfold readTerm
    split <;> simp_all

/-! ## Terms with quantifiers, branches and levels -/

theorem ends_quantified (inside : place.Inside input) (further : bound ≤ place.position) :
    Ends input (quantified a nested) place
      (fun t after => place.position < after.position ∧ (StartsTerm (input.cursor place) →
        ∃ d : Draft, t = d.over a ∧ ∀ groups level, run ⟨groups, level, input.cursor place⟩ =
          run ⟨groups, level.add d, input.cursor after⟩))
      (fun reason => StartsTerm (input.cursor place) → Refuses (input.cursor place) reason) := by
  refine Ends.bind (termAt_atom enough levels inside further) ?_
  rintro t here inside_here ⟨forward, reads⟩
  refine (gives_repeated enough inside_here t).imp ?_ ?_
  · intro term after inside_after quantified
    refine ⟨?_, fun starts => ?_⟩
    · have := inside_here.position_le inside_after (remaining_le_of_quantify quantified)
      omega
    · obtain ⟨d, rfl, d_reads⟩ := reads starts
      obtain ⟨e, rfl, d_quantified⟩ := quantify_over_ok quantified
      refine ⟨e, rfl, fun groups level => ?_⟩
      rw [d_reads, d_quantified]
      rfl
  · intro reason refused starts groups level
    obtain ⟨d, rfl, d_reads⟩ := reads starts
    rw [d_reads, quantify_over_error refused]
    rfl

/-- A turn of reading a branch takes a term to it, or ends it where no term starts. -/
theorem ends_termTurn (inside : place.Inside input) (further : bound ≤ place.position)
    (terms : List (Tree SymbolSet)) :
    Ends input (termTurn a nested terms) place
      (fun next after =>
        match next with
        | .inl terms' => place.position < after.position ∧
            ∃ d : Draft, terms' = d.over a :: terms ∧
              ∀ groups level, run ⟨groups, level, input.cursor place⟩ =
                run ⟨groups, level.add d, input.cursor after⟩
        | .inr t => t = .ofTerms terms.reverse ∧ after = place ∧
            ¬ StartsTerm (input.cursor place))
      (Refuses (input.cursor place)) := by
  refine Ends.peek ?_
  cases peeked : (input.cursor place).peek with
  | none => exact .pure inside ⟨rfl, rfl, not_startsTerm peeked⟩
  | some ch =>
    simp only
    split
    · rename_i ends
      refine .pure inside ⟨rfl, rfl, ?_⟩
      rintro ⟨ch', peeked', no_closing, no_bar⟩
      rw [peeked] at peeked'
      cases peeked'
      simp [no_closing, no_bar] at ends
    · rename_i goes_on
      have starts : StartsTerm (input.cursor place) := ⟨ch, peeked, by simpa using goes_on⟩
      refine Ends.bind ((ends_quantified enough levels inside further).imp_reason ?_) ?_
      · exact fun reason refused => refused starts
      · rintro t after inside_after ⟨forward, reads⟩
        obtain ⟨d, rfl, d_reads⟩ := reads starts
        exact .pure inside_after ⟨forward, d, rfl, d_reads⟩

theorem ends_branch (inside : place.Inside input) (further : bound ≤ place.position) :
    Ends input (branch a nested) place
      (fun t after => place.position ≤ after.position ∧ ¬ StartsTerm (input.cursor after) ∧
        ∃ d : Draft, t = d.over a ∧ ReadsBranch (input.cursor place) d (input.cursor after))
      (fun reason => ∀ groups branches,
        run ⟨groups, ⟨branches, []⟩, input.cursor place⟩ = .error reason) := by
  -- the terms taken so far are those that the steps have added to the branch under way
  refine Ends.loop enough (fun terms here => place.position ≤ here.position ∧
    ∃ ds : List Draft, terms = ds.map (Draft.over a) ∧
      ∀ groups branches, run ⟨groups, ⟨branches, []⟩, input.cursor place⟩ =
        run ⟨groups, ⟨branches, ds⟩, input.cursor here⟩)
    ?_ inside ⟨Nat.le_refl _, [], rfl, fun _ _ => rfl⟩
  rintro _ here inside_here ⟨not_back, ds, rfl, reads⟩
  refine (ends_termTurn enough levels inside_here (Nat.le_trans further not_back) _).imp ?_ ?_
  · intro next after inside_after turn
    cases next with
    | inl terms' =>
      obtain ⟨forward, d, rfl, read⟩ := turn
      refine ⟨forward, by omega, d :: ds, rfl, fun groups branches => ?_⟩
      rw [reads, read]
      rfl
    | inr t =>
      obtain ⟨rfl, rfl, no_term⟩ := turn
      refine ⟨not_back, no_term, .ofTerms ds.reverse, ?_, ds, rfl, reads⟩
      rw [over_ofTerms, List.map_reverse]
  · intro reason refused groups branches
    rw [reads, refused]

/-- A turn of reading a level takes a branch to it, or ends it where no bar stands. -/
theorem ends_branchTurn (inside : place.Inside input) (further : bound ≤ place.position)
    (branches : List (Tree SymbolSet)) :
    Ends input (branchTurn a nested branches) place
      (fun next after =>
        match next with
        | .inl branches' => place.position < after.position ∧
            ¬ StartsTerm (input.cursor after) ∧
            ∃ terms : List Draft, branches' = Draft.over a (.ofTerms terms.reverse) :: branches ∧
              ∀ groups level, run ⟨groups, level, input.cursor place⟩ =
                run ⟨groups, ⟨level.branch :: level.branches, terms⟩, input.cursor after⟩
        | .inr t => t = .ofBranches branches.reverse ∧ after = place ∧
            (input.cursor place).peek ≠ some '|')
      (Refuses (input.cursor place)) := by
  refine Ends.eat inside (fun here inside_here eaten => ?_) fun stays => ?_
  · obtain ⟨bar, passed⟩ := eat?_eq_some_iff.1 eaten
    have forward := position_of_next bar passed.symm
    have splits (groups : List OpenGroup) (level : Level) :
        run ⟨groups, level, input.cursor place⟩ =
          run ⟨groups, ⟨level.branch :: level.branches, []⟩, input.cursor here⟩ := by
      rw [run_of_bar bar, passed]
      rfl
    refine Ends.bind ((ends_branch enough levels inside_here (by omega)).imp_reason ?_) ?_
    · intro reason refused groups level
      rw [splits, refused]
    · rintro _ after inside_after ⟨not_back, no_term, d, rfl, terms, rfl, reads⟩
      refine .pure inside_after ⟨by omega, no_term, terms, rfl, fun groups level => ?_⟩
      rw [splits, reads]
  · exact .pure inside ⟨rfl, rfl, eat?_eq_none_iff.1 stays⟩

end

/-- With a limit past the symbols that are still to come, a level is read as the steps read it. -/
theorem levelAt_levelWithin (enough : input.symbols.length < input.limit) (depth : Nat) :
    ∀ place : Place, place.Inside input → input.symbols.length < place.position + depth →
      LevelAt a input (levelWithin a depth) place := by
  induction depth with
  | zero =>
    intro place inside deep
    have := inside.position
    omega
  | succ depth ih =>
    intro place inside deep
    -- a level inside a group starts after this one, and may be nested one level less
    have levels (here : Place) (inside_here : here.Inside input)
        (later : place.position < here.position) : LevelAt a input (levelWithin a depth) here :=
      ih here inside_here (by omega)
    refine Ends.bind ((ends_branch enough levels inside (Nat.le_refl _)).imp_reason ?_) ?_
    · intro reason refused groups
      exact refused groups []
    rintro _ start inside_start ⟨not_back, no_term, d, rfl, terms, rfl, reads⟩
    -- the branches taken so far are those of the level under way, and the last of them has ended
    refine Ends.loop enough (fun branches here => place.position ≤ here.position ∧
      ¬ StartsTerm (input.cursor here) ∧
      ∃ level : Level, branches = (level.branch :: level.branches).map (Draft.over a) ∧
        ∀ groups, run ⟨groups, .empty, input.cursor place⟩ = run ⟨groups, level, input.cursor here⟩)
      ?_ inside_start ⟨not_back, no_term, ⟨[], terms⟩, rfl, fun groups => reads groups []⟩
    rintro _ here inside_here ⟨not_back, no_term, level, rfl, reads⟩
    refine (ends_branchTurn enough levels inside_here not_back _).imp ?_ ?_
    · intro next after inside_after turn
      cases next with
      | inl branches' =>
        obtain ⟨forward, no_term, terms, rfl, read⟩ := turn
        refine ⟨forward, by omega, no_term, ⟨level.branch :: level.branches, terms⟩, rfl, ?_⟩
        intro groups
        rw [reads, read]
      | inr t =>
        obtain ⟨rfl, rfl, no_bar⟩ := turn
        refine ⟨not_back, peek_of_not_startsTerm no_term no_bar, level.tree, ?_, level, rfl, reads⟩
        rw [Level.tree, over_ofBranches, List.map_reverse]
    · intro reason refused groups
      rw [reads, refused]

/-! ## Whole patterns -/

/-- The procedures read what the steps read, and leave off at the end of the pattern. -/
theorem ends_pattern (enough : input.symbols.length < input.limit) :
    Ends input (pattern a) .start
      (fun t after => parse a input.symbols = .ok t ∧ after.position = input.symbols.length)
      (fun reason => parse a input.symbols = .error reason) := by
  have level_read : LevelAt a input (level a) .start :=
    levelAt_levelWithin enough input.limit .start (Place.inside_start input)
      (by simpa [Place.start] using enough)
  have parse_eq : parse a input.symbols =
      (run ⟨[], .empty, input.cursor .start⟩).map (Draft.over a) := rfl
  refine Ends.bind (level_read.imp_reason ?_) ?_
  · intro reason refused
    rw [parse_eq, refused]
    rfl
  rintro _ after inside_after ⟨-, stops, d, rfl, level, rfl, reads⟩
  -- outside all groups reading ends at the end, and a parenthesis or a symbol that is no character
  -- is refused
  refine Ends.atEnd ?_
  split
  · rename_i ended
    rw [List.isEmpty_iff] at ended
    refine .pure inside_after ⟨?_, ?_⟩
    · rw [parse_eq, reads, run_of_end (by simp [Cursor.peek, ended])]
      simp [finish, ended, Except.map]
    · have := inside_after.position
      have := List.drop_eq_nil_iff.1 ended
      omega
  · rename_i more
    refine Ends.position (.refuse inside_after ?_)
    rw [parse_eq, reads]
    rcases stops with no_char | closes
    · rw [run_of_end no_char]
      simp only [finish, if_neg more]
      rfl
    · rw [run_of_unopened closes]
      rfl

/-! ## How the place is treated -/

section
variable {σ α : Type}

/-- The procedure ends inside the pattern, and a value means that the place has moved forward. -/
def Advances (input : Input) (procedure : Descent α) (place : Place) : Prop :=
  Ends input procedure place (fun _ after => place.position < after.position) (fun _ => True)

/-- From any state, a turn at the place ends, and unless it is the last it moves the place
    forward. -/
def TurnsForward (input : Input) (turn : σ → Descent (σ ⊕ α)) (place : Place) : Prop :=
  ∀ state, Ends input (turn state) place
    (fun next after => ∀ state', next = .inl state' → place.position < after.position)
    (fun _ => True)

/-- The loop ends when it is started at the place. -/
structure LoopEnds (input : Input) (turn : σ → Descent (σ ⊕ α)) (place : Place) : Prop where
  /-- A turn that is not the last makes progress. -/
  forward : TurnsForward input turn place
  /-- From any state, the loop comes to its last turn or refuses the pattern. -/
  ends : ∀ first, Ends input (loop turn first) place (fun _ _ => True) (fun _ => True)

theorem loopEnds_of_forward (enough : input.symbols.length < input.limit)
    (inside : place.Inside input) {turn : σ → Descent (σ ⊕ α)}
    (forward : ∀ here : Place, here.Inside input → place.position ≤ here.position →
      TurnsForward input turn here) : LoopEnds input turn place := by
  refine ⟨forward place inside (Nat.le_refl _), fun first => ?_⟩
  refine Ends.loop enough (fun _ here => place.position ≤ here.position) ?_ inside (Nat.le_refl _)
  intro state here inside_here later
  refine (forward here inside_here later state).imp ?_ (fun _ _ => trivial)
  intro next after inside_after moved
  cases next with
  | inl state' =>
    have := moved state' rfl
    exact ⟨this, by omega⟩
  | inr value => trivial

end

/-- How the procedures treat the place when they are called at it. Those for terms, branches and
    levels are given the level of a depth that is reached from there. -/
structure Discipline (a : Alphabet) (input : Input) (place : Place) : Prop where
  /-- A term that is read takes a symbol. -/
  atom : ∀ depth, input.symbols.length ≤ place.position + depth →
    Advances input (atom a (levelWithin a depth)) place
  /-- So does a term with its quantifier. -/
  quantified : ∀ depth, input.symbols.length ≤ place.position + depth →
    Advances input (quantified a (levelWithin a depth)) place
  /-- So does a symbol or shorthand in a bracket. -/
  bracketAtom : ∀ negated, Advances input (bracketAtom a negated) place
  /-- If there is no quantifier, the place is where it was. -/
  quantifier : Ends input quantifier place
    (fun found after => found = none → after.position = place.position) (fun _ => True)
  /-- Looking for a quantifier never refuses the pattern, and the place is where it was. -/
  atQuantifier : Ends input atQuantifier place
    (fun _ after => after.position = place.position) (fun _ => False)
  /-- The digits of a number end. -/
  digits : ∀ start, LoopEnds input (digitTurn start) place
  /-- The items of a bracket end. -/
  items : ∀ negated opened, LoopEnds input (itemTurn a negated opened) place
  /-- The characters of a name end. -/
  nameChars : ∀ start, LoopEnds input (nameTurn start) place
  /-- The terms of a branch end. -/
  terms : ∀ depth, input.symbols.length ≤ place.position + depth →
    LoopEnds input (termTurn a (levelWithin a depth)) place
  /-- The branches of a level end. -/
  branches : ∀ depth, input.symbols.length ≤ place.position + depth →
    LoopEnds input (branchTurn a (levelWithin a depth)) place
  /-- The nesting of groups ends. -/
  level : ∀ depth, input.symbols.length < place.position + depth →
    Ends input (levelWithin a depth) place (fun _ after => place.position ≤ after.position)
      (fun _ => True)

/-- With a depth that is enough for the symbols from the place on, levels that start later are
    read. -/
theorem levels_after (enough : input.symbols.length < input.limit) {depth : Nat}
    (deep : input.symbols.length ≤ place.position + depth) (here : Place)
    (inside : here.Inside input) (later : place.position < here.position) :
    LevelAt a input (levelWithin a depth) here :=
  levelAt_levelWithin enough depth here inside (by omega)

theorem discipline (enough : input.symbols.length < input.limit) (inside : place.Inside input) :
    Discipline a input place where
  atom depth deep := by
    have read : TermAt a input (atom a (levelWithin a depth)) place :=
      termAt_atom enough (levels_after enough deep) inside (Nat.le_refl _)
    exact read.imp (fun _ _ _ read => read.1) fun _ _ => trivial
  quantified depth deep := by
    refine (ends_quantified enough (levels_after enough deep) inside (Nat.le_refl _)).imp ?_
      fun _ _ => trivial
    exact fun _ _ _ read => read.1
  bracketAtom negated := by
    refine (makes_bracketAtom a negated inside).imp ?_ fun _ _ => trivial
    rintro _ after inside_after ⟨atom, -, read⟩
    exact inside.position_lt inside_after (remaining_lt_of_readBracketAtom read)
  quantifier := by
    refine (mayGive_quantifier enough inside).imp ?_ fun _ _ => trivial
    rintro found after - read rfl
    exact read.2
  atQuantifier := (ends_atQuantifier enough inside).imp (fun _ _ _ looked => looked.2) fun _ => id
  digits start := by
    refine loopEnds_of_forward enough inside fun here inside_here _ value => ?_
    refine (ends_digitTurn inside_here start value).imp ?_ fun _ _ => trivial
    rintro next after - turn value' rfl
    obtain ⟨digit, peeked, -, -, -, passed⟩ := turn
    rw [position_of_next peeked passed]
    exact Nat.lt_succ_self _
  items negated opened := by
    refine loopEnds_of_forward enough inside fun here inside_here _ state => ?_
    refine (ends_itemTurn a negated inside_here opened state.1 state.2).imp ?_ fun _ _ => trivial
    rintro next after - turn state' rfl
    exact turn.1
  nameChars start := by
    refine loopEnds_of_forward enough inside fun here inside_here _ chars => ?_
    refine (ends_nameTurn inside_here start chars).imp ?_ fun _ _ => trivial
    rintro next after - ⟨ch, peeked, passed, -⟩ chars' rfl
    rw [position_of_next peeked passed]
    exact Nat.lt_succ_self _
  terms depth deep := by
    refine loopEnds_of_forward enough inside fun here inside_here later terms => ?_
    refine (ends_termTurn enough (levels_after enough deep) inside_here later terms).imp ?_
      fun _ _ => trivial
    rintro next after - turn terms' rfl
    exact turn.1
  branches depth deep := by
    refine loopEnds_of_forward enough inside fun here inside_here later branches => ?_
    refine (ends_branchTurn enough (levels_after enough deep) inside_here later branches).imp ?_
      fun _ _ => trivial
    rintro next after - turn branches' rfl
    exact turn.1
  level depth deep := by
    have read : LevelAt a input (levelWithin a depth) place :=
      levelAt_levelWithin enough depth place inside deep
    exact read.imp (fun _ _ _ read => read.1) fun _ _ => trivial

/-- What can be said of the place while a pattern is read by descent, over any alphabet.

    Under every limit past the length of the pattern there is a result, and it is the one of
    `parse`. The place is never moved out of the pattern, and it is at the end if there is a tree.
    Wherever the procedures are called, those that have to take a symbol do, those that only look
    leave the place alone, and every loop and the nesting of groups end. -/
theorem pattern_disciplined (a : Alphabet) (input : Input)
    (enough : input.symbols.length < input.limit) :
    (∃ last, pattern a input .start = some (parse a input.symbols, last) ∧ last.Inside input ∧
      ∀ t, parse a input.symbols = .ok t → last.position = input.symbols.length) ∧
    ∀ place : Place, place.Inside input → Discipline a input place := by
  refine ⟨?_, fun place inside => discipline enough inside⟩
  obtain ⟨outcome, last, result, inside, read_eq⟩ := ends_pattern (a := a) enough
  refine ⟨last, ?_, inside, ?_⟩
  · cases outcome with
    | ok t => rw [result, read_eq.1]
    | error reason => rw [result, read_eq]
  · intro t parsed
    cases outcome with
    | ok _ => exact read_eq.2
    | error reason =>
      rw [read_eq] at parsed
      cases parsed

/-- The place goes through a pattern with a group, a bracket and a brace that stands for itself. -/
theorem pattern_disciplined_group_and_brace :
    let a : Alphabet := .ofIntervals [⟨0, 0x10FFFF⟩]
    let input : Input := ⟨ofChars ['(', 'a', '|', '[', 'b', '-', 'd', ']', ')', '{'], 11⟩
    (∃ t last, parse a input.symbols = .ok t ∧ pattern a input .start = some (.ok t, last) ∧
      last.position = 10 ∧ ∀ p ∈ last.visited, p ≤ 10) ∧
      Discipline a input ⟨9, [9]⟩ := by
  intro a input
  have enough : input.symbols.length < input.limit := by decide
  obtain ⟨⟨last, result, inside, at_end⟩, everywhere⟩ := pattern_disciplined a input enough
  have ran : ∃ t after, pattern a input .start = some (.ok t, after) := ⟨_, _, by rfl⟩
  obtain ⟨t, after, ran⟩ := ran
  rw [ran] at result
  obtain ⟨parsed, rfl⟩ := Prod.mk.inj (Option.some.inj result)
  refine ⟨⟨t, _, parsed.symm, ran, at_end t parsed.symm, inside.visited⟩, ?_⟩
  exact everywhere ⟨9, [9]⟩ ⟨by decide, by decide⟩

end Descent

end PatternSampler.Notation
