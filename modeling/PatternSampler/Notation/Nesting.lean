import PatternSampler.Notation.Piece

/-! # Reading a whole pattern

  Pieces are put together from left to right. The state is the level under way (what has
  been read of the innermost group, or of the pattern outside all groups) and the groups that
  are open around it, innermost first.

  - A term goes to the level under way, with the quantifier after it.
  - A bar ends a branch.
  - An opening starts a new level, and a closing turns the level into a group, which is a
    term of the level around it.

  Reading ends where no piece starts: at the end of the pattern, or at a symbol that is no
  character. Then no group may be open, and no symbol may be left.

  The draft read in this way does not depend on an alphabet. `parse` fills in the symbols
  that the brackets cover.
-/

namespace PatternSampler.Notation

/-- What has been read between two parentheses, or outside all of them. -/
structure Level where
  /-- The branches before the last bar, latest first. -/
  branches : List Draft
  /-- The terms after the last bar, latest first. -/
  terms : List Draft

namespace Level

/-- Nothing read. -/
def empty : Level := ⟨[], []⟩

/-- One more term. -/
def add (level : Level) (term : Draft) : Level := ⟨level.branches, term :: level.terms⟩

/-- The branch under way, as it stands. -/
def branch (level : Level) : Draft := .ofTerms level.terms.reverse

/-- A bar after the terms. -/
def split (level : Level) : Level := ⟨level.branch :: level.branches, []⟩

/-- The tree of the whole level. -/
def tree (level : Level) : Draft := .ofBranches (level.branch :: level.branches).reverse

end Level

/-- A group that has been opened and not closed. -/
structure OpenGroup where
  /-- The position of its parenthesis. -/
  opened : Nat
  /-- What its opening says. -/
  opening : Opening
  /-- What had been read of the level around it. -/
  outer : Level

/-- How far reading has got. -/
structure Progress where
  /-- The groups that are open, innermost first. -/
  groups : List OpenGroup
  /-- The level under way. -/
  level : Level
  /-- The place reached. -/
  cursor : Cursor

/-- What one step leads to. -/
inductive Step where
  /-- The whole pattern has been read. -/
  | finished (draft : Draft)
  /-- There is more to read. -/
  | onward (progress : Progress)

namespace Progress

/-- Nothing read. -/
def start (symbols : List Symbol) : Progress := ⟨[], .empty, .start symbols⟩

/-- How many symbols are still to come. -/
def remaining (p : Progress) : Nat := p.cursor.remaining

/-- Ends where no piece starts, which is right if no group is open and no symbol left. -/
def finish (p : Progress) : Except Misreading Draft :=
  match p.groups with
  | group :: _ => .error (.malformed group.opened .unterminatedGroup)
  | [] =>
    if p.cursor.rest.isEmpty then .ok p.level.tree
    else .error (.malformed p.cursor.position .unbalancedParenthesis)

/-- Reads one piece, and the quantifier after it if it ends a term. -/
def step (p : Progress) : Except Misreading Step := do
  match ← readPiece p.cursor with
  | none => return .finished (← p.finish)
  | some (.bar, stop) => return .onward ⟨p.groups, p.level.split, stop⟩
  | some (.opening opening, stop) =>
    return .onward ⟨⟨p.cursor.position, opening, p.level⟩ :: p.groups, .empty, stop⟩
  | some (.closing, stop) =>
    match p.groups with
    -- nothing after the parenthesis is looked at, not even a quantifier
    | [] => throw (.malformed p.cursor.position .unbalancedParenthesis)
    | group :: outer =>
      let (term, stop) ← quantify (group.opening.wrap p.level.tree) stop
      return .onward ⟨outer, group.outer.add term, stop⟩
  | some (.term t, stop) =>
    let (term, stop) ← quantify t stop
    return .onward ⟨p.groups, p.level.add term, stop⟩

/-- Every step that leads on takes a symbol at least. -/
theorem remaining_lt_of_step {p q : Progress} (h : p.step = .ok (.onward q)) :
    q.remaining < p.remaining := by
  unfold step at h
  rcases hp : readPiece p.cursor with _ | _ | ⟨piece, stop⟩
  · simp [hp, bind, Except.bind] at h
  · rcases hf : p.finish with _ | draft
    · simp [hp, hf, bind, Except.bind] at h
    · simp [hp, hf, bind, Except.bind, pure, Except.pure] at h
  · have piece_lt := remaining_lt_of_readPiece hp
    have of_quantify {t : Draft} {groups : List OpenGroup} {add : Draft → Level}
        (h : (do
          let (term, stop) ← quantify t stop
          return Step.onward ⟨groups, add term, stop⟩) = Except.ok (.onward q)) :
        q.remaining < p.remaining := by
      rcases hq : quantify t stop with _ | ⟨term, stop'⟩
      · simp [hq, bind, Except.bind] at h
      · have quantify_le := remaining_le_of_quantify hq
        simp only [hq, bind, Except.bind] at h
        cases h
        simp only [remaining]
        omega
    simp only [hp, bind, Except.bind] at h
    cases piece with
    | bar => cases h; exact piece_lt
    | opening o => cases h; exact piece_lt
    | closing =>
      cases hg : p.groups with
      | nil => simp [hg, throw, throwThe, MonadExceptOf.throw] at h
      | cons group outer =>
        simp only [hg] at h
        exact of_quantify h
    | term t => exact of_quantify h

/-- Reads to the end of the pattern. -/
def run (p : Progress) : Except Misreading Draft :=
  match h : p.step with
  | .error e => .error e
  | .ok (.finished draft) => .ok draft
  | .ok (.onward q) =>
    have : q.remaining < p.remaining := remaining_lt_of_step h
    q.run
termination_by p.remaining

theorem run_of_error {p : Progress} {e : Misreading} (h : p.step = .error e) :
    p.run = .error e := by
  unfold run; split <;> simp_all

theorem run_of_finished {p : Progress} {d : Draft} (h : p.step = .ok (.finished d)) :
    p.run = .ok d := by
  unfold run; split <;> simp_all

theorem run_of_onward {p q : Progress} (h : p.step = .ok (.onward q)) : p.run = q.run := by
  rw [run]; split <;> simp_all

end Progress

/-- The draft of a pattern. -/
def read (symbols : List Symbol) : Except Misreading Draft :=
  (Progress.start symbols).run

/-- The tree of a draft over an alphabet: every bracket holds the symbols it covers. -/
def Draft.over (a : Alphabet) (d : Draft) : Tree SymbolSet := d.map (covered a)

/-- The tree of a pattern over an alphabet. -/
def parse (a : Alphabet) (symbols : List Symbol) : Except Misreading (Tree SymbolSet) :=
  (read symbols).map (Draft.over a)

end PatternSampler.Notation
