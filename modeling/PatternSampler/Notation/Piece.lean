import PatternSampler.Notation.Bracket
import PatternSampler.Notation.Quantifier

/-! # The pieces of a pattern

  A pattern is a row of pieces: terms that contain no other terms, bars, and the openings and
  closings of groups. Reading one piece never depends on the pieces around it; how they nest
  is the matter of the next module.

  Groups are the part of the notation with many neighbours. `(?` opens either one of the
  supported kinds or a construct that is recognised and refused by name; anything else is a
  fault at the character after the question mark.
-/

namespace PatternSampler.Notation

/-- A tree whose brackets hold their items as written. -/
abbrev Draft := Tree (List BracketItem)

/-- What the opening of a group says about it. -/
inductive Opening where
  /-- A group that captures or not, and may have a name. -/
  | group (capturing : Bool) (name : Option String)
  /-- A lookaround. -/
  | look (side : Side) (negative : Bool)
deriving DecidableEq, Repr

/-- The group that was opened like this and holds `body`. -/
def Opening.wrap {β : Type} (body : Tree β) : Opening → Tree β
  | group capturing name => .group body capturing name
  | look side negative => .look side body negative

/-- A piece of a pattern. -/
inductive Piece where
  /-- A term without parts. -/
  | term (t : Draft)
  /-- The opening of a group. -/
  | opening (o : Opening)
  /-- `)`. -/
  | closing
  /-- `|`. -/
  | bar

/-! ## Groups -/

/-- Whether a character may stand in a group's name. -/
def isNameChar (c : Char) : Bool := c.isAlphanum || c = '_'

/-- The name that starts here, and the place after the `>` that closes it. A name has a
    character at least, and does not start with a digit. -/
def readName (c : Cursor) : Except Misreading (String × Cursor) :=
  let (chars, stop) := c.takeWhile isNameChar
  if chars.head?.any Char.isDigit then .error (.malformed c.position .badNameCharacter)
  else
    match stop.peek with
    | some '>' =>
      if chars.isEmpty then .error (.malformed c.position .missingName)
      else .ok (.ofList chars, stop.next)
    | some _ => .error (.malformed stop.position .badNameCharacter)
    | none => .error (.malformed c.position .unterminatedName)

/-- The opening of a named group whose name starts here. -/
def readNamed (c : Cursor) : Except Misreading (Opening × Cursor) := do
  let (name, stop) ← readName c
  .ok (.group true (some name), stop)

/-- Whether a character sets a flag, or starts the flags to be cleared. -/
def isFlag (c : Char) : Bool := c ∈ ['a', 'i', 'L', 'm', 's', 'u', 'x', 'U', '-']

/-- The kind of group that `(?` opens: `opened` is the position of the parenthesis, and `c`
    the place after the question mark. -/
def readExtension (opened : Nat) (c : Cursor) : Except Misreading (Opening × Cursor) :=
  match c.peek with
  | some ':' => .ok (.group false none, c.next)
  | some '=' => .ok (.look .ahead false, c.next)
  | some '!' => .ok (.look .ahead true, c.next)
  | some '<' =>
    match c.next.peek with
    | some '=' => .ok (.look .behind false, c.next.next)
    | some '!' => .ok (.look .behind true, c.next.next)
    | some ch =>
      if ch.isDigit then .error (.unsupported opened .recursion) else readNamed c.next
    | none => readNamed c.next
  | some 'P' =>
    match c.next.peek with
    | some '<' => readNamed c.next.next
    | some '=' => .error (.unsupported opened .namedBackreference)
    | some '>' => .error (.unsupported opened .recursion)
    | _ => .error (.malformed c.position (.unknownExtension 'P'))
  | some 'R' | some '&' | some '+' => .error (.unsupported opened .recursion)
  | some '(' => .error (.unsupported opened .conditional)
  | some '#' => .error (.unsupported opened .comment)
  | some ch =>
    if ch.isDigit then .error (.unsupported opened .recursion)
    else if isFlag ch then .error (.unsupported opened .inlineFlags)
    else .error (.malformed c.position (.unknownExtension ch))
  | none => .error (.malformed c.position .endOfPattern)

/-- The opening at a parenthesis, and the place where the group's body starts. -/
def readOpening (c : Cursor) : Except Misreading (Opening × Cursor) :=
  match c.next.eat? '?' with
  | none => .ok (.group true none, c.next)
  | some afterMark => readExtension c.position afterMark

/-! ## Terms -/

/-- The term that the escape at a backslash stands for. References to groups are recognised
    and refused. -/
def readEscapedTerm (c : Cursor) : Except Misreading (Draft × Cursor) := do
  match ← readEscape c with
  | (.shorthand kind, stop) => .ok (.shorthand kind, stop)
  | (.symbol s, stop) => .ok (.literal s, stop)
  | (.other (some ch), stop) =>
    if ch.isDigit && ch != '0' then .error (.unsupported c.position .backreference)
    else if ch = 'k' && stop.peek = some '<' then
      .error (.unsupported c.position .namedBackreference)
    else .error (.malformed c.position (.badEscape (some ch)))
  | (.other none, _) => .error (.malformed c.position (.badEscape none))

/-- The term that starts with the character `ch` here, where that character is neither a bar
    nor a parenthesis. -/
def readTerm (ch : Char) (c : Cursor) : Except Misreading (Draft × Cursor) :=
  match ch with
  | '[' => do
    let (items, negated, stop) ← readBracket c
    .ok (.bracket items negated, stop)
  | '\\' => readEscapedTerm c
  | '.' => .ok (.wildcard, c.next)
  | '^' => .ok (.anchor .start, c.next)
  | '$' => .ok (.anchor .finish, c.next)
  | '*' | '+' | '?' => .error (.malformed c.position .nothingToRepeat)
  | _ => .ok (.literal (.ofChar ch), c.next)

/-- The piece that starts here and the place after it; none at the end of the pattern, and
    none before a symbol that is no character. -/
def readPiece (c : Cursor) : Except Misreading (Option (Piece × Cursor)) :=
  match c.peek with
  | none => .ok none
  | some ')' => .ok (some (.closing, c.next))
  | some '|' => .ok (some (.bar, c.next))
  | some '(' => do
    let (opening, stop) ← readOpening c
    .ok (some (.opening opening, stop))
  | some ch => do
    let (term, stop) ← readTerm ch c
    .ok (some (.term term, stop))

/-! ## How far each step goes -/

theorem remaining_le_of_readName {c d : Cursor} {name : String}
    (h : readName c = .ok (name, d)) : d.remaining ≤ c.remaining := by
  have le := Cursor.remaining_takeWhile_le isNameChar c
  have next_le := Cursor.remaining_next_le (c.takeWhile isNameChar).2
  unfold readName at h
  simp only at h
  split at h
  · cases h
  · split at h
    · split at h
      · cases h
      · cases h; omega
    · cases h
    · cases h

theorem remaining_le_of_readNamed {c d : Cursor} {o : Opening}
    (h : readNamed c = .ok (o, d)) : d.remaining ≤ c.remaining := by
  unfold readNamed at h
  rcases hn : readName c with _ | ⟨name, stop⟩
  · simp [hn, bind, Except.bind] at h
  · have name_le := remaining_le_of_readName hn
    simp only [hn, bind, Except.bind] at h
    cases h
    exact name_le

theorem remaining_le_of_readExtension {opened : Nat} {c d : Cursor} {o : Opening}
    (h : readExtension opened c = .ok (o, d)) : d.remaining ≤ c.remaining := by
  have next_le := Cursor.remaining_next_le c
  have next_next_le := Cursor.remaining_next_le c.next
  unfold readExtension at h
  repeat' split at h
  all_goals first
    | (have le := remaining_le_of_readNamed h; omega)
    | (cases h <;> omega)

theorem remaining_le_of_readOpening {c d : Cursor} {o : Opening}
    (h : readOpening c = .ok (o, d)) : d.remaining ≤ c.next.remaining := by
  unfold readOpening at h
  split at h
  · cases h; exact Nat.le_refl _
  · rename_i eat
    have := Cursor.remaining_lt_of_eat? eat
    have := remaining_le_of_readExtension h
    omega

theorem remaining_le_of_readEscapedTerm {c d : Cursor} {t : Draft}
    (h : readEscapedTerm c = .ok (t, d)) : d.remaining ≤ c.next.remaining := by
  unfold readEscapedTerm at h
  rcases he : readEscape c with _ | ⟨e, stop⟩
  · simp [he, bind, Except.bind] at h
  · have escape_le := remaining_le_of_readEscape he
    simp only [he, bind, Except.bind] at h
    split at h
    · rename_i eq; cases h; cases eq; exact escape_le
    · rename_i eq; cases h; cases eq; exact escape_le
    · repeat' split at h
      all_goals cases h
    · cases h

theorem remaining_le_of_readTerm {ch : Char} {c d : Cursor} {t : Draft}
    (h : readTerm ch c = .ok (t, d)) : d.remaining ≤ c.next.remaining := by
  unfold readTerm at h
  split at h
  · rcases hb : readBracket c with _ | ⟨items, negated, stop⟩
    · simp [hb, bind, Except.bind] at h
    · have bracket_le := remaining_le_of_readBracket hb
      simp only [hb, bind, Except.bind] at h
      cases h
      exact bracket_le
  · exact remaining_le_of_readEscapedTerm h
  all_goals first
    | (cases h; exact Nat.le_refl _)
    | cases h

theorem remaining_lt_of_readPiece {c d : Cursor} {p : Piece}
    (h : readPiece c = .ok (some (p, d))) : d.remaining < c.remaining := by
  unfold readPiece at h
  split at h
  · cases h
  · rename_i hp; cases h; exact Cursor.remaining_next_lt_of_peek hp
  · rename_i hp; cases h; exact Cursor.remaining_next_lt_of_peek hp
  · rename_i hp
    have next_lt := Cursor.remaining_next_lt_of_peek hp
    rcases ho : readOpening c with _ | ⟨o, stop⟩
    · simp [ho, bind, Except.bind] at h
    · have opening_le := remaining_le_of_readOpening ho
      simp only [ho, bind, Except.bind] at h
      cases h
      omega
  · rename_i ch _ _ _ hp
    have next_lt := Cursor.remaining_next_lt_of_peek hp
    rcases ht : readTerm ch c with _ | ⟨t, stop⟩
    · simp [ht, bind, Except.bind] at h
    · have term_le := remaining_le_of_readTerm ht
      simp only [ht, bind, Except.bind] at h
      cases h
      omega

end PatternSampler.Notation
