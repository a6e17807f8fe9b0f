import PatternSampler.Notation.Nesting

/-! # Reading by descent

  The reader of `Nesting` keeps the open groups on a stack, hands on the symbols that are still to
  come, and leaves the alphabet to the end. This is the same notation read by procedures that call
  each other, one for each kind of phrase. They make the tree over an alphabet at once: where a
  bracket holds a shorthand, they ask the alphabet for its symbols and join them to those they have.
  They share one place in the pattern, which they move as they go:

  - often by one symbol, without asking whether there is one, because of what was seen before;
  - back to where it was, after a brace that opens no quantifier and after a mere look at what
    follows.

  Nothing in the form of the procedures keeps the place inside the pattern, and nothing in the form
  of their loops makes them end. A limit stands in for that: no loop may take more turns, and groups
  may not be nested deeper. A procedure that would need more has no result. It is proved and not
  built in that the place stays inside, that there is a result under every limit past the length of
  the pattern, and that it is the one of `parse`.
-/

namespace PatternSampler.Notation

/-! ## The place that is shared -/

/-- What the procedures are given. -/
structure Input where
  /-- The pattern. -/
  symbols : List Symbol
  /-- How many turns a loop may take, and how deep groups may be nested. -/
  limit : Nat

/-- The place of the procedures in the pattern. -/
structure Place where
  /-- How many symbols lie before the place. -/
  position : Nat
  /-- Every position that the place was moved to, latest first. No procedure looks at them; they
      are kept so that something can be said of all of them. -/
  visited : List Nat

namespace Place

/-- The place before the first symbol. -/
def start : Place := ⟨0, []⟩

/-- The place moved to a position. -/
def moveTo (place : Place) (position : Nat) : Place := ⟨position, position :: place.visited⟩

end Place

/-- A procedure that reads a pattern. It gives a value or refuses the pattern, and leaves the place
    somewhere in either case. It has no result if the limit is reached. -/
abbrev Descent := ReaderT Input (ExceptT Misreading (StateT Place Option))

namespace Descent

variable {σ α : Type}

/-- Refuses the pattern. -/
def refuse (reason : Misreading) : Descent α := throw reason

/-- Goes on for longer than the limit allows. -/
def exhausted : Descent α := fun _ _ => none

/-- The position of the place. -/
def position : Descent Nat := fun _ => return (← get).position

/-- Moves the place, forward or back. -/
def moveTo (position : Nat) : Descent Unit := fun _ => modify (·.moveTo position)

/-- The symbol at a position. -/
def symbolAt? (position : Nat) : Descent (Option Symbol) := fun input =>
  return input.symbols[position]?

/-- Whether the place is at the end of the pattern, or past it. -/
def atEnd : Descent Bool := fun input => return input.symbols.length ≤ (← get).position

/-- Moves the place past one symbol, whether or not there is one. -/
def pass : Descent Unit := do
  moveTo ((← position) + 1)

/-- The character at the place: none at the end, and none if the symbol there is no character. -/
def peek : Descent (Option Char) := do
  return (← symbolAt? (← position)).bind Symbol.char?

/-- The symbol at the place, which is moved past it. At the end it stays. -/
def advance : Descent (Option Symbol) := do
  match ← symbolAt? (← position) with
  | some symbol =>
    pass
    return some symbol
  | none => return none

/-- Moves the place past a given character, if that is the one at the place. -/
def eat (expected : Char) : Descent Bool := do
  if (← peek) = some expected then
    pass
    return true
  else return false

/-- Takes turns until one gives a value. Each turn is told what the one before it leaves. -/
def loop (turn : σ → Descent (σ ⊕ α)) (first : σ) : Descent α := fun input =>
  turns input.limit first input
where
  /-- Takes a given number of turns at most. -/
  turns : Nat → σ → Descent α
    | 0, _ => exhausted
    | left + 1, state => do
      match ← turn state with
      | .inl next => turns left next
      | .inr value => return value

/-! ## Quantifiers -/

/-- Takes a digit into the value of the digits before it. -/
def digitTurn (start value : Nat) : Descent (Nat ⊕ Nat) := do
  match ← peek with
  | none => return .inr value
  | some digit =>
    if digit.isDigit then
      let longer := value * 10 + (digit.toNat - '0'.toNat)
      if longer < UInt32.size then
        pass
        return .inl longer
      else refuse (.malformed start .numberTooLarge)
    else return .inr value

/-- A decimal number of at most 32 bits, if a digit stands here. -/
def number : Descent (Option UInt32) := do
  let start ← position
  let value ← loop (digitTurn start) 0
  -- the value of no digits is zero, and only the place tells that there were none
  return if (← position) = start then none else some (.ofNat value)

/-- The bounds between braces, if they have one of the forms. -/
def bracedBounds : Descent (Option Bounds) := do
  let least ← number
  if ← eat ',' then
    -- with a comma either number may be left out
    let most ← number
    return some ⟨least.getD 0, most⟩
  else return least.map fun exact => ⟨exact, some exact⟩

/-- The quantifier in the braces that open here. The place is put back if there is none. -/
def braces : Descent (Option Bounds) := do
  let opened ← position
  pass
  match ← bracedBounds with
  | none =>
    moveTo opened
    return none
  | some bounds =>
    if ← eat '}' then
      if bounds.Consistent then return some bounds
      else refuse (.malformed opened .boundsReversed)
    else
      moveTo opened
      return none

/-- The quantifier that starts here, if one does. -/
def quantifier : Descent (Option Bounds) := do
  match ← peek with
  | some '*' =>
    pass
    return some ⟨0, none⟩
  | some '+' =>
    pass
    return some ⟨1, none⟩
  | some '?' =>
    pass
    return some ⟨0, some 1⟩
  | some '{' => braces
  | _ => return none

/-- Whether a quantifier starts here. The place is put back, and a fault in the quantifier is no
    matter. -/
def atQuantifier : Descent Bool := do
  let here ← position
  -- a fault leaves the place inside the quantifier, so it is put back in any case
  let found ← try pure (← quantifier).isSome catch _ => pure false
  moveTo here
  return found

/-! ## Escapes and brackets -/

/-- The term that the escape at a backslash stands for. -/
def escapedTerm : Descent (Tree SymbolSet) := do
  let start ← position
  pass
  match ← advance with
  | none => refuse (.malformed start .endAfterBackslash)
  | some symbol =>
    match Escape.of symbol with
    | .shorthand kind => return .shorthand kind
    | .symbol s => return .literal s
    | .other (some ch) =>
      if ch.isDigit && ch != '0' then refuse (.unsupported start .backreference)
      else if ch = 'k' && (← peek) = some '<' then
        refuse (.unsupported start .namedBackreference)
      else refuse (.malformed start (.badEscape (some ch)))
    | .other none => refuse (.malformed start (.badEscape none))

/-- What may stand on either side of a dash, over an alphabet. -/
inductive Part where
  /-- A symbol. -/
  | symbol (s : Symbol)
  /-- The symbols of a shorthand. -/
  | set (s : SymbolSet)

/-- The symbol that stands here in a bracket, or the set of the shorthand. -/
def bracketAtom (a : Alphabet) (negated : Bool) : Descent Part := do
  let start ← position
  match ← advance with
  | none => refuse (.malformed start .unterminatedBracket)
  | some symbol =>
    if Symbol.char? symbol = some '\\' then
      match ← advance with
      | none => refuse (.malformed start .endAfterBackslash)
      | some escaped =>
        match Escape.of escaped with
        | .shorthand kind => return .set (shorthandSet a negated kind)
        | .symbol s => return .symbol s
        | .other ch => refuse (.malformed start (.badEscape ch))
    else return .symbol symbol

/-- Whether the dash that stands here joins two symbols. -/
def atJoiningDash : Descent Bool := do
  let following ← symbolAt? ((← position) + 1)
  return (← peek) = some '-' && following.isSome && following.bind Symbol.char? != some ']'

/-- Gathers the item that starts here. -/
def bracketItem (a : Alphabet) (negated : Bool) (gathered : Gathered) : Descent Gathered := do
  let start ← position
  match ← bracketAtom a negated with
  | .set s =>
    if ← atJoiningDash then refuse (.malformed start .badRange)
    else return gathered.addSet s
  | .symbol low =>
    if ← atJoiningDash then
      pass
      match ← bracketAtom a negated with
      | .symbol high =>
        if low ≤ high then return gathered.addRange low high
        else refuse (.malformed start .badRange)
      | .set _ => refuse (.malformed start .badRange)
    else return gathered.addRange low low

/-- Gathers an item, or passes the closing bracket. At the start there is no closing bracket. -/
def itemTurn (a : Alphabet) (negated : Bool) (opened : Nat) (state : Bool × Gathered) :
    Descent ((Bool × Gathered) ⊕ Gathered) := do
  let (atStart, gathered) := state
  -- a symbol that is no character is not the end, though no character is seen there either
  if ← atEnd then refuse (.malformed opened .unterminatedBracket)
  else if (← peek) = some ']' && !atStart then
    pass
    return .inr gathered
  else return .inl (false, ← bracketItem a negated gathered)

/-- The bracket that opens here. -/
def bracket (a : Alphabet) : Descent (Tree SymbolSet) := do
  let opened ← position
  pass
  let negated ← eat '^'
  let gathered ← loop (itemTurn a negated opened) (true, .nothing)
  return .bracket gathered.all negated

/-! ## Openings of groups -/

/-- Takes a character to the end of a name, or passes the `>` that closes it. -/
def nameTurn (start : Nat) (chars : List Char) : Descent (List Char ⊕ List Char) := do
  match ← peek with
  | some '>' =>
    pass
    return .inr chars
  | some ch =>
    if ch = '_' || ch.isAlpha || (ch.isDigit && !chars.isEmpty) then
      pass
      return .inl (chars ++ [ch])
    else refuse (.malformed (← position) .badNameCharacter)
  | none => refuse (.malformed start .unterminatedName)

/-- The opening of a named group whose name starts here. -/
def named : Descent Opening := do
  let start ← position
  let chars ← loop (nameTurn start) []
  if chars.isEmpty then refuse (.malformed start .missingName)
  else return .group true (some (.ofList chars))

/-- The kind of group that `(?` opens, where the parenthesis stands at a given position. -/
def extension (opened : Nat) : Descent Opening := do
  let start ← position
  match ← peek with
  | some ':' =>
    pass
    return .group false none
  | some '=' =>
    pass
    return .look .ahead false
  | some '!' =>
    pass
    return .look .ahead true
  | some '<' =>
    pass
    match ← peek with
    | some '=' =>
      pass
      return .look .behind false
    | some '!' =>
      pass
      return .look .behind true
    | some ch => if ch.isDigit then refuse (.unsupported opened .recursion) else named
    | none => named
  | some 'P' =>
    pass
    match ← peek with
    | some '<' =>
      pass
      named
    | some '=' => refuse (.unsupported opened .namedBackreference)
    | some '>' => refuse (.unsupported opened .recursion)
    | _ => refuse (.malformed start (.unknownExtension 'P'))
  | some 'R' | some '&' | some '+' => refuse (.unsupported opened .recursion)
  | some '(' => refuse (.unsupported opened .conditional)
  | some '#' => refuse (.unsupported opened .comment)
  | some ch =>
    if ch.isDigit then refuse (.unsupported opened .recursion)
    else if isFlag ch then refuse (.unsupported opened .inlineFlags)
    else refuse (.malformed start (.unknownExtension ch))
  | none => refuse (.malformed start .endOfPattern)

/-- What the parenthesis at the place opens. -/
def opening : Descent Opening := do
  let opened ← position
  pass
  if ← eat '?' then extension opened
  else return .group true none

/-! ## Terms, branches and levels

  A group holds a whole level. The procedure that reads the level inside is handed down as
  `inside`. -/

/-- The group that opens here. -/
def group (inside : Descent (Tree SymbolSet)) : Descent (Tree SymbolSet) := do
  let opened ← position
  let opening ← opening
  let body ← inside
  if ← eat ')' then return opening.wrap body
  else refuse (.malformed opened .unterminatedGroup)

/-- A term without its quantifier. -/
def atom (a : Alphabet) (inside : Descent (Tree SymbolSet)) : Descent (Tree SymbolSet) := do
  let start ← position
  match ← peek with
  | some '(' => group inside
  | some '[' => bracket a
  | some '\\' => escapedTerm
  | some '.' =>
    pass
    return .wildcard
  | some '^' =>
    pass
    return .anchor .start
  | some '$' =>
    pass
    return .anchor .finish
  | some '*' | some '+' | some '?' => refuse (.malformed start .nothingToRepeat)
  | _ =>
    -- any other symbol stands for itself, also one that is no character
    match ← advance with
    | some symbol => return .literal symbol
    | none => refuse (.malformed start .endOfPattern)

/-- The term that ends here, with the quantifier after it if there is one. -/
def repeated (term : Tree SymbolSet) : Descent (Tree SymbolSet) := do
  let afterTerm ← position
  match ← quantifier with
  | none => return term
  | some bounds =>
    if repeatable term then
      let isLazy ← eat '?'
      if ← atQuantifier then refuse (.malformed (← position) .multipleRepeat)
      else return .repetition term bounds !isLazy
    else refuse (.malformed afterTerm .nothingToRepeat)

section
variable (a : Alphabet)

/-- A term with the quantifier after it, if there is one. -/
def quantified (inside : Descent (Tree SymbolSet)) : Descent (Tree SymbolSet) := do
  repeated (← atom a inside)

/-- Takes a term to those before it, latest first, or ends the branch. -/
def termTurn (inside : Descent (Tree SymbolSet)) (terms : List (Tree SymbolSet)) :
    Descent (List (Tree SymbolSet) ⊕ Tree SymbolSet) := do
  match ← peek with
  | none => return .inr (.ofTerms terms.reverse)
  | some ch =>
    if ch = ')' || ch = '|' then return .inr (.ofTerms terms.reverse)
    else return .inl ((← quantified a inside) :: terms)

/-- A branch. -/
def branch (inside : Descent (Tree SymbolSet)) : Descent (Tree SymbolSet) :=
  loop (termTurn a inside) []

/-- Takes the branch after a bar to those before it, latest first, or ends the level. -/
def branchTurn (inside : Descent (Tree SymbolSet)) (branches : List (Tree SymbolSet)) :
    Descent (List (Tree SymbolSet) ⊕ Tree SymbolSet) := do
  if ← eat '|' then return .inl ((← branch a inside) :: branches)
  else return .inr (.ofBranches branches.reverse)

/-- All that stands between two parentheses, or outside all of them, with groups nested to a given
    depth at most. -/
def levelWithin : Nat → Descent (Tree SymbolSet)
  | 0 => exhausted
  | depth + 1 => do
    let first ← branch a (levelWithin depth)
    loop (branchTurn a (levelWithin depth)) [first]

/-- All that stands between two parentheses, or outside all of them. -/
def level : Descent (Tree SymbolSet) := fun input => levelWithin a input.limit input

/-- A whole pattern. -/
def pattern : Descent (Tree SymbolSet) := do
  let tree ← level a
  if ← atEnd then return tree
  else refuse (.malformed (← position) .unbalancedParenthesis)

end

end Descent

end PatternSampler.Notation
