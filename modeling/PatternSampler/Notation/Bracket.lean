import PatternSampler.Alphabet
import PatternSampler.Notation.Cursor

/-! # Brackets

  A bracket `[…]` or `[^…]` lists symbols, ranges and shorthands. Reading keeps its items as
  they were written; which symbols they cover depends on the alphabet and on whether the
  bracket is negated, and is said by `covered`.

  - `]` stands for itself right after the opening, and `-` wherever it cannot join two
    symbols;
  - a symbol that is no character may stand in a bracket, like any other;
  - in a negated bracket a shorthand names symbols to rule out, so it covers all that some
    reading of it covers.
-/

namespace PatternSampler.Notation

/-! ## Escapes -/

/-- Whether a character stands for itself after a backslash. -/
def standsForItself (c : Char) : Bool :=
  c ∈ ['.', '(', ')', '[', ']', '|', '\\', '*', '+', '?', '{', '}', '^', '$', '-']

/-- What a backslash and the symbol after it stand for. -/
inductive Escape where
  /-- A class of symbols. -/
  | shorthand (kind : Shorthand)
  /-- The symbol itself. -/
  | symbol (s : Symbol)
  /-- Nothing on its own: the symbol's character, if it has one. -/
  | other (c : Option Char)

/-- What a backslash before `s` stands for. -/
def Escape.of (s : Symbol) : Escape :=
  match Shorthand.ofLetter? s with
  | some kind => .shorthand kind
  | none =>
    match Symbol.char? s with
    | some c => if standsForItself c then .symbol s else .other (some c)
    | none => .other none

/-- The escape at a backslash, and the place after it. -/
def readEscape (c : Cursor) : Except Misreading (Escape × Cursor) :=
  match c.next.rest with
  | [] => .error (.malformed c.position .endAfterBackslash)
  | s :: _ => .ok (.of s, c.next.next)

/-! ## Items -/

/-- What may stand on either side of a dash. -/
inductive BracketAtom where
  /-- A symbol, written as it is or escaped. -/
  | symbol (s : Symbol)
  /-- A shorthand. -/
  | shorthand (kind : Shorthand)

/-- An item of a bracket. -/
inductive BracketItem where
  /-- The symbols from `low` to `high`; a single symbol is a range of one. -/
  | range (low high : Symbol)
  /-- The symbols of a shorthand. -/
  | shorthand (kind : Shorthand)
deriving DecidableEq, Repr

/-- The symbols of a shorthand in a bracket: those it stands for, or in a negated bracket those
    it rules out. -/
def shorthandSet (a : Alphabet) (negated : Bool) (kind : Shorthand) : SymbolSet :=
  if negated then a.resolveExcluded kind else a.resolve kind

/-- What has been gathered of a bracket, item by item. -/
structure Gathered where
  /-- The ranges, in the order of the items. -/
  ranges : List Interval
  /-- The symbols of the shorthands. -/
  symbols : SymbolSet

namespace Gathered

/-- Nothing gathered. -/
def nothing : Gathered := ⟨[], .empty⟩

/-- One more range. -/
def addRange (g : Gathered) (low high : Symbol) : Gathered :=
  ⟨g.ranges ++ [⟨low, high⟩], g.symbols⟩

/-- One more set. -/
def addSet (g : Gathered) (s : SymbolSet) : Gathered := ⟨g.ranges, g.symbols.union s⟩

/-- One more item. -/
def add (a : Alphabet) (negated : Bool) (g : Gathered) : BracketItem → Gathered
  | .range low high => g.addRange low high
  | .shorthand kind => g.addSet (shorthandSet a negated kind)

/-- All that has been gathered, as one set. -/
def all (g : Gathered) : SymbolSet := g.symbols.union (.ofIntervals g.ranges)

end Gathered

/-- The set that the items of a bracket cover together. -/
def covered (a : Alphabet) (negated : Bool) (items : List BracketItem) : SymbolSet :=
  (items.foldl (Gathered.add a negated) .nothing).all

/-- Whether the dash that stands here joins two symbols. Right before the closing bracket and
    at the end of the pattern it does not. -/
def dashJoins (c : Cursor) : Bool :=
  c.peek = some '-' && !c.next.rest.isEmpty && c.next.peek != some ']'

/-- The symbol or shorthand that stands here in a bracket. -/
def readBracketAtom (c : Cursor) : Except Misreading (BracketAtom × Cursor) :=
  match c.rest with
  | [] => .error (.malformed c.position .unterminatedBracket)
  | s :: _ =>
    if c.peek = some '\\' then do
      match ← readEscape c with
      | (.shorthand kind, stop) => .ok (.shorthand kind, stop)
      | (.symbol escaped, stop) => .ok (.symbol escaped, stop)
      | (.other escaped, _) => .error (.malformed c.position (.badEscape escaped))
    else .ok (.symbol s, c.next)

/-- The item that starts here. A dash that joins has to stand between two symbols in order. -/
def readBracketItem (c : Cursor) : Except Misreading (BracketItem × Cursor) := do
  match ← readBracketAtom c with
  | (.shorthand kind, stop) =>
    if dashJoins stop then .error (.malformed c.position .badRange)
    else .ok (.shorthand kind, stop)
  | (.symbol low, stop) =>
    if dashJoins stop then
      match ← readBracketAtom stop.next with
      | (.symbol high, afterHigh) =>
        if low ≤ high then .ok (.range low high, afterHigh)
        else .error (.malformed c.position .badRange)
      | (.shorthand _, _) => .error (.malformed c.position .badRange)
    else .ok (.range low low, stop)

/-! ## How far each step goes -/

theorem remaining_le_of_readEscape {c d : Cursor} {e : Escape}
    (h : readEscape c = .ok (e, d)) : d.remaining ≤ c.next.remaining := by
  unfold readEscape at h
  split at h
  · cases h
  · cases h
    exact Cursor.remaining_next_le _

theorem remaining_lt_of_readBracketAtom {c d : Cursor} {a : BracketAtom}
    (h : readBracketAtom c = .ok (a, d)) : d.remaining < c.remaining := by
  unfold readBracketAtom at h
  split at h
  · cases h
  · rename_i s tail rest_eq
    have next_lt : c.next.remaining < c.remaining :=
      Cursor.remaining_next_lt (by simp [rest_eq])
    split at h
    · rcases he : readEscape c with _ | ⟨e, stop⟩
      · simp [he, bind, Except.bind] at h
      · have escape_le := remaining_le_of_readEscape he
        simp only [he, bind, Except.bind] at h
        split at h
        · rename_i eq; cases h; cases eq; omega
        · rename_i eq; cases h; cases eq; omega
        · cases h
    · cases h
      exact next_lt

theorem remaining_lt_of_readBracketItem {c d : Cursor} {i : BracketItem}
    (h : readBracketItem c = .ok (i, d)) : d.remaining < c.remaining := by
  unfold readBracketItem at h
  rcases hl : readBracketAtom c with _ | ⟨atom, stop⟩
  · simp [hl, bind, Except.bind] at h
  · have low_lt := remaining_lt_of_readBracketAtom hl
    simp only [hl, bind, Except.bind] at h
    split at h
    · rename_i eq
      cases eq
      split at h
      · cases h
      · cases h; exact low_lt
    · rename_i eq
      cases eq
      split at h
      · have dash_le := Cursor.remaining_next_le stop
        rcases hh : readBracketAtom stop.next with _ | ⟨atom', afterHigh⟩
        · simp [hh] at h
        · have high_lt := remaining_lt_of_readBracketAtom hh
          simp only [hh] at h
          split at h
          · rename_i eq
            cases eq
            split at h
            · cases h; omega
            · cases h
          · cases h
      · cases h; exact low_lt

/-! ## Whole brackets -/

/-- The items from here to the closing bracket. The first symbol after the opening is an item
    even if it is `]`. -/
def readBracketItems (opened : Nat) (atStart : Bool) (c : Cursor) :
    Except Misreading (List BracketItem × Cursor) :=
  if c.rest.isEmpty then .error (.malformed opened .unterminatedBracket)
  else if !atStart && c.peek = some ']' then .ok ([], c.next)
  else
    match h : readBracketItem c with
    | .error e => .error e
    | .ok (item, stop) =>
      have : stop.remaining < c.remaining := remaining_lt_of_readBracketItem h
      match readBracketItems opened false stop with
      | .error e => .error e
      | .ok (items, closed) => .ok (item :: items, closed)
termination_by c.remaining

/-- The items of the bracket that opens here, whether it is negated, and the place after it. -/
def readBracket (c : Cursor) : Except Misreading (List BracketItem × Bool × Cursor) := do
  let (negated, inside) :=
    match c.next.eat? '^' with
    | some afterMark => (true, afterMark)
    | none => (false, c.next)
  let (items, stop) ← readBracketItems c.position true inside
  .ok (items, negated, stop)

theorem remaining_le_of_readBracketItems {opened : Nat} {atStart : Bool} {c d : Cursor}
    {items : List BracketItem} (h : readBracketItems opened atStart c = .ok (items, d)) :
    d.remaining ≤ c.remaining := by
  fun_induction readBracketItems opened atStart c generalizing items d with
  | case1 => cases h
  | case2 => cases h; exact Cursor.remaining_next_le _
  | case3 => cases h
  | case4 => cases h
  | case5 _ _ _ _ _ _ _ lt _ _ eq ih =>
    cases h
    have := ih eq
    omega

theorem remaining_le_of_readBracket {c d : Cursor} {items : List BracketItem} {negated : Bool}
    (h : readBracket c = .ok (items, negated, d)) : d.remaining ≤ c.next.remaining := by
  unfold readBracket at h
  split at h
  rename_i inside inside_eq
  have inside_le : inside.remaining ≤ c.next.remaining := by
    split at inside_eq
    · rename_i eat
      cases inside_eq
      exact Nat.le_of_lt (Cursor.remaining_lt_of_eat? eat)
    · cases inside_eq
      exact Nat.le_refl _
  rcases hi : readBracketItems c.position true inside with _ | ⟨read, stop⟩
  · simp [hi, bind, Except.bind] at h
  · have items_le := remaining_le_of_readBracketItems hi
    simp only [hi, bind, Except.bind] at h
    cases h
    omega

end PatternSampler.Notation
