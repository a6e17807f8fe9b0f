import PatternSampler.Notation.Misreading

/-! # A place in a pattern

  Reading goes through the symbols of a pattern from left to right. A `Cursor` is a place on
  the way: how many symbols have been passed, which is what messages report, and the symbols
  still to come. The notation is made of characters, so reading looks at the next symbol as a
  character (`peek`); a symbol that is no character equals none.

  The lemmas say how each step changes the number of symbols to come. They are what makes
  the loops of the reader end.
-/

namespace PatternSampler.Notation

/-- A place in a pattern. -/
structure Cursor where
  /-- How many symbols lie before the place. -/
  position : Nat
  /-- The symbols from the place on. -/
  rest : List Symbol
deriving DecidableEq, Repr

namespace Cursor

/-- The place before the first symbol. -/
def start (symbols : List Symbol) : Cursor := ⟨0, symbols⟩

/-- How many symbols are still to come. -/
def remaining (c : Cursor) : Nat := c.rest.length

/-- The next symbol as a character: none at the end, and none before a symbol that is no
    character. -/
def peek (c : Cursor) : Option Char := c.rest.head?.bind Symbol.char?

/-- The place after the next symbol; the end stays the end. -/
def next : Cursor → Cursor
  | ⟨position, _ :: rest⟩ => ⟨position + 1, rest⟩
  | ⟨position, []⟩ => ⟨position, []⟩

/-- The place after the next symbol, if that symbol is the given character. -/
def eat? (c : Cursor) (expected : Char) : Option Cursor :=
  if c.peek = some expected then some c.next else none

/-- The characters from here on that satisfy `p`, up to the first symbol that does not, and
    the place of that symbol. -/
def takeWhile (p : Char → Bool) (c : Cursor) : List Char × Cursor :=
  go c.position c.rest
where
  /-- Takes one symbol after the other, counting them. -/
  go (position : Nat) : List Symbol → List Char × Cursor
    | [] => ([], ⟨position, []⟩)
    | s :: rest =>
      match Symbol.char? s with
      | some ch =>
        if p ch then
          let (chars, stop) := go (position + 1) rest
          (ch :: chars, stop)
        else ([], ⟨position, s :: rest⟩)
      | none => ([], ⟨position, s :: rest⟩)

/-! ## How far each step goes -/

theorem remaining_next_le (c : Cursor) : c.next.remaining ≤ c.remaining := by
  rcases c with ⟨_, _ | ⟨_, _⟩⟩ <;> simp [next, remaining]

theorem remaining_next_lt {c : Cursor} (h : c.rest ≠ []) : c.next.remaining < c.remaining := by
  rcases c with ⟨_, _ | ⟨_, _⟩⟩ <;> simp_all [next, remaining]

theorem rest_ne_nil_of_peek {c : Cursor} {ch : Char} (h : c.peek = some ch) : c.rest ≠ [] := by
  rcases c with ⟨_, _ | ⟨_, _⟩⟩ <;> simp_all [peek]

theorem remaining_next_lt_of_peek {c : Cursor} {ch : Char} (h : c.peek = some ch) :
    c.next.remaining < c.remaining :=
  remaining_next_lt (rest_ne_nil_of_peek h)

theorem remaining_lt_of_eat? {c d : Cursor} {ch : Char} (h : c.eat? ch = some d) :
    d.remaining < c.remaining := by
  unfold eat? at h
  split at h
  · rename_i hp
    cases h
    exact remaining_next_lt_of_peek hp
  · cases h

theorem remaining_takeWhile_le (p : Char → Bool) (c : Cursor) :
    (c.takeWhile p).2.remaining ≤ c.remaining := by
  have go_le : ∀ (rest : List Symbol) (position : Nat),
      (takeWhile.go p position rest).2.remaining ≤ rest.length := by
    intro rest
    induction rest with
    | nil => intro position; simp [takeWhile.go, remaining]
    | cons s rest ih =>
      intro position
      unfold takeWhile.go
      split
      · split
        · exact Nat.le_succ_of_le (ih (position + 1))
        · simp [remaining]
      · simp [remaining]
  exact go_le c.rest c.position

end Cursor

end PatternSampler.Notation
