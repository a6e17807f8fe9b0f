import PatternSampler.Notation.Cursor
import PatternSampler.Tree

/-! # Quantifiers

  After a term may come one of `*`, `+`, `?`, `{m}`, `{m,}`, `{,n}` and `{m,n}`, and after
  that a lazy mark `?`. A brace that opens none of these forms is no quantifier and is left
  where it is, to be read as a literal. Its numbers, however, are read and held to 32 bits
  before it is known whether the brace closes.
-/

namespace PatternSampler.Notation

/-- The value of decimal digits. -/
def decimal (digits : List Char) : Nat :=
  digits.foldl (fun value digit => value * 10 + (digit.toNat - '0'.toNat)) 0

/-- A decimal number of at most 32 bits, if a digit stands here. -/
def readNumber (c : Cursor) : Except Misreading (Option UInt32 × Cursor) :=
  match c.takeWhile Char.isDigit with
  | ([], _) => .ok (none, c)
  | (digits, stop) =>
    if decimal digits < UInt32.size then .ok (some (UInt32.ofNat (decimal digits)), stop)
    else .error (.malformed c.position .numberTooLarge)

/-- Ends the quantifier that was opened at position `opened`: no quantifier unless `}` stands
    here, and a fault if the bounds are reversed. -/
def closeBraces (opened : Nat) (bounds : Bounds) (c : Cursor) :
    Except Misreading (Option (Bounds × Cursor)) :=
  match c.eat? '}' with
  | none => .ok none
  | some stop =>
    if bounds.Consistent then .ok (some (bounds, stop))
    else .error (.malformed opened .boundsReversed)

/-- The bounds in the braces that open here, if they have one of the four forms. A least
    number that is left out is zero. -/
def readBraces (c : Cursor) : Except Misreading (Option (Bounds × Cursor)) := do
  let (least, afterLeast) ← readNumber c.next
  -- a comma makes both numbers optional, and without one the number is required
  match afterLeast.eat? ',', least with
  | some afterComma, _ =>
    let (most, afterMost) ← readNumber afterComma
    closeBraces c.position ⟨least.getD 0, most⟩ afterMost
  | none, some exact => closeBraces c.position ⟨exact, some exact⟩ afterLeast
  | none, none => .ok none

/-- The quantifier that starts here, if one does, and the place after it. -/
def readBounds (c : Cursor) : Except Misreading (Option (Bounds × Cursor)) :=
  match c.peek with
  | some '*' => .ok (some (⟨0, none⟩, c.next))
  | some '+' => .ok (some (⟨1, none⟩, c.next))
  | some '?' => .ok (some (⟨0, some 1⟩, c.next))
  | some '{' => readBraces c
  | _ => .ok none

/-- Whether a well-formed quantifier starts here. -/
def startsQuantifier (c : Cursor) : Bool :=
  match readBounds c with
  | .ok (some _) => true
  | _ => false

/-- The lazy mark: greedy unless one stands here. -/
def readGreediness (c : Cursor) : Bool × Cursor :=
  match c.eat? '?' with
  | some stop => (false, stop)
  | none => (true, c)

/-- Whether a term can be repeated. An anchor cannot. -/
def repeatable {β : Type} : Tree β → Bool
  | .anchor _ => false
  | _ => true

/-- The term that ends here together with the quantifier after it, if there is one. A second
    quantifier is refused. -/
def quantify {β : Type} (term : Tree β) (c : Cursor) : Except Misreading (Tree β × Cursor) := do
  match ← readBounds c with
  | none => .ok (term, c)
  | some (bounds, afterBounds) =>
    if repeatable term then
      let (greedy, stop) := readGreediness afterBounds
      if startsQuantifier stop then .error (.malformed stop.position .multipleRepeat)
      else .ok (.repetition term bounds greedy, stop)
    else .error (.malformed c.position .nothingToRepeat)

/-! ## How far each step goes -/

theorem remaining_le_of_readNumber {c d : Cursor} {n : Option UInt32}
    (h : readNumber c = .ok (n, d)) : d.remaining ≤ c.remaining := by
  have le := Cursor.remaining_takeWhile_le Char.isDigit c
  unfold readNumber at h
  split at h
  · cases h; exact Nat.le_refl _
  · rename_i digits stop _ eq
    rw [eq] at le
    split at h
    · cases h; exact le
    · cases h

theorem remaining_lt_of_closeBraces {opened : Nat} {bounds b : Bounds} {c d : Cursor}
    (h : closeBraces opened bounds c = .ok (some (b, d))) : d.remaining < c.remaining := by
  unfold closeBraces at h
  split at h
  · cases h
  · rename_i stop eat
    split at h
    · cases h; exact Cursor.remaining_lt_of_eat? eat
    · cases h

theorem remaining_lt_of_readBraces {c d : Cursor} {b : Bounds}
    (h : readBraces c = .ok (some (b, d))) : d.remaining < c.remaining := by
  have next_le := Cursor.remaining_next_le c
  unfold readBraces at h
  rcases hl : readNumber c.next with _ | ⟨least, afterLeast⟩
  · simp [hl, bind, Except.bind] at h
  · have least_le := remaining_le_of_readNumber hl
    simp only [hl, bind, Except.bind] at h
    split at h
    · rename_i afterComma eat
      have comma_lt := Cursor.remaining_lt_of_eat? eat
      rcases hm : readNumber afterComma with _ | ⟨most, afterMost⟩
      · simp [hm] at h
      · have most_le := remaining_le_of_readNumber hm
        simp only [hm] at h
        have := remaining_lt_of_closeBraces h
        omega
    · have := remaining_lt_of_closeBraces h
      omega
    · cases h

theorem remaining_lt_of_readBounds {c d : Cursor} {b : Bounds}
    (h : readBounds c = .ok (some (b, d))) : d.remaining < c.remaining := by
  unfold readBounds at h
  split at h
  all_goals first
    | exact remaining_lt_of_readBraces h
    | (rename_i hp; cases h; exact Cursor.remaining_next_lt_of_peek hp)
    | cases h

theorem remaining_readGreediness_le (c : Cursor) :
    (readGreediness c).2.remaining ≤ c.remaining := by
  unfold readGreediness
  split
  · rename_i eat
    exact Nat.le_of_lt (Cursor.remaining_lt_of_eat? eat)
  · exact Nat.le_refl _

theorem remaining_le_of_quantify {β : Type} {term t : Tree β} {c d : Cursor}
    (h : quantify term c = .ok (t, d)) : d.remaining ≤ c.remaining := by
  unfold quantify at h
  rcases hb : readBounds c with _ | _ | ⟨bounds, afterBounds⟩
  · simp [hb, bind, Except.bind] at h
  · simp only [hb, bind, Except.bind] at h
    cases h
    exact Nat.le_refl _
  · have bounds_lt := remaining_lt_of_readBounds hb
    have greedy_le := remaining_readGreediness_le afterBounds
    simp only [hb, bind, Except.bind] at h
    split at h
    · split at h
      · cases h
      · cases h
        omega
    · cases h

end PatternSampler.Notation
