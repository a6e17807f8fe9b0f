import PatternSampler.Proofs.Notation.Forms

/-! # Reading in the middle of a pattern

  The reader looks ahead: at the digits and the brace of a quantifier, at the lazy mark and at
  a second quantifier after it, at the symbol after a dash in a bracket. So what follows a
  pattern could change how its last symbols are read. It does not if it is `Detached`.

  `Cursor.within` is the same place in a longer pattern, with some symbols before and some
  after. Each reading function, from the smallest to `readPiece` and `quantify`, is shown to do
  there what it does in the pattern alone:

  - a quantifier function gives the same result, `carry`-ed to the new place, also where it
    fails, for a second quantifier that fails to be read is no second quantifier;
  - the other functions succeed where they did, for what they read ends with a symbol of its
    own and not where the pattern happens to end.
-/

namespace PatternSampler.Notation

/-! ## Places -/

namespace Cursor

/-- The same place in a longer pattern, with `before` more symbols before it and the symbols
    `after` at its end. -/
def within (before : Nat) (after : List Symbol) (c : Cursor) : Cursor :=
  ⟨before + c.position, c.rest ++ after⟩

variable {before : Nat} {after : List Symbol} {c d : Cursor} {ch : Char}

@[simp] theorem within_position : (c.within before after).position = before + c.position := rfl

@[simp] theorem within_rest : (c.within before after).rest = c.rest ++ after := rfl

theorem within_of_rest_eq_nil (ended : c.rest = []) :
    c.within before after = ⟨before + c.position, after⟩ := by
  rw [within, ended, List.nil_append]

theorem next_within (more : c.rest ≠ []) :
    (c.within before after).next = c.next.within before after := by
  obtain ⟨position, _ | ⟨s, rest⟩⟩ := c
  · exact absurd rfl more
  · rfl

theorem peek_within (more : c.rest ≠ []) : (c.within before after).peek = c.peek := by
  obtain ⟨position, _ | ⟨s, rest⟩⟩ := c
  · exact absurd rfl more
  · rfl

theorem peek_within_eq_some (peeked : c.peek = some ch) :
    (c.within before after).peek = some ch := by
  rw [peek_within (rest_ne_nil_of_peek peeked), peeked]

/-- What follows the pattern is in sight where the pattern ends, and only there. -/
theorem peek_within_eq_some_iff (not_after : after.head? ≠ some (.ofChar ch)) :
    (c.within before after).peek = some ch ↔ c.peek = some ch := by
  by_cases ended : c.rest = []
  · have nothing : c.peek = none := by
      rw [peek, ended]
      rfl
    rw [within_of_rest_eq_nil ended, nothing]
    constructor
    · intro peeked
      exact absurd peeked (peek_ne_of_head?_ne not_after)
    · intro none_eq
      cases none_eq
  · rw [peek_within ended]

theorem eat?_within_eq_some (eaten : c.eat? ch = some d) :
    (c.within before after).eat? ch = some (d.within before after) := by
  unfold eat? at eaten ⊢
  split at eaten
  · rename_i peeked
    cases eaten
    rw [if_pos (peek_within_eq_some peeked), next_within (rest_ne_nil_of_peek peeked)]
  · cases eaten

theorem eat?_within (not_after : after.head? ≠ some (.ofChar ch)) :
    (c.within before after).eat? ch = (c.eat? ch).map (within before after) := by
  cases eaten : c.eat? ch with
  | some d => exact eat?_within_eq_some eaten
  | none =>
    have not_here : c.peek ≠ some ch := by
      intro peeked
      rw [eat?, if_pos peeked] at eaten
      cases eaten
    exact if_neg (mt (peek_within_eq_some_iff not_after).1 not_here)

/-- Characters are taken to the same place if the symbol there ends them, be it of the pattern
    or of what follows. -/
theorem takeWhile_within {p : Char → Bool}
    (ends : ∀ ch, ((c.takeWhile p).2.within before after).peek = some ch → p ch = false) :
    (c.within before after).takeWhile p =
      ((c.takeWhile p).1, (c.takeWhile p).2.within before after) := by
  obtain ⟨rest_eq, position_eq, all, -⟩ := c.takeWhile_spec p
  have rest_within : c.rest ++ after =
      ofChars (c.takeWhile p).1 ++ ((c.takeWhile p).2.within before after).rest := by
    rw [within_rest, ← List.append_assoc]
    exact congrArg (· ++ after) rest_eq
  show takeWhile p ⟨before + c.position, c.rest ++ after⟩ = _
  rw [rest_within, takeWhile_append all ends, within, position_eq, Nat.add_assoc]

end Cursor

open Cursor

/-- What follows a pattern leaves its last symbols as they are: it begins with no digit and
    with no character that could belong to a quantifier. -/
def Detached (after : List Symbol) : Prop :=
  ∀ ch, after.head? = some (.ofChar ch) →
    ch.isDigit = false ∧ ch ∉ ['*', '+', '?', '{', '}', ',']

variable {before : Nat} {after : List Symbol} {c d : Cursor}

theorem Detached.head?_ne (detached : Detached after) {ch : Char}
    (mark : ch ∈ ['*', '+', '?', '{', '}', ',']) : after.head? ≠ some (.ofChar ch) := by
  intro starts
  exact (detached ch starts).2 mark

theorem Detached.not_isDigit (detached : Detached after) {position : Nat} {ch : Char}
    (peeked : peek ⟨position, after⟩ = some ch) : ch.isDigit = false := by
  obtain ⟨rest, rest_eq⟩ := peek_eq_some_iff.1 peeked
  have starts : after.head? = some (.ofChar ch) := by
    rw [show after = _ from rest_eq, List.head?_cons]
  exact (detached ch starts).1

theorem Detached.quiet (detached : Detached after) : Quiet after := by
  intro ch mark
  exact detached.head?_ne (List.mem_append_left ['}', ','] mark)

theorem detached_nil : Detached [] := fun _ => nofun

/-- A closing parenthesis and a bar leave what stands before them as it is. -/
theorem detached_cons {ch : Char} (ends : ch = ')' ∨ ch = '|') {rest : List Symbol} :
    Detached (.ofChar ch :: rest) := by
  intro other starts
  have same : ch = other := eq_of_starts starts
  subst same
  rcases ends with rfl | rfl
  · decide
  · decide

/-! ## Results in another place -/

/-- The same reason for a place so many symbols further on. -/
def Misreading.shift (before : Nat) : Misreading → Misreading
  | malformed position fault => .malformed (before + position) fault
  | unsupported position construct => .unsupported (before + position) construct

/-- The result of reading in a longer pattern, where `place` moves what was read. -/
def carry {α β : Type} (before : Nat) (place : α → β) : Except Misreading α → Except Misreading β
  | .ok a => .ok (place a)
  | .error e => .error (e.shift before)

/-- The place after what was read, moved to the longer pattern. -/
def placed {α : Type} (before : Nat) (after : List Symbol) (read : α × Cursor) : α × Cursor :=
  (read.1, read.2.within before after)

/-! ## Quantifiers -/

theorem readNumber_within (detached : Detached after) :
    readNumber (c.within before after) = carry before (placed before after) (readNumber c) := by
  -- the digits end in the pattern, or at its end before what follows
  have ends : ∀ ch, ((c.takeWhile Char.isDigit).2.within before after).peek = some ch →
      ch.isDigit = false := by
    intro ch peeked
    by_cases ended : (c.takeWhile Char.isDigit).2.rest = []
    · rw [within_of_rest_eq_nil ended] at peeked
      exact detached.not_isDigit peeked
    · rw [peek_within ended] at peeked
      exact (c.takeWhile_spec Char.isDigit).2.2.2 ch peeked
  unfold readNumber
  rw [takeWhile_within ends]
  obtain ⟨digits, stop⟩ := c.takeWhile Char.isDigit
  cases digits with
  | nil => rfl
  | cons first others =>
    by_cases fits : decimal (first :: others) < UInt32.size
    · simp only [if_pos fits, carry, placed]
    · simp only [if_neg fits, carry, Misreading.shift, within_position]

theorem closeBraces_within (detached : Detached after) {opened : Nat} {bounds : Bounds} :
    closeBraces (before + opened) bounds (c.within before after) =
      carry before (Option.map (placed before after)) (closeBraces opened bounds c) := by
  unfold closeBraces
  rw [eat?_within (detached.head?_ne (by simp))]
  cases c.eat? '}' with
  | none => rfl
  | some stop =>
    by_cases consistent : bounds.Consistent
    · simp only [Option.map_some, if_pos consistent, carry, placed]
    · simp only [Option.map_some, if_neg consistent, carry, Misreading.shift]

theorem readBraces_within (detached : Detached after) (more : c.rest ≠ []) :
    readBraces (c.within before after) =
      carry before (Option.map (placed before after)) (readBraces c) := by
  unfold readBraces
  rw [next_within more, readNumber_within detached]
  cases readNumber c.next with
  | error e => rfl
  | ok read =>
    obtain ⟨least, afterLeast⟩ := read
    simp only [carry, placed, bind, Except.bind, within_position]
    rw [eat?_within (detached.head?_ne (by simp))]
    cases afterLeast.eat? ',' with
    | some afterComma =>
      simp only [Option.map_some, readNumber_within detached]
      cases readNumber afterComma with
      | error e => rfl
      | ok read => exact closeBraces_within detached
    | none =>
      cases least with
      | some exact => exact closeBraces_within detached
      | none => rfl

theorem readBounds_within (detached : Detached after) :
    readBounds (c.within before after) =
      carry before (Option.map (placed before after)) (readBounds c) := by
  by_cases ended : c.rest = []
  -- at the end of the pattern what follows is looked at, and starts no quantifier
  · have here : c = ⟨c.position, []⟩ := by
      rw [← ended]
    rw [within_of_rest_eq_nil ended, readBounds_of_quiet detached.quiet, here,
      readBounds_of_quiet quiet_nil]
    rfl
  · unfold readBounds
    rw [peek_within ended, next_within ended]
    split
    · rfl
    · rfl
    · rfl
    · exact readBraces_within detached ended
    · rfl

theorem startsQuantifier_within (detached : Detached after) :
    startsQuantifier (c.within before after) = startsQuantifier c := by
  unfold startsQuantifier
  rw [readBounds_within detached]
  rcases readBounds c with e | _ | read
  · rfl
  · rfl
  · rfl

theorem readGreediness_within (detached : Detached after) :
    readGreediness (c.within before after) = placed before after (readGreediness c) := by
  unfold readGreediness
  rw [eat?_within (detached.head?_ne (by simp))]
  cases c.eat? '?' with
  | none => rfl
  | some stop => rfl

/-- A term has the same quantifier wherever the pattern stands. -/
theorem quantify_within {β : Type} {t : Tree β} (detached : Detached after) :
    quantify t (c.within before after) = carry before (placed before after) (quantify t c) := by
  unfold quantify
  rw [readBounds_within detached]
  rcases readBounds c with e | _ | ⟨bounds, afterBounds⟩
  · rfl
  · rfl
  · simp only [carry, Option.map_some, placed, bind, Except.bind]
    by_cases can_repeat : repeatable t = true
    · simp only [can_repeat, if_true, readGreediness_within detached, placed]
      rw [startsQuantifier_within detached]
      -- a second quantifier is refused in both places, or in neither
      by_cases second : startsQuantifier (readGreediness afterBounds).2 = true
      · simp only [second, if_true, Misreading.shift, within_position]
      · simp only [second]
        rfl
    · simp only [can_repeat]
      rfl

/-! ## Brackets -/

theorem readEscape_within {e : Escape} (h : readEscape c = .ok (e, d)) :
    readEscape (c.within before after) = .ok (e, d.within before after) := by
  unfold readEscape at h ⊢
  split at h
  · cases h
  · rename_i s tail rest_eq
    cases h
    have more : c.rest ≠ [] := by
      intro ended
      have none_left : c.next.rest = [] := List.subset_nil.1 (ended ▸ c.reaches_next.subset)
      rw [none_left] at rest_eq
      cases rest_eq
    have more_after : c.next.rest ≠ [] := by simp [rest_eq]
    rw [next_within more, within_rest, rest_eq, List.cons_append, next_within more_after]

theorem readBracketAtom_within {a : BracketAtom} (h : readBracketAtom c = .ok (a, d)) :
    readBracketAtom (c.within before after) = .ok (a, d.within before after) := by
  unfold readBracketAtom at h ⊢
  split at h
  · cases h
  · rename_i s tail rest_eq
    have more : c.rest ≠ [] := by simp [rest_eq]
    rw [within_rest, rest_eq, List.cons_append]
    simp only [peek_within more]
    split at h
    · rename_i escapes
      obtain ⟨⟨e, stop⟩, escape_eq, h⟩ := bind_eq_ok_iff.1 h
      rw [if_pos escapes]
      refine bind_eq_ok_iff.2 ⟨_, readEscape_within escape_eq, ?_⟩
      cases e with
      | shorthand kind => cases h; rfl
      | symbol escaped => cases h; rfl
      | other escaped => cases h
    · rename_i plain
      cases h
      rw [if_neg plain, next_within more]

/-- A dash that stands before the closing bracket of the pattern has its next symbol in it. -/
theorem dashJoins_within (closing : .ofChar ']' ∈ c.rest) :
    dashJoins (c.within before after) = dashJoins c := by
  have more : c.rest ≠ [] := List.ne_nil_of_mem closing
  unfold dashJoins
  rw [peek_within more, next_within more]
  by_cases dash : c.peek = some '-'
  · -- the closing bracket is not the dash, so it comes later
    obtain ⟨rest, rest_eq⟩ := peek_eq_some_iff.1 dash
    have next_rest : c.next.rest = rest := by
      obtain ⟨position, symbols⟩ := c
      simp only at rest_eq
      rw [rest_eq, next_cons]
    have closing_later : .ofChar ']' ∈ c.next.rest := by
      rw [rest_eq] at closing
      rcases List.mem_cons.1 closing with same | later
      · exact absurd same (by decide)
      · exact next_rest ▸ later
    have more_after : c.next.rest ≠ [] := List.ne_nil_of_mem closing_later
    have more_within : (c.next.within before after).rest ≠ [] :=
      List.append_ne_nil_of_left_ne_nil more_after after
    rw [peek_within more_after, List.isEmpty_eq_false_iff.2 more_within,
      List.isEmpty_eq_false_iff.2 more_after]
  · simp only [dash, decide_false, Bool.false_and]

theorem readBracketItem_within {item : BracketItem} (h : readBracketItem c = .ok (item, d))
    (closing : .ofChar ']' ∈ d.rest) :
    readBracketItem (c.within before after) = .ok (item, d.within before after) := by
  unfold readBracketItem at h ⊢
  obtain ⟨⟨atom, stop⟩, atom_eq, h⟩ := bind_eq_ok_iff.1 h
  refine bind_eq_ok_iff.2 ⟨_, readBracketAtom_within atom_eq, ?_⟩
  cases atom with
  | shorthand kind =>
    simp only at h ⊢
    split at h
    · cases h
    · rename_i joins
      cases h
      rw [dashJoins_within closing, if_neg joins]
  | symbol low =>
    simp only at h ⊢
    split at h
    · rename_i joins
      obtain ⟨⟨atom', afterHigh⟩, atom_eq', h⟩ := bind_eq_ok_iff.1 h
      have to_high := (stop.reaches_next).trans (of_readBracketAtom atom_eq').1
      have to_end : afterHigh = d := by
        cases atom' with
        | shorthand kind => cases h
        | symbol high =>
          simp only at h
          split at h
          · cases h; rfl
          · cases h
      subst to_end
      have closing_before : .ofChar ']' ∈ stop.rest := to_high.subset closing
      rw [dashJoins_within closing_before, if_pos joins,
        next_within (List.ne_nil_of_mem closing_before)]
      refine bind_eq_ok_iff.2 ⟨_, readBracketAtom_within atom_eq', ?_⟩
      cases atom' with
      | shorthand kind => cases h
      | symbol high =>
        simp only at h ⊢
        split at h
        · rename_i in_order
          cases h
          rw [if_pos in_order]
        · cases h
    · rename_i joins
      cases h
      rw [dashJoins_within closing, if_neg joins]

/-- Items are read up to a closing bracket. -/
theorem mem_of_readBracketItems {opened : Nat} {atStart : Bool} {items : List BracketItem}
    (h : readBracketItems opened atStart c = .ok (items, d)) : .ofChar ']' ∈ c.rest := by
  fun_induction readBracketItems opened atStart c generalizing items d with
  | case1 => cases h
  | case2 atStart c _ closes =>
    have peeked : c.peek = some ']' := by
      simp only [Bool.and_eq_true, decide_eq_true_eq] at closes
      exact closes.2
    obtain ⟨rest, rest_eq⟩ := peek_eq_some_iff.1 peeked
    simp [rest_eq]
  | case3 => cases h
  | case4 => cases h
  | case5 atStart c _ _ item stop item_eq _ rest closed rest_eq ih =>
    exact (of_readBracketItem item_eq).1.subset (ih rest_eq)

theorem readBracketItems_within {opened : Nat} {atStart : Bool} {items : List BracketItem}
    (h : readBracketItems opened atStart c = .ok (items, d)) :
    readBracketItems (before + opened) atStart (c.within before after) =
      .ok (items, d.within before after) := by
  fun_induction readBracketItems opened atStart c generalizing items d with
  | case1 => cases h
  | case2 atStart c more closes =>
    cases h
    have more : c.rest ≠ [] := by simpa using more
    unfold readBracketItems
    simp only [within_rest, peek_within more, next_within more]
    rw [if_neg (by simp [more]), if_pos closes]
  | case3 => cases h
  | case4 => cases h
  | case5 atStart c more stays item stop item_eq _ rest closed rest_eq ih =>
    cases h
    have more : c.rest ≠ [] := by simpa using more
    have item_within := @readBracketItem_within before after _ _ _ item_eq
      (mem_of_readBracketItems rest_eq)
    unfold readBracketItems
    simp only [within_rest, peek_within more]
    rw [if_neg (by simp [more]), if_neg stays]
    split
    · rename_i failed
      rw [item_within] at failed
      cases failed
    · rename_i read
      rw [item_within] at read
      cases read
      rw [ih rest_eq]

theorem readBracket_within {items : List BracketItem} {negated : Bool}
    (h : readBracket c = .ok (items, negated, d)) :
    readBracket (c.within before after) = .ok (items, negated, d.within before after) := by
  have more : c.rest ≠ [] := by
    obtain ⟨position, _ | ⟨s, rest⟩⟩ := c
    · simp [readBracket, next, readBracketItems, bind, Except.bind] at h
    · exact List.cons_ne_nil s rest
  unfold readBracket at h ⊢
  rw [next_within more]
  cases mark : c.next.eat? '^' with
  | some afterMark =>
    simp only [mark] at h
    obtain ⟨⟨read, stop⟩, items_eq, h⟩ := bind_eq_ok_iff.1 h
    cases h
    simp only [eat?_within_eq_some mark]
    exact bind_eq_ok_iff.2 ⟨_, readBracketItems_within items_eq, rfl⟩
  | none =>
    simp only [mark] at h
    obtain ⟨⟨read, stop⟩, items_eq, h⟩ := bind_eq_ok_iff.1 h
    cases h
    -- the bracket closes later, so the symbol after the opening is not one of what follows
    have more_after : c.next.rest ≠ [] := List.ne_nil_of_mem (mem_of_readBracketItems items_eq)
    have no_mark : (c.next.within before after).eat? '^' = none := by
      unfold eat? at mark ⊢
      rw [peek_within more_after]
      split at mark
      · cases mark
      · rename_i other
        exact if_neg other
    simp only [no_mark]
    exact bind_eq_ok_iff.2 ⟨_, readBracketItems_within items_eq, rfl⟩

/-! ## Groups -/

theorem readName_within {name : String} (h : readName c = .ok (name, d)) :
    readName (c.within before after) = .ok (name, d.within before after) := by
  unfold readName at h ⊢
  simp only at h
  split at h
  · cases h
  · rename_i no_digit
    split at h
    · rename_i closes
      split at h
      · cases h
      · rename_i not_empty
        cases h
        have closes_within := @peek_within_eq_some before after _ _ closes
        have ends : ∀ ch, ((c.takeWhile isNameChar).2.within before after).peek = some ch →
            isNameChar ch = false := by
          intro ch peeked
          rw [closes_within] at peeked
          cases peeked
          decide
        rw [takeWhile_within ends]
        simp only [if_neg no_digit, closes_within, if_neg not_empty,
          next_within (rest_ne_nil_of_peek closes)]
    · cases h
    · cases h

theorem readNamed_within {o : Opening} (h : readNamed c = .ok (o, d)) :
    readNamed (c.within before after) = .ok (o, d.within before after) := by
  unfold readNamed at h ⊢
  obtain ⟨⟨name, stop⟩, name_eq, h⟩ := bind_eq_ok_iff.1 h
  cases h
  exact bind_eq_ok_iff.2 ⟨_, readName_within name_eq, rfl⟩

/-- A name takes a symbol at least. -/
theorem rest_ne_nil_of_readNamed {o : Opening} (h : readNamed c = .ok (o, d)) : c.rest ≠ [] := by
  unfold readNamed at h
  obtain ⟨⟨name, stop⟩, name_eq, -⟩ := bind_eq_ok_iff.1 h
  obtain ⟨-, ⟨first, others, chars_eq, -⟩, short⟩ := of_readName name_eq
  intro ended
  rw [ended, ← String.length_toList, chars_eq] at short
  exact absurd short (by simp)

theorem readExtension_within {opened : Nat} {o : Opening}
    (h : readExtension opened c = .ok (o, d)) :
    readExtension (before + opened) (c.within before after) = .ok (o, d.within before after) := by
  have more : c.rest ≠ [] := by
    intro ended
    have nothing : c.peek = none := by
      rw [peek, ended]
      rfl
    simp [readExtension, nothing] at h
  unfold readExtension at h ⊢
  rw [peek_within more, next_within more]
  split at h
  · cases h; rfl
  · cases h; rfl
  · cases h; rfl
  · -- after `<` one more symbol decides, which belongs to the pattern like the rest of the opening
    have more_after : c.next.rest ≠ [] := by
      split at h
      · exact rest_ne_nil_of_peek ‹_›
      · exact rest_ne_nil_of_peek ‹_›
      · exact rest_ne_nil_of_peek ‹_›
      · exact rest_ne_nil_of_readNamed h
    simp only [peek_within more_after, next_within more_after]
    split at h
    · cases h; rfl
    · cases h; rfl
    · split at h
      · cases h
      · rename_i not_digit
        simp only [if_neg not_digit]
        exact readNamed_within h
    · exact readNamed_within h
  · split at h
    · rename_i angle
      have more_after : c.next.rest ≠ [] := rest_ne_nil_of_peek angle
      simp only [peek_within more_after, next_within more_after, angle]
      exact readNamed_within h
    · cases h
    · cases h
    · cases h
  · cases h
  · cases h
  · cases h
  · cases h
  · cases h
  · split at h
    · cases h
    · split at h
      · cases h
      · cases h
  · cases h

/-- A parenthesis at the end of a pattern must not have a question mark after it. -/
theorem readOpening_within {o : Opening} (h : readOpening c = .ok (o, d)) (more : c.rest ≠ [])
    (no_mark : d.rest = [] → after.head? ≠ some (.ofChar '?')) :
    readOpening (c.within before after) = .ok (o, d.within before after) := by
  unfold readOpening at h ⊢
  rw [next_within more]
  split at h
  · rename_i none_eq
    cases h
    have none_within : (c.next.within before after).eat? '?' = none := by
      by_cases ended : c.next.rest = []
      · rw [eat?_within (no_mark ended), none_eq]
        rfl
      · unfold eat? at none_eq ⊢
        rw [peek_within ended]
        split at none_eq
        · cases none_eq
        · rename_i other
          exact if_neg other
    rw [none_within]
  · rename_i afterMark eaten
    rw [eat?_within_eq_some eaten]
    exact readExtension_within h

/-! ## Terms and pieces -/

theorem readEscapedTerm_within {t : Draft} (h : readEscapedTerm c = .ok (t, d)) :
    readEscapedTerm (c.within before after) = .ok (t, d.within before after) := by
  unfold readEscapedTerm at h ⊢
  obtain ⟨⟨e, stop⟩, escape_eq, h⟩ := bind_eq_ok_iff.1 h
  refine bind_eq_ok_iff.2 ⟨_, readEscape_within escape_eq, ?_⟩
  cases e with
  | shorthand kind => cases h; rfl
  | symbol s => cases h; rfl
  | other escaped =>
    cases escaped with
    | none => cases h
    | some ch =>
      -- all of these are refused
      simp only at h
      repeat' split at h
      all_goals cases h

theorem readTerm_within {ch : Char} {t : Draft} (peeked : c.peek = some ch)
    (h : readTerm ch c = .ok (t, d)) :
    readTerm ch (c.within before after) = .ok (t, d.within before after) := by
  have next_eq := @next_within before after c (rest_ne_nil_of_peek peeked)
  unfold readTerm at h ⊢
  rw [next_eq]
  split at h
  · obtain ⟨⟨items, negated, stop⟩, bracket_eq, h⟩ := bind_eq_ok_iff.1 h
    cases h
    exact bind_eq_ok_iff.2 ⟨_, readBracket_within bracket_eq, rfl⟩
  · exact readEscapedTerm_within h
  · cases h; rfl
  · cases h; rfl
  · cases h; rfl
  · cases h
  · cases h
  · cases h
  · cases h; rfl

/-- A piece is the same wherever the pattern stands, unless what follows could turn its last
    parenthesis into another opening. -/
theorem readPiece_within {piece : Piece} (h : readPiece c = .ok (some (piece, d)))
    (no_mark : ∀ o, piece = .opening o → d.rest = [] → after.head? ≠ some (.ofChar '?')) :
    readPiece (c.within before after) = .ok (some (piece, d.within before after)) := by
  unfold readPiece at h ⊢
  split at h
  · cases h
  · rename_i peeked
    cases h
    simp only [peek_within_eq_some peeked, next_within (rest_ne_nil_of_peek peeked)]
  · rename_i peeked
    cases h
    simp only [peek_within_eq_some peeked, next_within (rest_ne_nil_of_peek peeked)]
  · rename_i peeked
    obtain ⟨⟨o, stop⟩, opening_eq, h⟩ := bind_eq_ok_iff.1 h
    cases h
    simp only [peek_within_eq_some peeked]
    have opening_within := @readOpening_within before _ _ _ _ opening_eq
      (rest_ne_nil_of_peek peeked) (no_mark o rfl)
    exact bind_eq_ok_iff.2 ⟨_, opening_within, rfl⟩
  · rename_i peeked
    obtain ⟨⟨t, stop⟩, term_eq, h⟩ := bind_eq_ok_iff.1 h
    cases h
    simp only [peek_within_eq_some peeked]
    exact bind_eq_ok_iff.2 ⟨_, readTerm_within peeked term_eq, rfl⟩

end PatternSampler.Notation
