import PatternSampler.Proofs.Notation.Forms
import PatternSampler.Proofs.Notation.Places

/-! # What the procedures read

  Each procedure up to the terms without parts does what one of the functions on cursors does, or
  makes over an alphabet what such a function reads, and where it finds no quantifier it leaves the
  place where it was. For each turn of a loop it is said how far it goes, whatever was read before.
-/

namespace PatternSampler.Notation

open Cursor

/-! ## Characters taken one by one -/

namespace Cursor

variable {p : Char → Bool} {c d : Cursor} {ch : Char} {taken : List Char}

/-- On the way from `c` to `d` some characters have been taken, and those that are taken from `c`
    on are these and then the ones that are taken from `d` on. -/
def Takes (p : Char → Bool) (c : Cursor) (taken : List Char) (d : Cursor) : Prop :=
  c.takeWhile p = (taken ++ (d.takeWhile p).1, (d.takeWhile p).2)

theorem takes_nil (p : Char → Bool) (c : Cursor) : c.Takes p [] c := rfl

/-- A character that satisfies the condition is the first of those that are taken. -/
theorem takeWhile_of_peek (peeked : c.peek = some ch) (holds : p ch = true) :
    c.takeWhile p = (ch :: (c.next.takeWhile p).1, (c.next.takeWhile p).2) := by
  obtain ⟨rest, rest_eq⟩ := peek_eq_some_iff.1 peeked
  obtain ⟨position, _⟩ := c
  cases rest_eq
  simp [takeWhile, takeWhile.go, holds, next]

/-- One more character is taken. -/
theorem Takes.concat (taken_eq : c.Takes p taken d) (peeked : d.peek = some ch)
    (holds : p ch = true) : c.Takes p (taken ++ [ch]) d.next := by
  rw [Takes, taken_eq, takeWhile_of_peek peeked holds, List.append_assoc, List.singleton_append]

/-- Before anything that does not satisfy the condition, no more are taken. -/
theorem Takes.all (taken_eq : c.Takes p taken d) (ends : ∀ ch, d.peek = some ch → p ch = false) :
    c.takeWhile p = (taken, d) := by
  have no_more : d.takeWhile p = ([], d) :=
    @takeWhile_append d.position d.rest p [] (List.forall_mem_nil _) ends
  rw [taken_eq, no_more, List.append_nil]

end Cursor

variable {input : Input} {place : Place}

namespace Descent

variable {α : Type}

/-! ## Numbers -/

theorem decimal_concat (digits : List Char) (digit : Char) :
    decimal (digits ++ [digit]) = decimal digits * 10 + (digit.toNat - '0'.toNat) := by
  simp [decimal, List.foldl_append]

/-- More digits never make a number smaller. -/
theorem decimal_le_append (digits more : List Char) :
    decimal digits ≤ decimal (digits ++ more) := by
  induction more generalizing digits with
  | nil => simp
  | cons digit more ih =>
    have longer := ih (digits ++ [digit])
    rw [decimal_concat, List.append_assoc, List.singleton_append] at longer
    omega

theorem readNumber_of_takeWhile {c stop : Cursor} {digits : List Char}
    (taken : c.takeWhile Char.isDigit = (digits, stop)) :
    readNumber c =
      if digits = [] then .ok (none, c)
      else if decimal digits < UInt32.size then .ok (some (.ofNat (decimal digits)), stop)
      else .error (.malformed c.position .numberTooLarge) := by
  unfold readNumber
  rw [taken]
  cases digits <;> rfl

/-- A turn of reading a number takes a digit, ends before anything else, or finds that the number
    has become too large. -/
theorem ends_digitTurn (inside : place.Inside input) (start value : Nat) :
    Ends input (digitTurn start value) place
      (fun next after =>
        match next with
        | .inl longer => ∃ digit, (input.cursor place).peek = some digit ∧ digit.isDigit = true ∧
            longer = value * 10 + (digit.toNat - '0'.toNat) ∧ longer < UInt32.size ∧
            input.cursor after = (input.cursor place).next
        | .inr last => last = value ∧ after = place ∧
            ∀ ch, (input.cursor place).peek = some ch → ch.isDigit = false)
      (fun reason => reason = .malformed start .numberTooLarge ∧
        ∃ digit, (input.cursor place).peek = some digit ∧ digit.isDigit = true ∧
          UInt32.size ≤ value * 10 + (digit.toNat - '0'.toNat)) := by
  refine Ends.peek ?_
  cases peeked : (input.cursor place).peek with
  | none => exact .pure inside ⟨rfl, rfl, fun _ => nofun⟩
  | some digit =>
    simp only
    split
    · rename_i is_digit
      split
      · rename_i fits
        refine Ends.pass inside (rest_ne_nil_of_peek peeked) fun after inside_after passed => ?_
        exact .pure inside_after ⟨digit, rfl, is_digit, rfl, fits, passed⟩
      · rename_i large
        exact .refuse inside ⟨rfl, digit, rfl, is_digit, Nat.le_of_not_lt large⟩
    · rename_i no_digit
      refine .pure inside ⟨rfl, rfl, ?_⟩
      intro ch same
      cases same
      exact Bool.eq_false_iff.2 no_digit

section
variable (enough : input.symbols.length < input.limit)
include enough

/-- The turns take all digits from here on, unless the number becomes too large. -/
theorem ends_digits (inside : place.Inside input) :
    Ends input (loop (digitTurn place.position) 0) place
      (fun value after => ∃ digits, value = decimal digits ∧ value < UInt32.size ∧
        (input.cursor place).takeWhile Char.isDigit = (digits, input.cursor after))
      (fun reason => readNumber (input.cursor place) = .error reason) := by
  -- the value is that of the digits taken so far, and fits
  refine Ends.loop enough (fun value here => ∃ digits, value = decimal digits ∧
    value < UInt32.size ∧ (input.cursor place).Takes Char.isDigit digits (input.cursor here))
    ?_ inside ⟨[], rfl, by decide, takes_nil _ _⟩
  rintro value here inside_here ⟨digits, rfl, fits, taken⟩
  refine (ends_digitTurn inside_here _ _).imp ?_ ?_
  · intro next after inside_after turn
    cases next with
    | inl longer =>
      obtain ⟨digit, peeked, is_digit, rfl, fits, passed⟩ := turn
      refine ⟨?_, digits ++ [digit], (decimal_concat digits digit).symm, fits, ?_⟩
      · rw [position_of_next peeked passed]
        exact Nat.lt_succ_self _
      · rw [passed]
        exact taken.concat peeked is_digit
    | inr last =>
      obtain ⟨rfl, rfl, ends⟩ := turn
      exact ⟨digits, rfl, fits, taken.all ends⟩
  · rintro reason ⟨rfl, digit, peeked, is_digit, large⟩
    -- with the digit the number is too large, so it is with all digits that follow
    have more := decimal_le_append (digits ++ [digit])
      ((input.cursor here).next.takeWhile Char.isDigit).1
    rw [decimal_concat] at more
    rw [readNumber_of_takeWhile (taken.concat peeked is_digit), if_neg (by simp),
      if_neg (Nat.not_lt.2 (Nat.le_trans large more))]
    rfl

theorem gives_number (inside : place.Inside input) :
    Gives input number place (readNumber (input.cursor place)) := by
  refine Ends.position (Ends.bind (ends_digits enough inside) ?_)
  rintro value after inside_after ⟨digits, rfl, fits, taken⟩
  refine Ends.position (.pure inside_after ?_)
  rw [readNumber_of_takeWhile taken]
  -- no digit was taken exactly if the place has not moved
  obtain ⟨-, moved, -⟩ := (input.cursor place).takeWhile_spec Char.isDigit
  rw [taken] at moved
  have moved : after.position = place.position + digits.length := moved
  by_cases no_digits : digits = []
  · have stayed : after.position = place.position := by simpa [no_digits] using moved
    rw [if_pos no_digits, if_pos stayed, cursor_eq stayed]
  · have went_on : after.position ≠ place.position := by
      have := List.length_pos_iff.2 no_digits
      omega
    rw [if_neg no_digits, if_pos fits, if_neg went_on]

/-! ## Quantifiers -/

/-- Between braces bounds are read, up to the brace that closes them or anything else. -/
theorem ends_bracedBounds (inside : place.Inside input) {c : Cursor}
    (opened : c.next = input.cursor place) :
    Ends input bracedBounds place
      (fun bounds after =>
        match bounds with
        | none => readBraces c = .ok none
        | some bounds => readBraces c = closeBraces c.position bounds (input.cursor after))
      (fun reason => readBraces c = .error reason) := by
  have least_read := gives_number enough inside
  rw [← opened] at least_read
  refine Ends.bind (least_read.imp_reason ?_) ?_
  · intro reason refused
    simp only [readBraces, refused, bind, Except.bind]
  intro least afterLeast inside_least least_eq
  refine Ends.eat inside_least (fun afterComma inside_comma comma => ?_) fun no_comma => ?_
  · refine Ends.bind ((gives_number enough inside_comma).imp_reason ?_) ?_
    · intro reason refused
      simp only [readBraces, least_eq, comma, refused, bind, Except.bind]
    · intro most afterMost inside_most most_eq
      refine .pure inside_most ?_
      simp only [readBraces, least_eq, comma, most_eq, bind, Except.bind]
  · refine .pure inside_least ?_
    cases least <;> simp only [Option.map, readBraces, least_eq, no_comma, bind, Except.bind]

/-- The procedure reads what a function on cursors reads. Where that is nothing, the place is where
    it was. -/
abbrev MayGive (input : Input) (procedure : Descent (Option α)) (place : Place)
    (result : Except Misreading (Option (α × Cursor))) : Prop :=
  Ends input procedure place
    (fun found after =>
      match found with
      | none => result = .ok none ∧ after.position = place.position
      | some value => result = .ok (some (value, input.cursor after)))
    (fun reason => result = .error reason)

theorem mayGive_braces (inside : place.Inside input)
    (opens : (input.cursor place).peek = some '{') :
    MayGive input braces place (readBraces (input.cursor place)) := by
  have more := rest_ne_nil_of_peek opens
  refine Ends.position (Ends.pass inside more fun here inside_here passed => ?_)
  refine Ends.bind (ends_bracedBounds enough inside_here passed.symm) ?_
  intro bounds after inside_after read
  cases bounds with
  | none =>
    -- neither a number nor a comma
    refine Ends.moveTo inside_after inside.position fun back inside_back position => ?_
    exact .pure inside_back ⟨read, position⟩
  | some bounds =>
    refine Ends.eat inside_after (fun closed inside_closed close => ?_) fun no_close => ?_
    · rw [if_pos rfl]
      split
      · rename_i consistent
        refine .pure inside_closed ?_
        simp only [read, closeBraces, close, if_pos consistent]
      · rename_i reversed
        refine .refuse inside_closed ?_
        simp only [read, closeBraces, close, if_neg reversed]
        rfl
    · -- bounds, but no brace that closes them
      refine Ends.moveTo inside_after inside.position fun back inside_back position => ?_
      refine .pure inside_back ⟨?_, position⟩
      simp only [read, closeBraces, no_close]

/-- A brace that does not close: the place goes past it and is put back. -/
example : (braces ⟨ofChars ['{', '2', ','], 4⟩ .start).map Prod.snd = some ⟨0, [0, 3, 2, 1]⟩ := rfl

theorem mayGive_quantifier (inside : place.Inside input) :
    MayGive input quantifier place (readBounds (input.cursor place)) := by
  have braces_read := mayGive_braces enough inside
  have passed (bounds : Bounds) (more : (input.cursor place).rest ≠ []) :
      MayGive input (do pass; return some bounds) place
        (.ok (some (bounds, (input.cursor place).next))) := by
    refine Ends.pass inside more fun after inside_after passed => ?_
    exact .pure inside_after (by rw [passed])
  refine Ends.peek ?_
  unfold readBounds
  -- the procedure and the function ask for the same character
  generalize peeked : (input.cursor place).peek = here at braces_read ⊢
  split
  · exact passed _ (rest_ne_nil_of_peek peeked)
  · exact passed _ (rest_ne_nil_of_peek peeked)
  · exact passed _ (rest_ne_nil_of_peek peeked)
  · exact braces_read rfl
  · refine .pure inside ⟨?_, rfl⟩
    simp

/-- Looking for a quantifier never refuses the pattern, and puts the place back. -/
theorem ends_atQuantifier (inside : place.Inside input) :
    Ends input atQuantifier place
      (fun found after => found = startsQuantifier (input.cursor place) ∧
        after.position = place.position)
      (fun _ => False) := by
  have found : Ends input (do return (← quantifier).isSome) place
      (fun found _ => found = startsQuantifier (input.cursor place))
      (fun reason => readBounds (input.cursor place) = .error reason) := by
    refine Ends.bind (mayGive_quantifier enough inside) fun bounds after inside_after read => ?_
    refine .pure inside_after ?_
    cases bounds with
    | none => rw [startsQuantifier, read.1, Option.isSome_none]
    | some bounds => rw [startsQuantifier, read, Option.isSome_some]
  refine Ends.position (Ends.bind (Ends.tryCatch found ?_) ?_)
  · intro reason after inside_after refused
    refine .pure inside_after ?_
    rw [startsQuantifier, refused]
  · intro found after inside_after found_eq
    refine Ends.moveTo inside_after inside.position fun back inside_back position => ?_
    exact .pure inside_back ⟨found_eq, position⟩

omit enough in
theorem readGreediness_eq (c : Cursor) :
    readGreediness c = (!(c.eat? '?').isSome, (c.eat? '?').getD c) := by
  unfold readGreediness
  cases c.eat? '?' <;> rfl

/-- The term is repeated by the quantifier after it, which no other quantifier may follow. -/
theorem gives_repeated (inside : place.Inside input) (term : Tree SymbolSet) :
    Gives input (repeated term) place (quantify term (input.cursor place)) := by
  refine Ends.position (Ends.bind ((mayGive_quantifier enough inside).imp_reason ?_) ?_)
  · intro reason refused
    rw [quantify, refused]
    rfl
  intro bounds afterBounds inside_bounds read
  cases bounds with
  | none =>
    refine .pure inside_bounds ?_
    rw [quantify, read.1, cursor_eq read.2]
    rfl
  | some bounds =>
    simp only [quantify, read, readGreediness_eq, bind, Except.bind]
    split
    · refine Ends.bind ((ends_mark inside_bounds '?').imp_reason fun _ => False.elim) ?_
      rintro isLazy here inside_here ⟨rfl, mark⟩
      rw [← mark]
      -- the look at what follows the lazy mark leaves the place there
      have looked := ends_atQuantifier enough inside_here
      refine Ends.bind (looked.imp_reason fun _ => False.elim) ?_
      rintro found back inside_back ⟨rfl, stayed⟩
      split
      · refine Ends.position (.refuse inside_back ?_)
        rw [stayed]
        rfl
      · exact .pure inside_back (by rw [cursor_eq stayed])
    · exact .refuse inside_bounds rfl

end

/-! ## Escapes and brackets -/

variable (a : Alphabet) (negated : Bool)

theorem makes_escapedTerm (inside : place.Inside input)
    (backslash : (input.cursor place).peek = some '\\') :
    Makes input escapedTerm (Draft.over a) place (readEscapedTerm (input.cursor place)) := by
  have more := rest_ne_nil_of_peek backslash
  refine Ends.position (Ends.pass inside more fun here inside_here passed => ?_)
  refine Ends.advance inside_here (fun ended => ?_) ?_
  · refine .refuse inside_here ?_
    rw [passed] at ended
    simp only [readEscapedTerm, readEscape, ended, bind, Except.bind]
    rfl
  · intro symbol rest after rest_eq inside_after taken
    have read : readEscape (input.cursor place) = .ok (.of symbol, input.cursor after) := by
      rw [passed] at rest_eq taken
      simp only [readEscape, rest_eq, taken]
    simp only [readEscapedTerm, read, bind, Except.bind]
    cases Escape.of symbol with
    | shorthand kind => exact .pure inside_after ⟨.shorthand kind, rfl, rfl⟩
    | symbol s => exact .pure inside_after ⟨.literal s, rfl, rfl⟩
    | other ch =>
      cases ch with
      | none => exact .refuse inside_after rfl
      | some ch =>
        simp only
        split
        · exact .refuse inside_after rfl
        · refine Ends.peek ?_
          split
          · exact .refuse inside_after rfl
          · exact .refuse inside_after rfl

/-- A symbol is the same over all alphabets, and a shorthand stands for a set. -/
def Part.over : BracketAtom → Part
  | .symbol s => .symbol s
  | .shorthand kind => .set (shorthandSet a negated kind)

theorem makes_bracketAtom (inside : place.Inside input) :
    Makes input (bracketAtom a negated) (Part.over a negated) place
      (readBracketAtom (input.cursor place)) := by
  refine Ends.position (Ends.advance inside (fun ended => ?_) ?_)
  · refine .refuse inside ?_
    simp only [readBracketAtom, ended]
    rfl
  intro symbol rest here rest_eq inside_here passed
  have peek_eq : (input.cursor place).peek = Symbol.char? symbol := by
    rw [Cursor.peek, rest_eq, List.head?_cons, Option.bind_some]
  simp only [readBracketAtom, rest_eq, peek_eq]
  split
  · refine Ends.advance inside_here (fun ended => ?_) ?_
    · refine .refuse inside_here ?_
      rw [passed] at ended
      simp only [readEscape, ended, bind, Except.bind]
      rfl
    · intro escaped rest' after rest_eq' inside_after taken
      have read : readEscape (input.cursor place) = .ok (.of escaped, input.cursor after) := by
        rw [passed] at rest_eq' taken
        simp only [readEscape, rest_eq', taken]
      simp only [read, bind, Except.bind]
      cases Escape.of escaped with
      | shorthand kind => exact .pure inside_after ⟨.shorthand kind, rfl, rfl⟩
      | symbol s => exact .pure inside_after ⟨.symbol s, rfl, rfl⟩
      | other ch => exact .refuse inside_after rfl
  · exact .pure inside_here ⟨.symbol symbol, rfl, by rw [passed]⟩

/-- Looking at a dash leaves the place alone. -/
theorem atJoiningDash_apply (input : Input) (place : Place) :
    atJoiningDash input place = some (.ok (dashJoins (input.cursor place)), place) := by
  rw [atJoiningDash, bind_apply position_apply, bind_apply (symbolAt?_apply _),
    bind_apply peek_apply]
  show some (Except.ok _, place) = _
  congr 3
  by_cases more : (input.cursor place).rest = []
  · have ended : (input.cursor place).peek = none := by simp [Cursor.peek, more]
    simp [dashJoins, ended]
  · have following : (input.cursor place).next.rest.isEmpty =
        !(input.symbols[place.position + 1]?).isSome := by
      rw [← cursor_next more, Input.cursor, Place.moveTo, ← List.head?_drop]
      cases input.symbols.drop (place.position + 1) <;> rfl
    have peek_after := @peek_cursor input (place.moveTo (place.position + 1))
    rw [dashJoins, following, ← cursor_next more, peek_after, Bool.not_not]
    rfl

theorem makes_bracketItem (inside : place.Inside input) (gathered : Gathered) :
    Makes input (bracketItem a negated gathered) (gathered.add a negated) place
      (readBracketItem (input.cursor place)) := by
  refine Ends.position (Makes.bind (makes_bracketAtom a negated inside) ?_)
  intro atom here inside_here _
  cases atom with
  | shorthand kind =>
    refine Ends.after_step (atJoiningDash_apply input here) ?_
    simp only
    split
    · exact .refuse inside_here rfl
    · exact .pure inside_here ⟨.shorthand kind, rfl, rfl⟩
  | symbol low =>
    refine Ends.after_step (atJoiningDash_apply input here) ?_
    simp only
    split
    · rename_i joins
      -- a dash that joins is there to be passed
      have dash : (input.cursor here).peek = some '-' := by
        simp only [dashJoins, Bool.and_eq_true, decide_eq_true_eq] at joins
        exact joins.1.1
      refine Ends.pass inside_here (rest_ne_nil_of_peek dash) fun other inside_other passed => ?_
      rw [← passed]
      refine Makes.bind (makes_bracketAtom a negated inside_other)
        fun atom after inside_after _ => ?_
      cases atom with
      | shorthand kind => exact .refuse inside_after rfl
      | symbol high =>
        simp only [Part.over]
        split
        · exact .pure inside_after ⟨.range low high, rfl, rfl⟩
        · exact .refuse inside_after rfl
    · exact .pure inside_here ⟨.range low low, rfl, rfl⟩

/-- Unless the bracket closes here, an item is read, and then the others. -/
theorem readBracketItems_eq_bind {opened : Nat} {atStart : Bool} {c : Cursor} (more : c.rest ≠ [])
    (stays_open : ¬(c.peek = some ']' ∧ atStart = false)) :
    readBracketItems opened atStart c = (do
      let (item, stop) ← readBracketItem c
      let (items, closed) ← readBracketItems opened false stop
      return (item :: items, closed)) := by
  rw [readBracketItems, if_neg (by simpa using more), if_neg (by simpa [and_comm] using stays_open)]
  split
  · rename_i e read
    rw [read]
    rfl
  · rename_i item stop read
    simp only [read, bind, Except.bind]
    cases readBracketItems opened false stop <;> rfl

/-- A turn of reading a bracket gathers an item, passes the closing bracket, or refuses the
    pattern. -/
theorem ends_itemTurn (inside : place.Inside input) (opened : Nat) (atStart : Bool)
    (gathered : Gathered) :
    Ends input (itemTurn a negated opened (atStart, gathered)) place
      (fun next after =>
        match next with
        | .inl (atStart', gathered') => place.position < after.position ∧ atStart' = false ∧
            ∃ item, gathered' = gathered.add a negated item ∧
              readBracketItems opened atStart (input.cursor place) = do
                let (items, closed) ← readBracketItems opened false (input.cursor after)
                return (item :: items, closed)
        | .inr all => all = gathered ∧
            readBracketItems opened atStart (input.cursor place) = .ok ([], input.cursor after))
      (fun reason => readBracketItems opened atStart (input.cursor place) = .error reason) := by
  refine Ends.atEnd ?_
  split
  · rename_i ended
    refine .refuse inside ?_
    rw [readBracketItems, if_pos ended]
  · rename_i more
    refine Ends.peek ?_
    split
    · rename_i closes
      simp only [Bool.and_eq_true, decide_eq_true_eq, Bool.not_eq_true'] at closes
      refine Ends.pass inside (rest_ne_nil_of_peek closes.1) fun after inside_after passed => ?_
      refine .pure inside_after ⟨rfl, ?_⟩
      rw [readBracketItems, if_neg more, if_pos (by simp [closes]), passed]
    · rename_i goes_on
      rw [readBracketItems_eq_bind (by simpa using more) (by simpa using goes_on)]
      refine Ends.bind ((makes_bracketItem a negated inside gathered).imp_reason ?_) ?_
      · intro reason refused
        rw [refused]
        rfl
      · rintro _ after inside_after ⟨item, rfl, read⟩
        refine .pure inside_after ⟨?_, rfl, item, rfl, by rw [read]; rfl⟩
        exact inside.position_lt inside_after (remaining_lt_of_readBracketItem read)

theorem readTerm_bracket_eq (c : Cursor) :
    readTerm '[' c = do
      let (items, stop) ← readBracketItems c.position true ((c.next.eat? '^').getD c.next)
      return (.bracket items (c.next.eat? '^').isSome, stop) := by
  simp only [readTerm, readBracket]
  cases c.next.eat? '^' <;> exact bind_assoc _ _ _

section
variable (enough : input.symbols.length < input.limit)
include enough

theorem makes_items (inside : place.Inside input) (opened : Nat) :
    Makes input (loop (itemTurn a negated opened) (true, .nothing))
      (fun items => items.foldl (Gathered.add a negated) .nothing) place
      (readBracketItems opened true (input.cursor place)) := by
  -- the items of the whole bracket are those gathered so far and those still to come
  refine Ends.loop enough (fun state here => ∃ taken : List BracketItem,
    state.2 = taken.foldl (Gathered.add a negated) .nothing ∧
    readBracketItems opened true (input.cursor place) = do
      let (items, closed) ← readBracketItems opened state.1 (input.cursor here)
      return (taken ++ items, closed)) ?_ inside ?_
  · rintro ⟨atStart, gathered⟩ here inside_here ⟨taken, gathered_eq, holds⟩
    rw [holds]
    refine (ends_itemTurn a negated inside_here opened atStart gathered).imp ?_ ?_
    · intro next after inside_after turn
      cases next with
      | inl state =>
        obtain ⟨atStart', gathered'⟩ := state
        obtain ⟨forward, rfl, item, rfl, read⟩ := turn
        refine ⟨forward, taken ++ [item], ?_, ?_⟩
        · rw [List.foldl_append, ← gathered_eq]
          rfl
        · simp only [read, bind, Except.bind]
          cases readBracketItems opened false (input.cursor after) with
          | error e => rfl
          | ok rest => simp [pure, Except.pure]
      | inr all =>
        obtain ⟨rfl, read⟩ := turn
        refine ⟨taken, gathered_eq, ?_⟩
        simp [read, bind, Except.bind, pure, Except.pure]
    · intro reason refused
      rw [refused]
      rfl
  · refine ⟨[], rfl, ?_⟩
    cases readBracketItems opened true (input.cursor place) <;> rfl

theorem makes_bracket (inside : place.Inside input)
    (opens : (input.cursor place).peek = some '[') :
    Makes input (bracket a) (Draft.over a) place (readTerm '[' (input.cursor place)) := by
  have more := rest_ne_nil_of_peek opens
  refine Ends.position (Ends.pass inside more fun here inside_here passed => ?_)
  refine Ends.bind ((ends_mark inside_here '^').imp_reason fun _ => False.elim) ?_
  rintro negated start inside_start ⟨rfl, mark⟩
  rw [readTerm_bracket_eq, ← passed, ← mark]
  refine Makes.bind (makes_items a _ enough inside_start place.position) ?_
  intro items after inside_after _
  exact .pure inside_after ⟨.bracket items _, rfl, rfl⟩

end

/-! ## Openings of groups -/

theorem readName_of_takeWhile {c stop : Cursor} {chars : List Char}
    (taken : c.takeWhile isNameChar = (chars, stop)) :
    readName c =
      if chars.head?.any Char.isDigit then .error (.malformed c.position .badNameCharacter)
      else
        match stop.peek with
        | some '>' =>
          if chars.isEmpty then .error (.malformed c.position .missingName)
          else .ok (.ofList chars, stop.next)
        | some _ => .error (.malformed stop.position .badNameCharacter)
        | none => .error (.malformed c.position .unterminatedName) := by
  unfold readName
  generalize c.takeWhile isNameChar = result at taken
  subst taken
  rfl

/-- A turn of reading a name takes a character that may stand there, passes the `>` that closes the
    name, or refuses the pattern. -/
theorem ends_nameTurn (inside : place.Inside input) (start : Nat) (chars : List Char) :
    Ends input (nameTurn start chars) place
      (fun next after => ∃ ch, (input.cursor place).peek = some ch ∧
        input.cursor after = (input.cursor place).next ∧
        match next with
        | .inl longer => longer = chars ++ [ch] ∧ isNameChar ch = true ∧
            (chars = [] → ch.isDigit = false)
        | .inr all => all = chars ∧ ch = '>')
      (fun reason =>
        match (input.cursor place).peek with
        | none => reason = .malformed start .unterminatedName
        | some ch => reason = .malformed place.position .badNameCharacter ∧ ch ≠ '>' ∧
            (isNameChar ch = false ∨ chars = [] ∧ ch.isDigit = true)) := by
  refine Ends.peek ?_
  generalize peeked : (input.cursor place).peek = here
  split
  · refine Ends.pass inside (rest_ne_nil_of_peek peeked) fun after inside_after passed => ?_
    exact .pure inside_after ⟨'>', rfl, passed, rfl, rfl⟩
  · rename_i ch goes_on
    split
    · rename_i takes
      refine Ends.pass inside (rest_ne_nil_of_peek peeked) fun after inside_after passed => ?_
      refine .pure inside_after ⟨ch, rfl, passed, rfl, ?_, ?_⟩
      · simp only [Bool.or_eq_true, Bool.and_eq_true, decide_eq_true_eq] at takes
        rcases takes with (underscore | letter) | digit
        · exact isNameChar_of (Or.inr underscore)
        · exact isNameChar_of (Or.inl (by simp [Char.isAlphanum, letter]))
        · exact isNameChar_of (Or.inl (by simp [Char.isAlphanum, digit.1]))
      · rintro rfl
        apply not_isDigit_of_first
        simpa [or_comm] using takes
    · rename_i faulty
      refine Ends.position (.refuse inside ⟨rfl, ?_, ?_⟩)
      · intro closes
        exact goes_on (by rw [closes])
      · simp only [Bool.or_eq_true, Bool.and_eq_true, decide_eq_true_eq, not_or, not_and,
          Bool.not_eq_true', Bool.not_eq_false, List.isEmpty_iff] at faulty
        by_cases digit : ch.isDigit = true
        · exact Or.inr ⟨faulty.2 digit, digit⟩
        · left
          simp [isNameChar, Char.isAlphanum, digit, faulty.1]
  · exact .refuse inside rfl

section
variable (enough : input.symbols.length < input.limit)
include enough

/-- The turns take a name from here on and pass the `>` that closes it. -/
theorem ends_nameChars (inside : place.Inside input) :
    Ends input (loop (nameTurn place.position) []) place
      (fun chars after => ∃ stop, (input.cursor place).takeWhile isNameChar = (chars, stop) ∧
        chars.head?.any Char.isDigit = false ∧ stop.peek = some '>' ∧
        input.cursor after = stop.next)
      (fun reason => readName (input.cursor place) = .error reason) := by
  -- the characters taken so far start with no digit, and each took the place one further
  refine Ends.loop enough (fun chars here => here.position = place.position + chars.length ∧
    chars.head?.any Char.isDigit = false ∧
    (input.cursor place).Takes isNameChar chars (input.cursor here))
    ?_ inside ⟨rfl, rfl, takes_nil _ _⟩
  rintro chars here inside_here ⟨position, no_digit, taken⟩
  refine (ends_nameTurn inside_here _ chars).imp ?_ ?_
  · rintro next after inside_after ⟨ch, peeked, passed, turn⟩
    cases next with
    | inl longer =>
      obtain ⟨rfl, name_char, first⟩ := turn
      have forward := position_of_next peeked passed
      refine ⟨by omega, ?_, ?_, ?_⟩
      · rw [forward, position, List.length_append, List.length_singleton, Nat.add_assoc]
      · cases chars with
        | nil => simpa using first rfl
        | cons head tail => exact no_digit
      · rw [passed]
        exact taken.concat peeked name_char
    | inr all =>
      obtain ⟨rfl, rfl⟩ := turn
      refine ⟨input.cursor here, taken.all ?_, no_digit, peeked, passed⟩
      intro ch peeked'
      rw [peeked] at peeked'
      cases peeked'
      decide
  · intro reason refused
    cases peeked : (input.cursor here).peek with
    | none =>
      rw [peeked] at refused
      rw [readName_of_takeWhile (taken.all (by simp [peeked])), no_digit, refused, peeked]
      rfl
    | some ch =>
      rw [peeked] at refused
      obtain ⟨rfl, not_close, not_name | ⟨rfl, digit⟩⟩ := refused
      · rw [readName_of_takeWhile (taken.all (by simp [peeked, not_name])), no_digit, peeked,
          if_neg Bool.false_ne_true]
        split
        · rename_i same
          cases same
          exact absurd rfl not_close
        · rfl
        · rename_i same
          cases same
      · -- a digit that stands first is taken, and refused afterwards
        have name_char : isNameChar ch = true :=
          isNameChar_of (Or.inl (by simp [Char.isAlphanum, digit]))
        rw [readName_of_takeWhile (taken.concat peeked name_char), if_pos (by simp [digit])]
        simp [Input.cursor, position]

theorem gives_named (inside : place.Inside input) :
    Gives input named place (readNamed (input.cursor place)) := by
  refine Ends.position (Ends.bind ((ends_nameChars enough inside).imp_reason ?_) ?_)
  · intro reason refused
    rw [readNamed, refused]
    rfl
  · rintro chars after inside_after ⟨stop, taken, no_digit, closes, passed⟩
    have read : readName (input.cursor place) =
        if chars.isEmpty then .error (.malformed place.position .missingName)
        else .ok (.ofList chars, input.cursor after) := by
      rw [readName_of_takeWhile taken, no_digit, closes, passed]
      rfl
    rw [readNamed, read]
    split
    · exact .refuse inside_after rfl
    · exact .pure inside_after rfl

theorem gives_extension (inside : place.Inside input) (opened : Nat) :
    Gives input (extension opened) place (readExtension opened (input.cursor place)) := by
  refine Ends.position (Ends.peek ?_)
  unfold readExtension
  -- what follows the question mark decides, after one more symbol or after two
  generalize peeked : (input.cursor place).peek = first
  split
  · exact Gives.pass_return inside peeked
  · exact Gives.pass_return inside peeked
  · exact Gives.pass_return inside peeked
  · refine Ends.pass inside (rest_ne_nil_of_peek peeked) fun here inside_here passed => ?_
    refine Ends.peek ?_
    rw [← passed]
    have named := gives_named enough inside_here
    generalize peeked' : (input.cursor here).peek = second
    split
    · exact Gives.pass_return inside_here peeked'
    · exact Gives.pass_return inside_here peeked'
    · rename_i ch _ _
      by_cases digit : ch.isDigit = true
      · simp only [if_pos digit]
        exact .refuse inside_here rfl
      · simp only [if_neg digit]
        exact named
    · exact named
  · refine Ends.pass inside (rest_ne_nil_of_peek peeked) fun here inside_here passed => ?_
    refine Ends.peek ?_
    rw [← passed]
    generalize peeked' : (input.cursor here).peek = second
    split
    · refine Ends.pass inside_here (rest_ne_nil_of_peek peeked') fun name inside_name passed' => ?_
      rw [← passed']
      exact gives_named enough inside_name
    · exact .refuse inside_here rfl
    · exact .refuse inside_here rfl
    · exact .refuse inside_here (by simp)
  · exact .refuse inside rfl
  · exact .refuse inside rfl
  · exact .refuse inside rfl
  · exact .refuse inside rfl
  · exact .refuse inside rfl
  · rename_i ch _ _ _ _ _ _ _ _ _ _
    by_cases digit : ch.isDigit = true
    · simp only [if_pos digit]
      exact .refuse inside rfl
    · by_cases flag : isFlag ch = true
      · simp only [if_neg digit, if_pos flag]
        exact .refuse inside rfl
      · simp only [if_neg digit, if_neg flag]
        exact .refuse inside rfl
  · exact .refuse inside rfl

theorem gives_opening (inside : place.Inside input)
    (opens : (input.cursor place).peek = some '(') :
    Gives input opening place (readOpening (input.cursor place)) := by
  have more := rest_ne_nil_of_peek opens
  refine Ends.position (Ends.pass inside more fun here inside_here passed => ?_)
  refine Ends.eat inside_here (fun mark inside_mark eaten => ?_) fun stays => ?_
  · rw [passed] at eaten
    rw [readOpening, eaten]
    exact gives_extension enough inside_mark place.position
  · rw [passed] at stays
    rw [readOpening, stays, ← passed]
    exact .pure inside_here rfl

end

end Descent

end PatternSampler.Notation
