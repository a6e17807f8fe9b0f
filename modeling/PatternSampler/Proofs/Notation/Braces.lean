import PatternSampler.Proofs.Notation.Forms

/-! # Braces

  A brace after a term opens a quantifier or stands for itself. `BracesForm` lists the texts
  that have the form of a quantifier, whatever the size of their numbers, and what is read at a
  brace is told from the symbols that begin there (`readBounds_open_brace`):

  - a form with admissible numbers is read to its end, as the numbers it holds;
  - where no form begins, no quantifier is read and the brace is a literal, unless a number that
    was read on the way is too long (`LongNumber`), which is a fault.

  So a brace that does not close is refused after all if its digits are too many.
-/

namespace PatternSampler.Notation

open Cursor

variable {c d : Cursor} {position : Nat} {digits lower upper : List Char} {rest : List Symbol}

/-! ## Digits -/

/-- Decimal digits, or nothing. -/
def AllDigits (digits : List Char) : Prop := ∀ ch ∈ digits, ch.isDigit = true

/-- The symbols do not begin with a digit. -/
def NoDigit (rest : List Symbol) : Prop :=
  ∀ ch, rest.head?.bind Symbol.char? = some ch → ch.isDigit = false

/-- The number that digits stand for; no digits stand for zero. -/
def numberOf (digits : List Char) : Nat := Nat.ofDigitChars 10 digits 0

/-- The number that digits stand for, if there are any. -/
def numberOf? : List Char → Option Nat
  | [] => none
  | digit :: digits => some (numberOf (digit :: digits))

/-- Any symbols begin with a row of digits, which may be empty, up to one that is no digit. -/
theorem exists_digits (rest : List Symbol) :
    ∃ digits after, rest = ofChars digits ++ after ∧ AllDigits digits ∧ NoDigit after := by
  obtain ⟨rest_eq, -, all, ends⟩ := takeWhile_spec Char.isDigit ⟨0, rest⟩
  exact ⟨_, _, rest_eq, all, ends⟩

theorem noDigit_cons {ch : Char} (no_digit : ch.isDigit = false) :
    NoDigit (.ofChar ch :: rest) := by
  intro other starts
  obtain rfl : ch = other := by simpa using starts
  exact no_digit

/-- Digits of a number that fits are a numeral, or none. -/
theorem numeralOrNone_of_lt (all : AllDigits digits) (fits : numberOf digits < UInt32.size) :
    NumeralOrNone ((numberOf? digits).map UInt32.ofNat) digits := by
  cases digits with
  | nil => exact .absent
  | cons digit digits =>
    have value : Nat.ofDigitChars 10 (digit :: digits) 0 =
        (UInt32.ofNat (numberOf (digit :: digits))).toNat := by
      rw [UInt32.toNat_ofNat', Nat.mod_eq_of_lt fits]
      rfl
    exact .present ⟨List.cons_ne_nil digit digits, all, value⟩

theorem readNumber_of_lt (all : AllDigits digits) (ends : NoDigit rest)
    (fits : numberOf digits < UInt32.size) :
    readNumber ⟨position, ofChars digits ++ rest⟩ =
      .ok ((numberOf? digits).map UInt32.ofNat, ⟨position + digits.length, rest⟩) :=
  readNumber_of_numeralOrNone (numeralOrNone_of_lt all fits) ends

/-- A number that does not fit is a fault at its first digit. -/
theorem readNumber_of_le (all : AllDigits digits) (ends : NoDigit rest)
    (long : UInt32.size ≤ numberOf digits) :
    readNumber ⟨position, ofChars digits ++ rest⟩ =
      .error (.malformed position .numberTooLarge) := by
  have past : ¬ decimal digits < UInt32.size := by
    rw [decimal_eq_ofDigitChars]
    exact Nat.not_lt.2 long
  unfold readNumber
  rw [takeWhile_append all ends]
  split
  · rename_i no_digits
    -- no digits at all stand for zero
    rw [(Prod.mk.inj no_digits).1] at long
    exact absurd long (by decide)
  · rename_i eq
    cases eq
    exact if_neg past

/-! ## Forms -/

/-- Braces with the form of a quantifier, and the numbers in them: how often at least, and how
    often at most if that is given. -/
inductive BracesForm : Nat → Option Nat → List Symbol → Prop where
  /-- One number is both bounds. -/
  | exactly {digits : List Char} (not_empty : digits ≠ []) (all : AllDigits digits) :
      BracesForm (numberOf digits) (some (numberOf digits))
        (.ofChar '{' :: (ofChars digits ++ [.ofChar '}']))
  /-- With a comma either number may be left out. -/
  | between {lower upper : List Char} (lower_all : AllDigits lower) (upper_all : AllDigits upper) :
      BracesForm (numberOf lower) (numberOf? upper)
        (.ofChar '{' :: (ofChars lower ++ .ofChar ',' :: (ofChars upper ++ [.ofChar '}'])))

/-- Numbers that a quantifier may have: they fit into 32 bits and are in order. -/
def Admissible (least : Nat) (most : Option Nat) : Prop :=
  least < UInt32.size ∧ ∀ m, most = some m → m < UInt32.size ∧ least ≤ m

/-- The bounds with the given numbers. -/
def boundsOf (least : Nat) (most : Option Nat) : Bounds :=
  ⟨UInt32.ofNat least, most.map UInt32.ofNat⟩

/-- A number in braces is too long: the one after the brace, or one after a comma that follows
    it. What comes after its last digit does not matter. The index says how far after the brace
    the number starts. -/
inductive LongNumber : Nat → List Symbol → Prop where
  /-- The first number. -/
  | first {digits : List Char} {rest : List Symbol} (all : AllDigits digits)
      (ends : NoDigit rest) (long : UInt32.size ≤ numberOf digits) :
      LongNumber 1 (.ofChar '{' :: (ofChars digits ++ rest))
  /-- The second number, where the first one fits or is left out. -/
  | second {lower upper : List Char} {rest : List Symbol} (lower_all : AllDigits lower)
      (fits : numberOf lower < UInt32.size) (upper_all : AllDigits upper) (ends : NoDigit rest)
      (long : UInt32.size ≤ numberOf upper) :
      LongNumber (lower.length + 2)
        (.ofChar '{' :: (ofChars lower ++ .ofChar ',' :: (ofChars upper ++ rest)))

variable {least offset : Nat} {most : Option Nat} {text : List Symbol}

/-- Braces with admissible numbers are a quantifier. -/
theorem BracesForm.quantifierForm (form : BracesForm least most text)
    (admissible : Admissible least most) : QuantifierForm (boundsOf least most) text := by
  cases form with
  | @exactly digits not_empty all =>
    have numeral := numeralOrNone_of_lt all admissible.1
    cases digits with
    | nil => exact absurd rfl not_empty
    | cons digit digits =>
      cases numeral with
      | present numeral => exact .exactly numeral
  | @between lower upper lower_all upper_all =>
    have lower_numeral := numeralOrNone_of_lt lower_all admissible.1
    have upper_fits : numberOf upper < UInt32.size := by
      cases upper with
      | nil => decide
      | cons digit digits => exact (admissible.2 _ rfl).1
    have least_eq : (((numberOf? lower).map UInt32.ofNat).getD 0) =
        UInt32.ofNat (numberOf lower) := by
      cases lower with
      | nil => rfl
      | cons digit digits => rfl
    have form := QuantifierForm.between lower_numeral (numeralOrNone_of_lt upper_all upper_fits)
    rw [least_eq] at form
    exact form

/-- Admissible numbers stay in order as bounds. -/
theorem consistent_boundsOf (admissible : Admissible least most) :
    (boundsOf least most).Consistent := by
  intro bound bound_eq
  obtain ⟨m, most_eq, rfl⟩ := Option.map_eq_some_iff.1 bound_eq
  obtain ⟨fits, in_order⟩ := admissible.2 m most_eq
  show UInt32.ofNat least ≤ UInt32.ofNat m
  rw [UInt32.le_iff_toNat_le, UInt32.toNat_ofNat', UInt32.toNat_ofNat',
    Nat.mod_eq_of_lt admissible.1, Nat.mod_eq_of_lt fits]
  exact in_order

/-! ## What is read at a brace -/

/-- A form with admissible numbers is read to its end, whatever follows. -/
theorem readBounds_of_braces (form : BracesForm least most text)
    (admissible : Admissible least most) :
    readBounds ⟨position, text ++ rest⟩ =
      .ok (some (boundsOf least most, ⟨position + text.length, rest⟩)) :=
  readBounds_of_form (form.quantifierForm admissible) (consistent_boundsOf admissible)

/-- What is read after a comma does not depend on the number before it. -/
theorem readBraces_comma (lower_all : AllDigits lower) (fits : numberOf lower < UInt32.size) :
    readBraces ⟨position, .ofChar '{' :: (ofChars lower ++ .ofChar ',' :: rest)⟩ = (do
      let (most, stop) ← readNumber ⟨position + (lower.length + 2), rest⟩
      closeBraces position ⟨UInt32.ofNat (numberOf lower), most⟩ stop) := by
  have least_eq : ((numberOf? lower).map UInt32.ofNat).getD 0 = UInt32.ofNat (numberOf lower) := by
    cases lower with
    | nil => rfl
    | cons digit digits => rfl
  have place_eq : position + 1 + lower.length + 1 = position + (lower.length + 2) := by omega
  unfold readBraces
  rw [next_cons, readNumber_of_lt lower_all (noDigit_cons (by decide)) fits]
  simp only [bind, Except.bind, eat?_cons, Symbol.char?_ofChar, if_true, least_eq, place_eq]

/-- Without a comma the braces hold one number, or they are no quantifier. -/
theorem readBraces_no_comma (all : AllDigits digits) (ends : NoDigit rest)
    (fits : numberOf digits < UInt32.size) (no_comma : rest.head? ≠ some (.ofChar ',')) :
    readBraces ⟨position, .ofChar '{' :: (ofChars digits ++ rest)⟩ =
      if digits = [] then .ok none
      else closeBraces position
        ⟨UInt32.ofNat (numberOf digits), some (UInt32.ofNat (numberOf digits))⟩
        ⟨position + 1 + digits.length, rest⟩ := by
  have not_eaten : eat? ⟨position + 1 + digits.length, rest⟩ ',' = none :=
    if_neg (peek_ne_of_head?_ne no_comma)
  unfold readBraces
  rw [next_cons, readNumber_of_lt all ends fits]
  simp only [bind, Except.bind, not_eaten]
  cases digits with
  | nil => rfl
  | cons digit digits => rfl

theorem closeBraces_of_head?_ne {opened : Nat} {b : Bounds}
    (open_still : rest.head? ≠ some (.ofChar '}')) :
    closeBraces opened b ⟨position, rest⟩ = .ok none := by
  have not_eaten : eat? ⟨position, rest⟩ '}' = none :=
    if_neg (peek_ne_of_head?_ne open_still)
  unfold closeBraces
  rw [not_eaten]

theorem readBounds_eq_readBraces :
    readBounds ⟨position, .ofChar '{' :: rest⟩ = readBraces ⟨position, .ofChar '{' :: rest⟩ := by
  simp [readBounds]

/-- A number that is too long is a fault where it starts, even before it is known whether the
    brace closes. -/
theorem readBounds_of_longNumber (long : LongNumber offset text) :
    readBounds ⟨position, text⟩ = .error (.malformed (position + offset) .numberTooLarge) := by
  cases long with
  | first all ends long =>
    rw [readBounds_eq_readBraces, readBraces, next_cons, readNumber_of_le all ends long]
    rfl
  | second lower_all fits upper_all ends long =>
    rw [readBounds_eq_readBraces, readBraces_comma lower_all fits,
      readNumber_of_le upper_all ends long]
    rfl

/-- Numbers that fit and are not in order are a fault at the brace. -/
theorem readBounds_of_reversed {m : Nat} (form : BracesForm least (some m) text)
    (m_fits : m < UInt32.size) (least_fits : least < UInt32.size) (reversed : m < least) :
    readBounds ⟨position, text ++ rest⟩ = .error (.malformed position .boundsReversed) := by
  generalize most_eq : some m = most at form
  cases form with
  | exactly not_empty all =>
    cases most_eq
    exact absurd reversed (Nat.lt_irrefl _)
  | @between lower upper lower_all upper_all =>
    have upper_eq : numberOf upper = m := by
      cases upper with
      | nil => cases most_eq
      | cons digit digits => exact (Option.some.inj most_eq).symm
    have upper_fits : numberOf upper < UInt32.size := upper_eq ▸ m_fits
    have not_consistent : ¬ Bounds.Consistent ⟨UInt32.ofNat (numberOf lower),
        (numberOf? upper).map UInt32.ofNat⟩ := by
      intro consistent
      rw [← most_eq] at consistent
      have in_order := consistent (UInt32.ofNat m) rfl
      rw [UInt32.le_iff_toNat_le, UInt32.toNat_ofNat', UInt32.toNat_ofNat',
        Nat.mod_eq_of_lt m_fits, Nat.mod_eq_of_lt least_fits] at in_order
      exact absurd reversed (Nat.not_lt.2 in_order)
    simp only [List.append_assoc, List.cons_append, List.nil_append]
    rw [readBounds_eq_readBraces, readBraces_comma lower_all least_fits,
      readNumber_of_lt upper_all (noDigit_cons (by decide)) upper_fits]
    simp [bind, Except.bind, closeBraces, not_consistent]

/-- Where neither a form begins nor a number is too long, there is no quantifier. The proof
    follows the reader from one row of digits to the next. -/
theorem readBounds_of_neither
    (no_form : ∀ least most text after, BracesForm least most text →
      .ofChar '{' :: rest ≠ text ++ after)
    (no_long : ∀ offset, ¬ LongNumber offset (.ofChar '{' :: rest)) :
    readBounds ⟨position, .ofChar '{' :: rest⟩ = .ok none := by
  rw [readBounds_eq_readBraces]
  obtain ⟨lower, afterLower, rfl, lower_all, lower_ends⟩ := exists_digits rest
  have lower_fits : numberOf lower < UInt32.size := by
    apply Nat.lt_of_not_le
    intro long
    exact no_long _ (.first lower_all lower_ends long)
  by_cases comma : afterLower.head? = some (.ofChar ',')
  · obtain ⟨afterComma, rfl⟩ := List.head?_eq_some_iff.1 comma
    obtain ⟨upper, after, rfl, upper_all, upper_ends⟩ := exists_digits afterComma
    have upper_fits : numberOf upper < UInt32.size := by
      apply Nat.lt_of_not_le
      intro long
      exact no_long _ (.second lower_all lower_fits upper_all upper_ends long)
    have open_still : after.head? ≠ some (.ofChar '}') := by
      intro closes
      obtain ⟨after, rfl⟩ := List.head?_eq_some_iff.1 closes
      apply no_form _ _ _ after (.between lower_all upper_all)
      simp only [List.append_assoc, List.cons_append, List.nil_append]
    rw [readBraces_comma lower_all lower_fits, readNumber_of_lt upper_all upper_ends upper_fits]
    exact closeBraces_of_head?_ne open_still
  · rw [readBraces_no_comma lower_all lower_ends lower_fits comma]
    by_cases empty : lower = []
    · exact if_pos empty
    · rw [if_neg empty]
      apply closeBraces_of_head?_ne
      intro closes
      obtain ⟨after, rfl⟩ := List.head?_eq_some_iff.1 closes
      apply no_form _ _ _ after (.exactly empty lower_all)
      simp only [List.append_assoc, List.cons_append, List.nil_append]

/-- The numbers of a form are admissible, or one is too long, or they are not in order. -/
theorem BracesForm.admissible_or (form : BracesForm least most text) (after : List Symbol) :
    Admissible least most ∨ (∃ offset, LongNumber offset (text ++ after)) ∨
      ∃ m, most = some m ∧ m < UInt32.size ∧ least < UInt32.size ∧ m < least := by
  cases form with
  | @exactly digits not_empty all =>
    by_cases fits : numberOf digits < UInt32.size
    · left
      refine ⟨fits, ?_⟩
      intro m m_eq
      cases m_eq
      exact ⟨fits, Nat.le_refl _⟩
    · right; left
      refine ⟨1, ?_⟩
      simp only [List.append_assoc, List.cons_append, List.nil_append]
      exact .first all (noDigit_cons (by decide)) (Nat.le_of_not_lt fits)
  | @between lower upper lower_all upper_all =>
    simp only [List.append_assoc, List.cons_append, List.nil_append]
    by_cases lower_fits : numberOf lower < UInt32.size
    · by_cases upper_fits : numberOf upper < UInt32.size
      · cases upper with
        | nil =>
          left
          exact ⟨lower_fits, nofun⟩
        | cons digit digits =>
          by_cases in_order : numberOf lower ≤ numberOf (digit :: digits)
          · left
            refine ⟨lower_fits, ?_⟩
            intro m m_eq
            cases m_eq
            exact ⟨upper_fits, in_order⟩
          · right
            right
            exact ⟨_, rfl, upper_fits, lower_fits, Nat.lt_of_not_le in_order⟩
      · right
        left
        exact ⟨_, .second lower_all lower_fits upper_all (noDigit_cons (by decide))
          (Nat.le_of_not_lt upper_fits)⟩
    · right
      left
      exact ⟨1, .first lower_all (noDigit_cons (by decide)) (Nat.le_of_not_lt lower_fits)⟩

/-- Where a form begins, something is read: its numbers, or a fault in them. -/
theorem BracesForm.readBounds_ne_none (form : BracesForm least most text) :
    readBounds ⟨position, text ++ rest⟩ ≠ .ok none := by
  intro none_read
  rcases form.admissible_or rest with admissible | ⟨offset, long⟩ |
    ⟨m, rfl, m_fits, least_fits, reversed⟩
  · rw [readBounds_of_braces form admissible] at none_read
    cases none_read
  · rw [readBounds_of_longNumber long] at none_read
    cases none_read
  · rw [readBounds_of_reversed form m_fits least_fits reversed] at none_read
    cases none_read

/-- What may stand at a brace: a form with admissible numbers, a number that is too long, a form
    with numbers that are not in order, or none of them. -/
theorem braces_cases (rest : List Symbol) :
    (∃ least most text after, BracesForm least most text ∧ Admissible least most ∧
      .ofChar '{' :: rest = text ++ after) ∨
    (∃ offset, LongNumber offset (.ofChar '{' :: rest)) ∨
    (∃ least m text after, BracesForm least (some m) text ∧ m < UInt32.size ∧
      least < UInt32.size ∧ m < least ∧ .ofChar '{' :: rest = text ++ after) ∨
    ((∀ least most text after, BracesForm least most text →
      .ofChar '{' :: rest ≠ text ++ after) ∧
      ∀ offset, ¬ LongNumber offset (.ofChar '{' :: rest)) := by
  by_cases begins : ∃ least most text after, BracesForm least most text ∧
      .ofChar '{' :: rest = text ++ after
  · obtain ⟨least, most, text, after, form, rest_eq⟩ := begins
    rcases form.admissible_or after with admissible | long |
      ⟨m, rfl, m_fits, least_fits, reversed⟩
    · exact Or.inl ⟨least, most, text, after, form, admissible, rest_eq⟩
    · rw [← rest_eq] at long
      exact Or.inr (Or.inl long)
    · exact Or.inr (Or.inr (Or.inl
        ⟨least, m, text, after, form, m_fits, least_fits, reversed, rest_eq⟩))
  · by_cases long : ∃ offset, LongNumber offset (.ofChar '{' :: rest)
    · exact Or.inr (Or.inl long)
    · refine Or.inr (Or.inr (Or.inr ⟨?_, ?_⟩))
      · intro least most text after form rest_eq
        exact begins ⟨least, most, text, after, form, rest_eq⟩
      · intro offset here
        exact long ⟨offset, here⟩

/-- Whatever bounds are read in braces are those of a form with admissible numbers. -/
theorem exists_form_of_readBounds {b : Bounds}
    (read : readBounds ⟨position, .ofChar '{' :: rest⟩ = .ok (some (b, d))) :
    ∃ least most text, BracesForm least most text ∧ Admissible least most ∧
      b = boundsOf least most ∧ .ofChar '{' :: rest = text ++ d.rest ∧
      d.position = position + text.length := by
  rcases braces_cases rest with ⟨least, most, text, after, form, admissible, rest_eq⟩ |
    ⟨offset, long⟩ | ⟨least, m, text, after, form, m_fits, least_fits, reversed, rest_eq⟩ |
    ⟨no_form, no_long⟩
  · rw [rest_eq, readBounds_of_braces form admissible] at read
    cases read
    exact ⟨least, most, text, form, admissible, rfl, rest_eq, rfl⟩
  · rw [readBounds_of_longNumber long] at read
    contradiction
  · rw [rest_eq, readBounds_of_reversed form m_fits least_fits reversed] at read
    contradiction
  · rw [readBounds_of_neither no_form no_long] at read
    cases read

/-- What is refused in braces: a number that is too long where it starts, and numbers that are
    not in order at the brace. -/
theorem blame_of_readBounds {e : Misreading}
    (refused : readBounds ⟨position, .ofChar '{' :: rest⟩ = .error e) :
    e = .malformed position .boundsReversed ∨ ∃ offset,
      LongNumber offset (.ofChar '{' :: rest) ∧
        e = .malformed (position + offset) .numberTooLarge := by
  rcases braces_cases rest with ⟨least, most, text, after, form, admissible, rest_eq⟩ |
    ⟨offset, long⟩ | ⟨least, m, text, after, form, m_fits, least_fits, reversed, rest_eq⟩ |
    ⟨no_form, no_long⟩
  · rw [rest_eq, readBounds_of_braces form admissible] at refused
    contradiction
  · rw [readBounds_of_longNumber long] at refused
    exact Or.inr ⟨offset, long, (Except.error.inj refused).symm⟩
  · rw [rest_eq, readBounds_of_reversed form m_fits least_fits reversed] at refused
    exact Or.inl (Except.error.inj refused).symm
  · rw [readBounds_of_neither no_form no_long] at refused
    contradiction

/-- A brace that is no quantifier leaves the term before it as it is, and is a literal. -/
theorem literal_of_readBounds_eq_none (opens : c.peek = some '{')
    (none_read : readBounds c = .ok none) :
    (∀ t : Draft, quantify t c = .ok (t, c)) ∧
      readPiece c = .ok (some (.term (.literal (.ofChar '{')), c.next)) := by
  constructor
  · intro t
    unfold quantify
    rw [none_read]
    rfl
  · simp [readPiece, opens, readTerm, bind, Except.bind]

/-- What is read at a brace.

    A quantifier is read exactly where a form with admissible numbers begins: all of the form
    and nothing more, as the numbers it holds. No quantifier is read exactly where no form
    begins and no number on the way is too long; then the brace stays where it is and is read as
    a literal. A number that is too long is a fault in every case, and numbers that fit but are
    not in order are one at the brace. -/
theorem readBounds_open_brace (opens : c.peek = some '{') :
    (∀ b d, readBounds c = .ok (some (b, d)) ↔
      ∃ least most text, BracesForm least most text ∧ Admissible least most ∧
        b = boundsOf least most ∧ c.rest = text ++ d.rest ∧
        d.position = c.position + text.length) ∧
    (readBounds c = .ok none ↔
      (∀ least most text after, BracesForm least most text → c.rest ≠ text ++ after) ∧
        ∀ offset, ¬ LongNumber offset c.rest) ∧
    (readBounds c = .ok none →
      (∀ t : Draft, quantify t c = .ok (t, c)) ∧
        readPiece c = .ok (some (.term (.literal (.ofChar '{')), c.next))) ∧
    (∀ offset, LongNumber offset c.rest →
      readBounds c = .error (.malformed (c.position + offset) .numberTooLarge)) ∧
    (∀ least m text after, BracesForm least (some m) text → c.rest = text ++ after →
      m < UInt32.size → least < UInt32.size → m < least →
      readBounds c = .error (.malformed c.position .boundsReversed)) := by
  obtain ⟨rest, rest_eq⟩ := peek_eq_some_iff.1 opens
  obtain ⟨position, symbols⟩ := c
  obtain rfl : symbols = .ofChar '{' :: rest := rest_eq
  refine ⟨?_, ?_, literal_of_readBounds_eq_none opens, ?_, ?_⟩
  · intro b d
    constructor
    · exact exists_form_of_readBounds
    · rintro ⟨least, most, text, form, admissible, rfl, rest_eq, position_eq⟩
      obtain ⟨stop, after⟩ := d
      simp only at rest_eq position_eq
      rw [rest_eq, position_eq]
      exact readBounds_of_braces form admissible
  · constructor
    · intro none_read
      constructor
      · intro least most text after form rest_eq
        simp only at rest_eq
        rw [rest_eq] at none_read
        exact form.readBounds_ne_none none_read
      · intro offset long
        rw [readBounds_of_longNumber long] at none_read
        cases none_read
    · rintro ⟨no_form, no_long⟩
      exact readBounds_of_neither no_form no_long
  · intro offset long
    exact readBounds_of_longNumber long
  · intro least m text after form rest_eq m_fits least_fits reversed
    simp only at rest_eq
    rw [rest_eq]
    exact readBounds_of_reversed form m_fits least_fits reversed

/-- A least number with leading zeros and no greatest one, and a brace that is a literal because
    of the letter before its end. -/
theorem readBounds_open_brace_leading_zeros :
    let zeros : Cursor := ⟨1, ofChars ['{', '0', '0', '7', ',', '}', 'b']⟩
    let letter : Cursor := ⟨1, ofChars ['{', '2', ',', 'x', '}']⟩
    zeros.peek = some '{' ∧ readBounds zeros = .ok (some (⟨7, none⟩, ⟨7, ofChars ['b']⟩)) ∧
      letter.peek = some '{' ∧
      (∀ least most text after, BracesForm least most text → letter.rest ≠ text ++ after) ∧
      readPiece letter = .ok (some (.term (.literal (.ofChar '{')), letter.next)) := by
  intro zeros letter
  have zeros_opens : zeros.peek = some '{' := by decide
  have letter_opens : letter.peek = some '{' := by decide
  have seven : BracesForm 7 none (ofChars ['{', '0', '0', '7', ',', '}']) :=
    @BracesForm.between ['0', '0', '7'] [] (by simp [AllDigits]) (by simp [AllDigits])
  have admissible : Admissible 7 none := ⟨by decide, nofun⟩
  have zeros_read := ((readBounds_open_brace zeros_opens).1 ⟨7, none⟩ ⟨7, ofChars ['b']⟩).2
    ⟨7, none, _, seven, admissible, rfl, rfl, rfl⟩
  have letter_read : readBounds letter = .ok none := rfl
  have none_begins := (readBounds_open_brace letter_opens).2.1.1 letter_read
  have literal := (readBounds_open_brace letter_opens).2.2.1 letter_read
  exact ⟨zeros_opens, zeros_read, letter_opens, none_begins.1, literal.2⟩

/-- A brace that never closes is no form of a quantifier, and still its number is held to 32
    bits. -/
theorem long_number_in_open_brace :
    let pattern := ofChars ['a', '{', '4', '2', '9', '4', '9', '6', '7', '2', '9', '6']
    let c : Cursor := ⟨1, pattern.tail⟩
    c.peek = some '{' ∧
      (∀ least most text after, BracesForm least most text → c.rest ≠ text ++ after) ∧
      readBounds c = .error (.malformed 2 .numberTooLarge) ∧
      parse .text pattern = .error (.malformed 2 .numberTooLarge) := by
  intro pattern c
  refine ⟨by decide, ?_, rfl, ?_⟩
  · -- every form ends with a closing brace
    intro least most text after form rest_eq
    have closes : .ofChar '}' ∈ text := by
      cases form with
      | exactly _ _ => simp
      | between _ _ => simp
    have closes_here : .ofChar '}' ∈ c.rest := by
      rw [rest_eq]
      exact List.mem_append_left after closes
    exact absurd closes_here (by decide)
  · cbv

end PatternSampler.Notation
