import PatternSampler.Proofs.Notation.Reading

/-! # The forms of quantifiers and openings

  A quantifier and the opening of a group can be written in several ways. `QuantifierForm` and
  `OpeningForm` list them, and each form is shown to be read as what it stands for, up to its
  end:

  - bounds whatever follows them (`readBounds_of_form`), and a whole quantifier unless another
    one follows it (`quantify_of_form`);
  - an opening whatever follows it, but a question mark after a single parenthesis would change
    it (`readPiece_of_form`).

  No quantifier follows where neither a mark nor a brace stands, which is said by `Quiet`.
-/

namespace PatternSampler.Notation

/-- The symbols of some characters. -/
def ofChars (chars : List Char) : List Symbol := chars.map Symbol.ofChar

/-! ## Places -/

namespace Cursor

variable {position : Nat} {s : Symbol} {rest : List Symbol}

@[simp] theorem peek_nil : peek ⟨position, []⟩ = none := rfl

@[simp] theorem peek_cons : peek ⟨position, s :: rest⟩ = Symbol.char? s := rfl

@[simp] theorem next_cons : next ⟨position, s :: rest⟩ = ⟨position + 1, rest⟩ := rfl

@[simp] theorem eat?_nil {ch : Char} : eat? ⟨position, []⟩ ch = none := rfl

@[simp] theorem eat?_cons {ch : Char} :
    eat? ⟨position, s :: rest⟩ ch =
      if Symbol.char? s = some ch then some ⟨position + 1, rest⟩ else none := rfl

theorem peek_ne_of_head?_ne {ch : Char} (ne : rest.head? ≠ some (.ofChar ch)) :
    peek ⟨position, rest⟩ ≠ some ch := by
  intro peeked
  obtain ⟨after, rest_eq⟩ := peek_eq_some_iff.1 peeked
  have rest_eq : rest = .ofChar ch :: after := rest_eq
  exact ne (by rw [rest_eq]; rfl)

/-- The characters that satisfy a condition are taken up to a symbol that does not. -/
theorem takeWhile_append {p : Char → Bool} {chars : List Char}
    (all : ∀ ch ∈ chars, p ch = true)
    (ends : ∀ ch, rest.head?.bind Symbol.char? = some ch → p ch = false) :
    takeWhile p ⟨position, ofChars chars ++ rest⟩ =
      (chars, ⟨position + chars.length, rest⟩) := by
  show takeWhile.go p position (ofChars chars ++ rest) = _
  induction chars generalizing position with
  | nil =>
    cases rest with
    | nil => rfl
    | cons s rest =>
      simp only [ofChars, List.map_nil, List.nil_append, takeWhile.go]
      cases character : Symbol.char? s with
      | none => rfl
      | some ch => simp [ends ch (by simpa using character)]
  | cons ch chars ih =>
    have first : p ch = true := all ch (by simp)
    have others : takeWhile.go p (position + 1) (ofChars chars ++ rest) =
        (chars, ⟨position + 1 + chars.length, rest⟩) :=
      ih fun ch' ch'_mem => all ch' (List.mem_cons_of_mem ch ch'_mem)
    simp only [ofChars, List.map_cons, List.cons_append, takeWhile.go, Symbol.char?_ofChar, first,
      if_true] at others ⊢
    rw [others]
    simp only [List.length_cons]
    congr 2
    omega

end Cursor

variable {position : Nat} {rest : List Symbol}

/-- Two characters that the same symbols start with are equal. -/
theorem eq_of_starts {ch other : Char}
    (starts : (Symbol.ofChar ch :: rest).head? = some (.ofChar other)) : ch = other := by
  have same : Symbol.char? (.ofChar ch) = Symbol.char? (.ofChar other) :=
    congrArg Symbol.char? (Option.some.inj starts)
  simpa only [Symbol.char?_ofChar, Option.some.injEq] using same

/-! ## Numbers -/

/-- Decimal digits of a number, with any number of zeros before them. -/
structure Numeral (n : UInt32) (digits : List Char) : Prop where
  /-- There is a digit. -/
  not_empty : digits ≠ []
  /-- There is nothing else. -/
  all_digits : ∀ ch ∈ digits, ch.isDigit = true
  /-- The digits have the number as their value. -/
  value : Nat.ofDigitChars 10 digits 0 = n.toNat

/-- Decimal digits of a number that may be left out. -/
inductive NumeralOrNone : Option UInt32 → List Char → Prop where
  /-- No number and no digits. -/
  | absent : NumeralOrNone none []
  /-- The digits of a number. -/
  | present {n : UInt32} {digits : List Char} (numeral : Numeral n digits) :
      NumeralOrNone (some n) digits

theorem decimal_eq_ofDigitChars (digits : List Char) :
    decimal digits = Nat.ofDigitChars 10 digits 0 := by
  rw [Nat.ofDigitChars_eq_foldl]
  simp only [decimal, Nat.mul_comm]

theorem numeral_toDigits (n : UInt32) : Numeral n (Nat.toDigits 10 n.toNat) where
  not_empty := Nat.toDigits_ne_nil
  all_digits _ ch_mem := Nat.isDigit_of_mem_toDigits (by decide) (by decide) ch_mem
  value := Nat.ofDigitChars_ten_toDigits

/-- Where no digit stands no number is read. -/
theorem readNumber_of_not_digit
    (ends : ∀ ch, rest.head?.bind Symbol.char? = some ch → ch.isDigit = false) :
    readNumber ⟨position, rest⟩ = .ok (none, ⟨position, rest⟩) := by
  have taken : Cursor.takeWhile Char.isDigit ⟨position, ofChars [] ++ rest⟩ = _ :=
    Cursor.takeWhile_append (fun _ => nofun) ends
  unfold readNumber
  rw [show rest = ofChars [] ++ rest from rfl, taken]

theorem readNumber_of_numeral {n : UInt32} {digits : List Char} (numeral : Numeral n digits)
    (ends : ∀ ch, rest.head?.bind Symbol.char? = some ch → ch.isDigit = false) :
    readNumber ⟨position, ofChars digits ++ rest⟩ =
      .ok (some n, ⟨position + digits.length, rest⟩) := by
  have value : decimal digits = n.toNat := by
    rw [decimal_eq_ofDigitChars, numeral.value]
  unfold readNumber
  rw [Cursor.takeWhile_append numeral.all_digits ends]
  split
  · rename_i no_digits
    exact absurd (Prod.mk.inj no_digits).1 numeral.not_empty
  · rename_i eq
    cases eq
    rw [value, if_pos n.toNat_lt, UInt32.ofNat_toNat]

theorem readNumber_of_numeralOrNone {n : Option UInt32} {digits : List Char}
    (numeral : NumeralOrNone n digits)
    (ends : ∀ ch, rest.head?.bind Symbol.char? = some ch → ch.isDigit = false) :
    readNumber ⟨position, ofChars digits ++ rest⟩ =
      .ok (n, ⟨position + digits.length, rest⟩) := by
  cases numeral with
  | absent => exact readNumber_of_not_digit ends
  | present numeral => exact readNumber_of_numeral numeral ends

/-! ## Quantifiers -/

/-- The ways to write bounds. -/
inductive QuantifierForm : Bounds → List Symbol → Prop where
  /-- The mark `*`: any number of times. -/
  | star : QuantifierForm ⟨0, none⟩ (ofChars ['*'])
  /-- The mark `+`: at least once. -/
  | plus : QuantifierForm ⟨1, none⟩ (ofChars ['+'])
  /-- The mark `?`: at most once. -/
  | question : QuantifierForm ⟨0, some 1⟩ (ofChars ['?'])
  /-- One number in braces is both bounds. -/
  | exactly {n : UInt32} {digits : List Char} (numeral : Numeral n digits) :
      QuantifierForm ⟨n, some n⟩ (.ofChar '{' :: (ofChars digits ++ [.ofChar '}']))
  /-- A comma in braces, with the bounds before it and after it. The least number is zero if it
      is left out. -/
  | between {least most : Option UInt32} {lower upper : List Char}
      (lower_numeral : NumeralOrNone least lower) (upper_numeral : NumeralOrNone most upper) :
      QuantifierForm ⟨least.getD 0, most⟩
        (.ofChar '{' :: (ofChars lower ++ .ofChar ',' :: (ofChars upper ++ [.ofChar '}'])))

theorem closeBraces_of_consistent {opened : Nat} {b : Bounds} (consistent : b.Consistent) :
    closeBraces opened b ⟨position, .ofChar '}' :: rest⟩ =
      .ok (some (b, ⟨position + 1, rest⟩)) := by
  simp [closeBraces, consistent]

theorem readBraces_exactly {n : UInt32} {digits : List Char} (numeral : Numeral n digits) :
    readBraces ⟨position, .ofChar '{' :: (ofChars digits ++ .ofChar '}' :: rest)⟩ =
      .ok (some (⟨n, some n⟩, ⟨position + (digits.length + 2), rest⟩)) := by
  have consistent : Bounds.Consistent ⟨n, some n⟩ := by
    simp [Bounds.Consistent]
  have no_comma : Cursor.eat? ⟨position + 1 + digits.length, .ofChar '}' :: rest⟩ ',' = none := by
    simp
  unfold readBraces
  rw [Cursor.next_cons, readNumber_of_numeral numeral (by simp)]
  simp only [bind, Except.bind, no_comma]
  rw [closeBraces_of_consistent consistent]
  congr 4
  omega

/-- With a comma, either number may be left out. -/
theorem readBraces_between {least most : Option UInt32} {lower upper : List Char}
    (lower_numeral : NumeralOrNone least lower) (upper_numeral : NumeralOrNone most upper)
    (consistent : Bounds.Consistent ⟨least.getD 0, most⟩) :
    readBraces ⟨position,
        .ofChar '{' :: (ofChars lower ++ .ofChar ',' :: (ofChars upper ++ .ofChar '}' :: rest))⟩ =
      .ok (some (⟨least.getD 0, most⟩,
        ⟨position + (lower.length + upper.length + 3), rest⟩)) := by
  unfold readBraces
  rw [Cursor.next_cons, readNumber_of_numeralOrNone lower_numeral (by simp)]
  simp only [bind, Except.bind, Cursor.eat?_cons, Symbol.char?_ofChar, if_true]
  rw [readNumber_of_numeralOrNone upper_numeral (by simp)]
  simp only
  rw [closeBraces_of_consistent consistent]
  congr 4
  omega

/-- Consistent bounds are read from each of their forms, whatever follows. -/
theorem readBounds_of_form {b : Bounds} {text : List Symbol} (form : QuantifierForm b text)
    (consistent : b.Consistent) :
    readBounds ⟨position, text ++ rest⟩ =
      .ok (some (b, ⟨position + text.length, rest⟩)) := by
  cases form with
  | star | plus | question => simp [readBounds, ofChars]
  | exactly numeral =>
    have braces := @readBraces_exactly position rest _ _ numeral
    simpa [readBounds, ofChars] using braces
  | between lower_numeral upper_numeral =>
    have braces := @readBraces_between position rest _ _ _ _ lower_numeral upper_numeral consistent
    simpa [readBounds, ofChars, Nat.add_assoc, Nat.add_left_comm] using braces

/-- No quantifier starts here: neither a mark nor a brace stands here. -/
def Quiet (rest : List Symbol) : Prop :=
  ∀ ch ∈ ['*', '+', '?', '{'], rest.head? ≠ some (.ofChar ch)

theorem Quiet.peek_ne (quiet : Quiet rest) {ch : Char} (mark : ch ∈ ['*', '+', '?', '{']) :
    Cursor.peek ⟨position, rest⟩ ≠ some ch :=
  Cursor.peek_ne_of_head?_ne (quiet ch mark)

theorem quiet_nil : Quiet [] := fun _ _ => nofun

theorem readBounds_of_quiet (quiet : Quiet rest) :
    readBounds ⟨position, rest⟩ = .ok none := by
  unfold readBounds
  split
  · exact absurd ‹_› (quiet.peek_ne (by simp))
  · exact absurd ‹_› (quiet.peek_ne (by simp))
  · exact absurd ‹_› (quiet.peek_ne (by simp))
  · exact absurd ‹_› (quiet.peek_ne (by simp))
  · rfl

theorem startsQuantifier_of_quiet (quiet : Quiet rest) :
    startsQuantifier ⟨position, rest⟩ = false := by
  unfold startsQuantifier
  rw [readBounds_of_quiet quiet]

theorem quantify_of_quiet {β : Type} {t : Tree β} (quiet : Quiet rest) :
    quantify t ⟨position, rest⟩ = .ok (t, ⟨position, rest⟩) := by
  unfold quantify
  rw [readBounds_of_quiet quiet]
  rfl

/-- The lazy mark of a quantifier that is not greedy. -/
def writeGreediness (greedy : Bool) : List Symbol := if greedy then [] else [.ofChar '?']

/-- The lazy mark is read back, unless another question mark stands where there is none. -/
theorem readGreediness_writeGreediness (greedy : Bool)
    (no_mark : greedy = true → rest.head? ≠ some (.ofChar '?')) :
    readGreediness ⟨position, writeGreediness greedy ++ rest⟩ =
      (greedy, ⟨position + (writeGreediness greedy).length, rest⟩) := by
  cases greedy with
  | true =>
    have not_eaten : Cursor.eat? ⟨position, rest⟩ '?' = none :=
      if_neg (Cursor.peek_ne_of_head?_ne (no_mark rfl))
    simp [readGreediness, writeGreediness, not_eaten]
  | false => simp [readGreediness, writeGreediness]

/-- A question mark is a quantifier. -/
theorem head?_ne_of_startsQuantifier (alone : startsQuantifier ⟨position, rest⟩ = false) :
    rest.head? ≠ some (.ofChar '?') := by
  intro mark
  obtain ⟨after, rfl⟩ := List.head?_eq_some_iff.1 mark
  have starts : startsQuantifier ⟨position, .ofChar '?' :: after⟩ = true := by
    simp [startsQuantifier, readBounds]
  rw [alone] at starts
  cases starts

/-- A term is repeated by a quantifier after it, if no other one follows. -/
theorem quantify_of_form {β : Type} {t : Tree β} {b : Bounds} {text : List Symbol}
    (form : QuantifierForm b text) (greedy : Bool) (can_repeat : repeatable t = true)
    (consistent : b.Consistent)
    (alone : startsQuantifier ⟨position + (text.length + (writeGreediness greedy).length), rest⟩ =
      false) :
    quantify t ⟨position, text ++ (writeGreediness greedy ++ rest)⟩ =
      .ok (.repetition t b greedy,
        ⟨position + (text.length + (writeGreediness greedy).length), rest⟩) := by
  unfold quantify
  rw [readBounds_of_form form consistent]
  simp only [bind, Except.bind, can_repeat, if_true]
  rw [readGreediness_writeGreediness greedy fun _ => head?_ne_of_startsQuantifier alone,
    Nat.add_assoc]
  simp only [alone, Bool.false_eq_true, if_false]

/-! ## Groups -/

theorem isNameChar_of {ch : Char} (h : ch.isAlphanum = true ∨ ch = '_') : isNameChar ch = true := by
  simpa [isNameChar] using h

theorem not_isDigit_of_first {first : Char} (h : first.isAlpha = true ∨ first = '_') :
    first.isDigit = false := by
  rcases h with letter | rfl
  · refine Bool.eq_false_iff.2 fun digit => ?_
    have letter_bounds := isAlpha_iff.1 letter
    have digit_bounds := isDigit_iff.1 digit
    omega
  · decide

/-- A valid name is read back up to the `>` that closes it. -/
theorem readName_ofChars {name : String} (valid : ValidName name) :
    readName ⟨position, ofChars name.toList ++ .ofChar '>' :: rest⟩ =
      .ok (name, ⟨position + name.length + 1, rest⟩) := by
  obtain ⟨first, others, name_eq, first_valid, others_valid⟩ := valid
  have no_digit := not_isDigit_of_first first_valid
  have all : ∀ ch ∈ name.toList, isNameChar ch = true := by
    intro ch ch_mem
    rw [name_eq] at ch_mem
    rcases List.mem_cons.1 ch_mem with rfl | ch_mem
    · rcases first_valid with letter | underscore
      · exact isNameChar_of (Or.inl (by simp [Char.isAlphanum, letter]))
      · exact isNameChar_of (Or.inr underscore)
    · exact isNameChar_of (others_valid ch ch_mem)
  have ends : ∀ ch, (Symbol.ofChar '>' :: rest).head?.bind Symbol.char? = some ch →
      isNameChar ch = false := by
    intro ch starts
    have same : ch = '>' := by simpa using starts.symm
    rw [same]
    decide
  unfold readName
  rw [Cursor.takeWhile_append all ends]
  simp only [name_eq, List.head?_cons, Option.any_some, no_digit, Bool.false_eq_true, if_false,
    Cursor.peek_cons, Symbol.char?_ofChar, List.isEmpty_cons, Cursor.next_cons]
  rw [← name_eq, String.ofList_toList, String.length_toList]

/-- The ways to write the opening of a group. -/
inductive OpeningForm : Opening → List Symbol → Prop where
  /-- A parenthesis alone, `(`, captures. -/
  | capturing : OpeningForm (.group true none) (ofChars ['('])
  /-- A colon, as in `(?:`, keeps the group from capturing. -/
  | plain : OpeningForm (.group false none) (ofChars ['(', '?', ':'])
  /-- A name may be given as `(?P<name>`. -/
  | named {name : String} (valid : ValidName name) : OpeningForm (.group true (some name))
      (ofChars ['(', '?', 'P', '<'] ++ (ofChars name.toList ++ [.ofChar '>']))
  /-- The same name may be given as `(?<name>`. -/
  | namedShortly {name : String} (valid : ValidName name) : OpeningForm (.group true (some name))
      (ofChars ['(', '?', '<'] ++ (ofChars name.toList ++ [.ofChar '>']))
  /-- A lookahead opens with `(?=`. -/
  | ahead : OpeningForm (.look .ahead false) (ofChars ['(', '?', '='])
  /-- A negative lookahead opens with `(?!`. -/
  | notAhead : OpeningForm (.look .ahead true) (ofChars ['(', '?', '!'])
  /-- A lookbehind opens with `(?<=`. -/
  | behind : OpeningForm (.look .behind false) (ofChars ['(', '?', '<', '='])
  /-- A negative lookbehind opens with `(?<!`. -/
  | notBehind : OpeningForm (.look .behind true) (ofChars ['(', '?', '<', '!'])

theorem readNamed_ofChars {name : String} (valid : ValidName name) :
    readNamed ⟨position, ofChars name.toList ++ .ofChar '>' :: rest⟩ =
      .ok (.group true (some name), ⟨position + (name.length + 1), rest⟩) := by
  simp [readNamed, readName_ofChars valid, bind, Except.bind, Nat.add_assoc]

/-- A name right after `(?<` starts like no lookbehind and like no reference by number. -/
theorem readExtension_ofChars {opened : Nat} {name : String} (valid : ValidName name) :
    readExtension opened
        ⟨position, .ofChar '<' :: (ofChars name.toList ++ .ofChar '>' :: rest)⟩ =
      .ok (.group true (some name), ⟨position + (name.length + 2), rest⟩) := by
  have named := @readNamed_ofChars (position + 1) rest name valid
  obtain ⟨first, others, name_eq, first_valid, -⟩ := valid
  have not_digit := not_isDigit_of_first first_valid
  -- the two characters that would open a lookbehind instead
  have not_equals : first ≠ '=' := by
    rintro rfl
    exact absurd first_valid (by decide)
  have not_mark : first ≠ '!' := by
    rintro rfl
    exact absurd first_valid (by decide)
  have starts : Cursor.peek ⟨position + 1, ofChars name.toList ++ .ofChar '>' :: rest⟩ =
      some first := by
    simp [name_eq, ofChars]
  unfold readExtension
  simp only [Cursor.peek_cons, Symbol.char?_ofChar, Cursor.next_cons, starts, not_digit,
    Bool.false_eq_true, if_false]
  rw [named]
  congr 3
  omega

/-- An opening is read from each of its forms. Only after a single parenthesis the body must not
    begin with a question mark. -/
theorem readOpening_of_form {o : Opening} {text : List Symbol} (form : OpeningForm o text)
    (no_mark : text = ofChars ['('] → rest.head? ≠ some (.ofChar '?')) :
    readOpening ⟨position, text ++ rest⟩ = .ok (o, ⟨position + text.length, rest⟩) := by
  cases form with
  | capturing =>
    have no_extension : Cursor.eat? ⟨position + 1, rest⟩ '?' = none :=
      if_neg (Cursor.peek_ne_of_head?_ne (no_mark rfl))
    simp [readOpening, ofChars, no_extension]
  | plain | ahead | notAhead | behind | notBehind => simp [readOpening, readExtension, ofChars]
  | @named name valid =>
    have named := @readNamed_ofChars (position + 4) rest name valid
    have length_eq : position + 4 + (name.length + 1) = position + (name.toList.length + 5) := by
      rw [String.length_toList]
      omega
    rw [length_eq] at named
    simpa [readOpening, readExtension, ofChars] using named
  | @namedShortly name valid =>
    have extension := @readExtension_ofChars (position + 2) rest position name valid
    have length_eq : position + 2 + (name.length + 2) = position + (name.toList.length + 4) := by
      rw [String.length_toList]
      omega
    rw [length_eq] at extension
    simpa [readOpening, ofChars] using extension

theorem readPiece_closing : readPiece ⟨position, .ofChar ')' :: rest⟩ =
    .ok (some (.closing, ⟨position + 1, rest⟩)) := by
  simp [readPiece]

theorem readPiece_bar : readPiece ⟨position, .ofChar '|' :: rest⟩ =
    .ok (some (.bar, ⟨position + 1, rest⟩)) := by
  simp [readPiece]

theorem readPiece_of_form {o : Opening} {text : List Symbol} (form : OpeningForm o text)
    (no_mark : text = ofChars ['('] → rest.head? ≠ some (.ofChar '?')) :
    readPiece ⟨position, text ++ rest⟩ =
      .ok (some (.opening o, ⟨position + text.length, rest⟩)) := by
  have opens : Cursor.peek ⟨position, text ++ rest⟩ = some '(' := by
    cases form <;> simp [ofChars]
  unfold readPiece
  rw [opens]
  simp [readOpening_of_form form no_mark, bind, Except.bind]

end PatternSampler.Notation
