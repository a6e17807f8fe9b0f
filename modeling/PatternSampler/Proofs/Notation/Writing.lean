import PatternSampler.Proofs.Notation.Forms

/-! # Writing drafts

  A way to write drafts down that the reader reads back. It always uses the same forms: every
  symbol that could mean something is escaped, a quantifier always has braces, and an item of
  a bracket that is no shorthand is a range.

  One lemma for each part of the notation says that reading it gives it back and ends right
  after it, whatever follows; where that depends on what follows, the lemma says how. Whole
  drafts are put together from these in the next module.
-/

namespace PatternSampler.Notation

/-! ## The written form -/

/-- A symbol that stands for itself, after a backslash if it could mean something else. -/
def writeSymbol (s : Symbol) : List Symbol :=
  if (Symbol.char? s).any standsForItself then [.ofChar '\\', s] else [s]

/-- The letter of a shorthand. -/
def shorthandLetter : Shorthand → Char
  | ⟨.digit, false⟩ => 'd'
  | ⟨.digit, true⟩ => 'D'
  | ⟨.word, false⟩ => 'w'
  | ⟨.word, true⟩ => 'W'
  | ⟨.space, false⟩ => 's'
  | ⟨.space, true⟩ => 'S'

/-- A shorthand. -/
def writeShorthand (kind : Shorthand) : List Symbol := ofChars ['\\', shorthandLetter kind]

/-- An item of a bracket. -/
def writeItem : BracketItem → List Symbol
  | .range low high => writeSymbol low ++ .ofChar '-' :: writeSymbol high
  | .shorthand kind => writeShorthand kind

/-- A bracket. -/
def writeBracket (items : List BracketItem) (negated : Bool) : List Symbol :=
  .ofChar '[' :: ((if negated then [.ofChar '^'] else []) ++
    (items.flatMap writeItem ++ [.ofChar ']']))

/-- A number in decimal digits. -/
def writeNumber (n : UInt32) : List Symbol := ofChars (Nat.toDigits 10 n.toNat)

/-- A number that may be left out. -/
def writeNumber? : Option UInt32 → List Symbol
  | some n => writeNumber n
  | none => []

/-- Bounds in braces, with the comma even where both are the same. -/
def writeBounds (b : Bounds) : List Symbol :=
  .ofChar '{' :: (writeNumber b.least ++ .ofChar ',' :: (writeNumber? b.most ++ [.ofChar '}']))

/-- A quantifier. -/
def writeQuantifier (b : Bounds) (greedy : Bool) : List Symbol :=
  writeBounds b ++ writeGreediness greedy

/-- The opening of a group. -/
def writeOpening : Opening → List Symbol
  | .group true none => ofChars ['(']
  | .group false none => ofChars ['(', '?', ':']
  | .group _ (some name) => ofChars ['(', '?', 'P', '<'] ++ (ofChars name.toList ++ [.ofChar '>'])
  | .look .ahead false => ofChars ['(', '?', '=']
  | .look .ahead true => ofChars ['(', '?', '!']
  | .look .behind false => ofChars ['(', '?', '<', '=']
  | .look .behind true => ofChars ['(', '?', '<', '!']

/-- An anchor. -/
def writeAnchor : Anchor → List Symbol
  | .start => ofChars ['^']
  | .finish => ofChars ['$']

mutual

/-- A draft as a pattern. -/
def write : Draft → List Symbol
  | .literal s => writeSymbol s
  | .wildcard => ofChars ['.']
  | .bracket items negated => writeBracket items negated
  | .shorthand kind => writeShorthand kind
  | .concat terms => writeAll terms
  | .alternation branches => writeBranches branches
  | .group body capturing name =>
    writeOpening (.group capturing name) ++ (write body ++ [.ofChar ')'])
  | .repetition body bounds greedy => write body ++ writeQuantifier bounds greedy
  | .look side body negative =>
    writeOpening (.look side negative) ++ (write body ++ [.ofChar ')'])
  | .anchor a => writeAnchor a

/-- Drafts one after the other. -/
def writeAll : List Draft → List Symbol
  | [] => []
  | d :: ds => write d ++ writeAll ds

/-- Drafts with bars between them. -/
def writeBranches : List Draft → List Symbol
  | [] => []
  | [d] => write d
  | d :: ds => write d ++ .ofChar '|' :: writeBranches ds

end

/-- What a node needs to be read back: the form of a normal tree, characters for literals, and
    brackets whose ranges are in order and that are not empty. -/
def WritableNode : Draft → Prop :=
  Tree.NormalNode (fun s => (Symbol.char? s).isSome)
    (fun items => items ≠ [] ∧ ∀ low high, .range low high ∈ items → low ≤ high)

theorem writeBranches_cons_cons (d e : Draft) (ds : List Draft) :
    writeBranches (d :: e :: ds) = write d ++ .ofChar '|' :: writeBranches (e :: ds) := by
  rw [writeBranches]
  simp

variable {position : Nat} {rest : List Symbol}

/-! ## Quantifiers -/

theorem numeralOrNone_writeNumber? (n : Option UInt32) :
    ∃ digits, NumeralOrNone n digits ∧ writeNumber? n = ofChars digits := by
  cases n with
  | none => exact ⟨[], .absent, rfl⟩
  | some n => exact ⟨_, .present (numeral_toDigits n), rfl⟩

/-- Bounds are written in one of their forms. -/
theorem form_writeBounds (b : Bounds) : QuantifierForm b (writeBounds b) := by
  obtain ⟨upper, upper_numeral, upper_eq⟩ := numeralOrNone_writeNumber? b.most
  unfold writeBounds
  rw [upper_eq]
  show QuantifierForm ⟨(some b.least).getD 0, b.most⟩ _
  exact .between (.present (numeral_toDigits b.least)) upper_numeral

/-- A quantifier is read back, if no other one follows it. -/
theorem quantify_writeQuantifier {β : Type} {t : Tree β} {b : Bounds} (greedy : Bool)
    (can_repeat : repeatable t = true) (consistent : b.Consistent) (quiet : Quiet rest) :
    quantify t ⟨position, writeQuantifier b greedy ++ rest⟩ =
      .ok (.repetition t b greedy,
        ⟨position + (writeQuantifier b greedy).length, rest⟩) := by
  unfold writeQuantifier
  rw [List.append_assoc, List.length_append]
  exact quantify_of_form (form_writeBounds b) greedy can_repeat consistent
    (startsQuantifier_of_quiet quiet)

/-! ## Symbols and brackets -/

/-- An escaped symbol stands for itself. No character that stands for itself is the letter of
    a shorthand. -/
theorem escape_of_standsForItself {s : Symbol} {ch : Char} (character : Symbol.char? s = some ch)
    (stands : standsForItself ch = true) : Escape.of s = .symbol s := by
  have no_shorthand : Shorthand.ofLetter? s = none := by
    unfold Shorthand.ofLetter?
    rw [character]
    split
    all_goals first
      | rfl
      | (rename_i eq; cases eq; exact absurd stands (by decide))
  unfold Escape.of
  simp [no_shorthand, character, stands]

theorem ofLetter?_shorthandLetter (kind : Shorthand) :
    Shorthand.ofLetter? (.ofChar (shorthandLetter kind)) = some kind := by
  obtain ⟨c, negated⟩ := kind
  cases c <;> cases negated <;> simp [shorthandLetter, Shorthand.ofLetter?]

theorem readEscape_backslash {s : Symbol} :
    readEscape ⟨position, .ofChar '\\' :: s :: rest⟩ = .ok (.of s, ⟨position + 2, rest⟩) := rfl

theorem escape_of_shorthandLetter (kind : Shorthand) :
    Escape.of (.ofChar (shorthandLetter kind)) = .shorthand kind := by
  simp [Escape.of, ofLetter?_shorthandLetter]

/-- A symbol is read back in a bracket, whether it is escaped or not. -/
theorem readBracketAtom_writeSymbol (s : Symbol) :
    readBracketAtom ⟨position, writeSymbol s ++ rest⟩ =
      .ok (.symbol s, ⟨position + (writeSymbol s).length, rest⟩) := by
  unfold writeSymbol
  by_cases escaped : (Symbol.char? s).any standsForItself
  · obtain ⟨ch, character, stands⟩ := (Option.any_eq_true _ _).1 escaped
    simp [escaped, readBracketAtom, readEscape_backslash,
      escape_of_standsForItself character stands, bind, Except.bind]
  · have no_backslash : Symbol.char? s ≠ some '\\' := by
      intro character
      rw [character] at escaped
      exact escaped (by decide)
    simp [escaped, readBracketAtom, no_backslash]

theorem readBracketAtom_writeShorthand (kind : Shorthand) :
    readBracketAtom ⟨position, writeShorthand kind ++ rest⟩ =
      .ok (.shorthand kind, ⟨position + 2, rest⟩) := by
  simp [writeShorthand, ofChars, readBracketAtom, readEscape_backslash,
    escape_of_shorthandLetter, bind, Except.bind]

/-- What is written for a symbol starts with a backslash or with a character that has no
    meaning. -/
theorem head?_writeSymbol_ne {s : Symbol} {ch : Char} (stands : standsForItself ch = true)
    (no_backslash : ch ≠ '\\') : (writeSymbol s ++ rest).head? ≠ some (.ofChar ch) := by
  unfold writeSymbol
  split
  · intro starts
    exact no_backslash (eq_of_starts starts).symm
  · rename_i unescaped
    intro starts
    have symbol_eq : s = .ofChar ch := Option.some.inj starts
    rw [symbol_eq, Symbol.char?_ofChar] at unescaped
    exact unescaped stands

theorem head?_writeItem_ne {item : BracketItem} {ch : Char} (stands : standsForItself ch = true)
    (no_backslash : ch ≠ '\\') : (writeItem item ++ rest).head? ≠ some (.ofChar ch) := by
  cases item with
  | range low high =>
    simp only [writeItem, List.append_assoc]
    exact head?_writeSymbol_ne stands no_backslash
  | shorthand kind =>
    intro starts
    exact no_backslash (eq_of_starts starts).symm

/-- A dash joins two symbols when the second one follows it as it is written. -/
theorem dashJoins_writeSymbol {s : Symbol} :
    dashJoins ⟨position, .ofChar '-' :: (writeSymbol s ++ rest)⟩ = true := by
  have not_closing : Cursor.peek ⟨position + 1, writeSymbol s ++ rest⟩ ≠ some ']' :=
    Cursor.peek_ne_of_head?_ne (head?_writeSymbol_ne (by decide) (by decide))
  have not_empty : writeSymbol s ≠ [] := by
    unfold writeSymbol
    split <;> simp
  simp [dashJoins, not_closing, not_empty]

/-- An item is read back, if no dash follows it. -/
theorem readBracketItem_writeItem {item : BracketItem}
    (in_order : ∀ low high, item = .range low high → low ≤ high)
    (no_dash : rest.head? ≠ some (.ofChar '-')) :
    readBracketItem ⟨position, writeItem item ++ rest⟩ =
      .ok (item, ⟨position + (writeItem item).length, rest⟩) := by
  cases item with
  | range low high =>
    unfold readBracketItem writeItem
    simp only [List.append_assoc, List.cons_append]
    rw [readBracketAtom_writeSymbol low]
    simp only [bind, Except.bind, dashJoins_writeSymbol, if_true, Cursor.next_cons]
    rw [readBracketAtom_writeSymbol high]
    simp only [in_order low high rfl, if_true, List.length_append, List.length_cons]
    congr 3
    omega
  | shorthand kind =>
    have joins_nothing : ∀ p, dashJoins ⟨p, rest⟩ = false := by
      intro p
      have no_dash : Cursor.peek ⟨p, rest⟩ ≠ some '-' := Cursor.peek_ne_of_head?_ne no_dash
      simp [dashJoins, no_dash]
    unfold readBracketItem writeItem
    rw [readBracketAtom_writeShorthand kind]
    simp only [bind, Except.bind, joins_nothing, Bool.false_eq_true, if_false]
    rfl

/-- One item is read, then the others. -/
theorem readBracketItems_cons {opened : Nat} {atStart : Bool} {c stop closed : Cursor}
    {item : BracketItem} {items : List BracketItem} (stays : atStart = true ∨ c.peek ≠ some ']')
    (first : readBracketItem c = .ok (item, stop))
    (others : readBracketItems opened false stop = .ok (items, closed)) :
    readBracketItems opened atStart c = .ok (item :: items, closed) := by
  have shorter := remaining_lt_of_readBracketItem first
  have not_empty : ¬ c.rest.isEmpty = true := by
    intro empty
    rw [Cursor.remaining, Cursor.remaining, List.isEmpty_iff.1 empty] at shorter
    cases shorter
  have not_closed : ¬ (!atStart && decide (c.peek = some ']')) = true := by
    rcases stays with at_start | not_closing
    · simp [at_start]
    · simp [not_closing]
  unfold readBracketItems
  rw [if_neg not_empty, if_neg not_closed]
  split
  · rename_i failed
    rw [first] at failed
    cases failed
  · rename_i first'
    rw [first] at first'
    cases first'
    rw [others]

/-- The items of a bracket are read back up to its end. -/
theorem readBracketItems_writeItem {opened : Nat} {atStart : Bool} {items : List BracketItem}
    (not_empty : atStart = true → items ≠ [])
    (in_order : ∀ low high, .range low high ∈ items → low ≤ high) :
    readBracketItems opened atStart
        ⟨position, items.flatMap writeItem ++ .ofChar ']' :: rest⟩ =
      .ok (items, ⟨position + (items.flatMap writeItem).length + 1, rest⟩) := by
  induction items generalizing atStart position with
  | nil =>
    have not_at_start : atStart = false := by
      cases atStart with
      | true => exact absurd rfl (not_empty rfl)
      | false => rfl
    unfold readBracketItems
    simp [not_at_start]
  | cons item items ih =>
    have others : readBracketItems opened false ⟨position + (writeItem item).length,
        items.flatMap writeItem ++ .ofChar ']' :: rest⟩ = _ :=
      ih nofun fun low high mem => in_order low high (List.mem_cons_of_mem item mem)
    have item_in_order : ∀ low high, item = .range low high → low ≤ high := by
      intro low high item_eq
      exact in_order low high (by simp [item_eq])
    -- what is written after an item is another item or the closing bracket, never a dash
    have no_dash : (items.flatMap writeItem ++ .ofChar ']' :: rest).head? ≠
        some (.ofChar '-') := by
      cases items with
      | nil => simp [Symbol.ofChar]
      | cons next items =>
        rw [List.flatMap_cons, List.append_assoc]
        exact head?_writeItem_ne (by decide) (by decide)
    have not_closing : Cursor.peek ⟨position, writeItem item ++ (items.flatMap writeItem ++
        .ofChar ']' :: rest)⟩ ≠ some ']' :=
      Cursor.peek_ne_of_head?_ne (head?_writeItem_ne (by decide) (by decide))
    rw [List.flatMap_cons, List.append_assoc, List.length_append, ← Nat.add_assoc]
    exact readBracketItems_cons (Or.inr not_closing)
      (readBracketItem_writeItem item_in_order no_dash) others

/-- A bracket with an item is read back. -/
theorem readBracket_writeBracket {items : List BracketItem} {negated : Bool}
    (not_empty : items ≠ []) (in_order : ∀ low high, .range low high ∈ items → low ≤ high) :
    readBracket ⟨position, writeBracket items negated ++ rest⟩ =
      .ok (items, negated, ⟨position + (writeBracket items negated).length, rest⟩) := by
  unfold readBracket writeBracket
  simp only [List.cons_append, List.append_assoc, List.nil_append, Cursor.next_cons]
  cases negated with
  | true =>
    simp only [if_true, List.cons_append, List.nil_append, Cursor.eat?_cons, Symbol.char?_ofChar]
    rw [readBracketItems_writeItem (fun _ => not_empty) in_order]
    simp only [bind, Except.bind, List.length_cons, List.length_append, List.length_nil]
    congr 4
    omega
  | false =>
    -- the mark of a negated bracket would be escaped in an item
    have no_mark : Cursor.eat? ⟨position + 1, items.flatMap writeItem ++ .ofChar ']' :: rest⟩
        '^' = none := by
      refine if_neg (Cursor.peek_ne_of_head?_ne ?_)
      cases items with
      | nil => exact absurd rfl not_empty
      | cons item items =>
        rw [List.flatMap_cons, List.append_assoc]
        exact head?_writeItem_ne (by decide) (by decide)
    simp only [Bool.false_eq_true, if_false, List.nil_append, no_mark]
    rw [readBracketItems_writeItem (fun _ => not_empty) in_order]
    simp only [bind, Except.bind, List.length_cons, List.length_append, List.length_nil]
    congr 4
    omega
/-! ## Groups -/

/-- An opening in order is written in one of its forms. -/
theorem form_writeOpening {o : Opening} (valid : o.Valid) : OpeningForm o (writeOpening o) := by
  cases o with
  | group capturing name =>
    cases name with
    | some name =>
      obtain ⟨rfl, name_valid⟩ := valid name rfl
      exact .named name_valid
    | none =>
      cases capturing with
      | true => exact .capturing
      | false => exact .plain
  | look side negative =>
    cases side with
    | ahead =>
      cases negative with
      | true => exact .notAhead
      | false => exact .ahead
    | behind =>
      cases negative with
      | true => exact .notBehind
      | false => exact .behind

/-! ## Terms -/

/-- A character without meaning is none of those that the reader looks for. -/
theorem readPiece_plain {ch : Char} (plain : ¬ standsForItself ch = true) :
    readPiece ⟨position, .ofChar ch :: rest⟩ =
      .ok (some (.term (.literal (.ofChar ch)), ⟨position + 1, rest⟩)) := by
  have term : readTerm ch ⟨position, .ofChar ch :: rest⟩ =
      .ok (.literal (.ofChar ch), ⟨position + 1, rest⟩) := by
    unfold readTerm
    split
    all_goals first
      | rfl
      | exact absurd (by decide) plain
  unfold readPiece
  rw [Cursor.peek_cons, Symbol.char?_ofChar]
  split
  all_goals
    rename_i eq
    cases eq
  · exact absurd (by decide) plain
  · exact absurd (by decide) plain
  · exact absurd (by decide) plain
  · simp [term, bind, Except.bind]

/-- A leaf in the form of normal trees is read back as one piece, whatever follows. -/
theorem readPiece_write_leaf {t : Draft} (leaf : t.IsLeaf)
    (normal : WritableNode t) :
    readPiece ⟨position, write t ++ rest⟩ =
      .ok (some (.term t, ⟨position + (write t).length, rest⟩)) := by
  cases t with
  | concat _ | alternation _ | group _ _ _ | repetition _ _ _ | look _ _ _ => cases leaf
  | wildcard => simp [write, ofChars, readPiece, readTerm, bind, Except.bind]
  | anchor a =>
    cases a <;> simp [write, writeAnchor, ofChars, readPiece, readTerm, bind, Except.bind]
  | shorthand kind =>
    simp [write, writeShorthand, ofChars, readPiece, readTerm, readEscapedTerm,
      readEscape_backslash, escape_of_shorthandLetter, bind, Except.bind]
  | bracket items negated =>
    obtain ⟨not_empty, in_order⟩ := normal
    have read : readBracket ⟨position, writeBracket items negated ++ rest⟩ = _ :=
      readBracket_writeBracket not_empty in_order
    have opens : Cursor.peek ⟨position, writeBracket items negated ++ rest⟩ = some '[' := by
      simp [writeBracket]
    simp [write, readPiece, opens, readTerm, read, bind, Except.bind]
  | literal s =>
    obtain ⟨ch, character⟩ := Option.isSome_iff_exists.1 normal
    obtain rfl := Symbol.char?_eq_some_iff.1 character
    by_cases stands : standsForItself ch = true
    · simp [write, writeSymbol, stands, readPiece, readTerm, readEscapedTerm, readEscape_backslash,
        escape_of_standsForItself character stands, bind, Except.bind]
    · have written : write (.literal (.ofChar ch)) = [.ofChar ch] := by
        simp [write, writeSymbol, stands]
      rw [written]
      exact readPiece_plain stands
/-! ## Where no quantifier starts -/

theorem quiet_cons {ch : Char} (no_mark : ch ∉ ['*', '+', '?', '{']) :
    Quiet (.ofChar ch :: rest) := by
  intro mark mark_mem starts
  rw [eq_of_starts starts] at no_mark
  exact no_mark mark_mem

theorem quiet_writeSymbol (s : Symbol) : Quiet (writeSymbol s ++ rest) := by
  intro mark mark_mem
  have stands : ∀ ch ∈ ['*', '+', '?', '{'], standsForItself ch = true ∧ ch ≠ '\\' := by
    simp [standsForItself]
  exact head?_writeSymbol_ne (stands mark mark_mem).1 (stands mark mark_mem).2

theorem quiet_writeOpening (o : Opening) : Quiet (writeOpening o ++ rest) := by
  unfold writeOpening
  split <;> exact quiet_cons (by decide)

theorem quiet_writeShorthand (kind : Shorthand) : Quiet (writeShorthand kind ++ rest) :=
  quiet_cons (by decide)

/-- No term starts like a quantifier. -/
theorem quiet_write {t : Draft} (is_term : t.IsTerm)
    (normal : t.Everywhere WritableNode) : Quiet (write t ++ rest) := by
  induction t using Tree.induct generalizing rest with
  | concat _ _ | alternation _ _ => cases is_term
  | literal s =>
    unfold write
    exact quiet_writeSymbol s
  | wildcard =>
    unfold write
    exact quiet_cons (by decide)
  | bracket items negated =>
    unfold write
    exact quiet_cons (by decide)
  | shorthand kind =>
    unfold write
    exact quiet_writeShorthand kind
  | anchor a =>
    unfold write
    cases a <;> exact quiet_cons (by decide)
  | group body capturing name ih =>
    unfold write
    rw [List.append_assoc]
    exact quiet_writeOpening _
  | look side body negative ih =>
    unfold write
    rw [List.append_assoc]
    exact quiet_writeOpening _
  | repetition body bounds greedy ih =>
    unfold write
    rw [List.append_assoc]
    have quantifiable : body.IsQuantifiable := normal.self.1
    exact ih quantifiable.isTerm (normal.of_mem_children (List.mem_singleton_self body))

/-- Terms in a row start like a quantifier only if there are none and what follows does. -/
theorem quiet_writeAll {ts : List Draft} (are_terms : ∀ t ∈ ts, t.IsTerm)
    (normal : ∀ t ∈ ts, t.Everywhere WritableNode) (quiet : Quiet rest) :
    Quiet (writeAll ts ++ rest) := by
  cases ts with
  | nil => exact quiet
  | cons t ts =>
    unfold writeAll
    rw [List.append_assoc]
    exact quiet_write (are_terms t (by simp)) (normal t (by simp))

end PatternSampler.Notation
