import PatternSampler.Proofs.Notation.Writing

/-! # The form of brackets

  What may stand between `[` and `]`, and how it falls into items. The same symbol means
  different things in different places:

  - `]` is an item right after the opening, and else it ends the bracket;
  - `^` negates the bracket right after the opening, and else it is an item;
  - `-` makes a range where a symbol stands on either side of it, and else it is an item.

  `BracketForm` says this by the text alone. The reader reads a bracket exactly where a text of
  this form begins, to the end of the text and as the items it is made of
  (`readPiece_bracket_iff`).
-/

namespace PatternSampler.Notation

open Cursor

/-! ## The form -/

/-- What may stand on one side of a dash, and how it is written. -/
inductive AtomForm : BracketAtom → List Symbol → Prop where
  /-- Any symbol but the backslash, as it is. -/
  | plain {s : Symbol} (no_backslash : s ≠ .ofChar '\\') : AtomForm (.symbol s) [s]
  /-- A character of the notation after a backslash. -/
  | escaped {ch : Char} (stands : standsForItself ch = true) :
      AtomForm (.symbol (.ofChar ch)) (ofChars ['\\', ch])
  /-- A shorthand. -/
  | shorthand (kind : Shorthand) : AtomForm (.shorthand kind) (ofChars ['\\', shorthandLetter kind])

/-- The symbols begin with a dash that joins what stands before it to what stands after it. The
    closing bracket cannot be joined. -/
def JoinsOn : List Symbol → Prop
  | dash :: s :: _ => dash = .ofChar '-' ∧ s ≠ .ofChar ']'
  | _ => False

/-- An item, how it is written, and what may follow it. -/
inductive ItemForm : BracketItem → List Symbol → List Symbol → Prop where
  /-- A single symbol, which no dash joins to another one. -/
  | single {s : Symbol} {text rest : List Symbol} (form : AtomForm (.symbol s) text)
      (alone : ¬ JoinsOn rest) : ItemForm (.range s s) text rest
  /-- Two symbols in order with a dash between them. -/
  | range {low high : Symbol} {lowText highText rest : List Symbol}
      (low_form : AtomForm (.symbol low) lowText) (high_form : AtomForm (.symbol high) highText)
      (not_closing : highText ≠ [.ofChar ']']) (in_order : low ≤ high) :
      ItemForm (.range low high) (lowText ++ .ofChar '-' :: highText) rest
  /-- A shorthand, which no dash joins to anything. -/
  | shorthand {kind : Shorthand} {text rest : List Symbol} (form : AtomForm (.shorthand kind) text)
      (alone : ¬ JoinsOn rest) : ItemForm (.shorthand kind) text rest

/-- The items of a bracket and the closing bracket after them. The first argument tells whether
    they begin right after the opening. -/
inductive ItemsForm : Bool → List BracketItem → List Symbol → Prop where
  /-- The bracket is closed. -/
  | closing : ItemsForm false [] [.ofChar ']']
  /-- An item before others. -/
  | item {first : Bool} {item : BracketItem} {items : List BracketItem} {text rest : List Symbol}
      (form : ItemForm item text rest)
      (stays : first = true ∨ text.head? ≠ some (.ofChar ']'))
      (others : ItemsForm false items rest) : ItemsForm first (item :: items) (text ++ rest)

/-- A bracket, negated or not. -/
inductive BracketForm : Bool → List BracketItem → List Symbol → Prop where
  /-- The symbols of the items. -/
  | positive {items : List BracketItem} {text : List Symbol} (form : ItemsForm true items text)
      (no_mark : text.head? ≠ some (.ofChar '^')) :
      BracketForm false items (.ofChar '[' :: text)
  /-- All other symbols. -/
  | negated {items : List BracketItem} {text : List Symbol} (form : ItemsForm true items text) :
      BracketForm true items (.ofChar '[' :: .ofChar '^' :: text)

variable {c d : Cursor} {position : Nat} {text rest after : List Symbol} {atom : BracketAtom}
  {item : BracketItem} {items : List BracketItem} {first negated : Bool} {opened : Nat}

/-! ## Places -/

/-- Passing over the symbols of `text` leads from one place to another. -/
def Cursor.Passes (c : Cursor) (text : List Symbol) (d : Cursor) : Prop :=
  c.rest = text ++ d.rest ∧ d.position = c.position + text.length

theorem Cursor.Passes.eq (h : c.Passes text d) : c = ⟨c.position, text ++ d.rest⟩ ∧
    d = ⟨c.position + text.length, d.rest⟩ := by
  obtain ⟨rest_eq, position_eq⟩ := h
  rw [← rest_eq, ← position_eq]
  exact ⟨rfl, rfl⟩

theorem Cursor.Passes.trans {e : Cursor} {more : List Symbol} (h : c.Passes text d)
    (h' : d.Passes more e) : c.Passes (text ++ more) e := by
  refine ⟨?_, ?_⟩
  · rw [h.1, h'.1, List.append_assoc]
  · rw [h'.2, h.2, List.length_append, Nat.add_assoc]

theorem passes_next {s : Symbol} (h : c.rest = s :: rest) :
    c.Passes [s] c.next ∧ c.next.rest = rest := by
  obtain ⟨position, symbols⟩ := c
  obtain rfl : symbols = s :: rest := h
  exact ⟨⟨rfl, rfl⟩, rfl⟩

/-- The next symbol is passed as the character it is. -/
theorem passes_of_peek {ch : Char} (peeked : c.peek = some ch) : c.Passes [.ofChar ch] c.next := by
  obtain ⟨tail, rest_eq⟩ := peek_eq_some_iff.1 peeked
  exact (passes_next rest_eq).1

/-! ## Atoms -/

theorem readBracketAtom_of_form (form : AtomForm atom text) :
    readBracketAtom ⟨position, text ++ rest⟩ = .ok (atom, ⟨position + text.length, rest⟩) := by
  cases form with
  | @plain s no_backslash =>
    have no_escape : Symbol.char? s ≠ some '\\' := by
      intro character
      exact no_backslash (Symbol.char?_eq_some_iff.1 character)
    simp [readBracketAtom, no_escape]
  | @escaped ch stands =>
    simp [ofChars, readBracketAtom, readEscape_backslash,
      escape_of_standsForItself (Symbol.char?_ofChar ch) stands, bind, Except.bind]
  | shorthand kind => exact readBracketAtom_writeShorthand kind

/-- A shorthand is escaped by its letter, and a symbol by a character that stands for itself. -/
theorem form_of_escape {s : Symbol} :
    (∀ kind, Escape.of s = .shorthand kind → s = .ofChar (shorthandLetter kind)) ∧
    (∀ t, Escape.of s = .symbol t → t = s ∧ ∃ ch, s = .ofChar ch ∧ standsForItself ch = true) := by
  unfold Escape.of
  cases letter : Shorthand.ofLetter? s with
  | some kind =>
    refine ⟨?_, fun _ => nofun⟩
    intro kind' eq
    cases eq
    unfold Shorthand.ofLetter? at letter
    split at letter
    all_goals cases letter
    all_goals exact Symbol.char?_eq_some_iff.1 ‹_›
  | none =>
    cases character : Symbol.char? s with
    | none => exact ⟨fun _ => nofun, fun _ => nofun⟩
    | some ch =>
      by_cases stands : standsForItself ch = true
      · simp only [stands, if_true]
        refine ⟨fun _ => nofun, ?_⟩
        intro t eq
        cases eq
        exact ⟨rfl, ch, Symbol.char?_eq_some_iff.1 character, stands⟩
      · simp only [stands]
        exact ⟨fun _ => nofun, fun _ => nofun⟩

theorem form_of_readBracketAtom (h : readBracketAtom c = .ok (atom, d)) :
    ∃ text, AtomForm atom text ∧ c.Passes text d := by
  unfold readBracketAtom at h
  split at h
  · cases h
  · rename_i s tail rest_eq
    obtain ⟨to_next, next_rest⟩ := passes_next rest_eq
    by_cases escapes : c.peek = some '\\'
    · rw [if_pos escapes] at h
      obtain ⟨⟨e, stop⟩, escape_eq, h⟩ := bind_eq_ok_iff.1 h
      unfold readEscape at escape_eq
      split at escape_eq
      · cases escape_eq
      · rename_i letter more letter_eq
        obtain ⟨to_stop, -⟩ := passes_next letter_eq
        cases escape_eq
        obtain ⟨rest', backslash⟩ := peek_eq_some_iff.1 escapes
        obtain ⟨rfl, -⟩ := List.cons.inj (rest_eq.symm.trans backslash)
        have passes := to_next.trans to_stop
        cases e_eq : Escape.of letter with
        | shorthand kind =>
          rw [e_eq] at h
          cases h
          rw [form_of_escape.1 kind e_eq] at passes
          exact ⟨_, .shorthand kind, passes⟩
        | symbol escaped =>
          rw [e_eq] at h
          cases h
          obtain ⟨rfl, ch, rfl, stands⟩ := form_of_escape.2 escaped e_eq
          exact ⟨_, .escaped stands, passes⟩
        | other escaped =>
          rw [e_eq] at h
          cases h
    · rw [if_neg escapes] at h
      cases h
      have no_backslash : s ≠ .ofChar '\\' := by
        rintro rfl
        exact escapes (peek_eq_some_iff.2 ⟨tail, rest_eq⟩)
      exact ⟨[s], .plain no_backslash, to_next⟩

/-! ## Dashes -/

theorem JoinsOn.exists_cons (joins : JoinsOn rest) :
    ∃ s more, rest = .ofChar '-' :: s :: more ∧ s ≠ .ofChar ']' := by
  match rest, joins with
  | _ :: s :: more, ⟨dash, s_ne⟩ => exact ⟨s, more, by rw [dash], s_ne⟩

theorem dashJoins_iff : dashJoins c = true ↔ JoinsOn c.rest := by
  unfold dashJoins
  obtain ⟨position, symbols⟩ := c
  cases symbols with
  | nil => simp [JoinsOn]
  | cons dash symbols =>
    cases symbols with
    | nil => simp [JoinsOn]
    | cons s more => simp [JoinsOn, Symbol.char?_eq_some_iff]

/-- A text of an atom begins with a symbol, which is the closing bracket only if it is all of
    it. -/
theorem AtomForm.exists_cons {s : Symbol} (form : AtomForm (.symbol s) text)
    (not_closing : text ≠ [.ofChar ']']) :
    ∃ first more, text = first :: more ∧ first ≠ .ofChar ']' := by
  cases form with
  | plain _ =>
    refine ⟨s, [], rfl, ?_⟩
    rintro rfl
    exact not_closing rfl
  | escaped _ => exact ⟨_, _, rfl, by decide⟩

/-- The closing bracket is neither a dash nor joined by one, so what follows it does not
    matter. -/
theorem joinsOn_append {inside : List Symbol} :
    JoinsOn (inside ++ [.ofChar ']'] ++ after) ↔ JoinsOn (inside ++ [.ofChar ']']) := by
  have no_dash : Symbol.ofChar ']' ≠ .ofChar '-' := by decide
  cases inside with
  | nil =>
    cases after with
    | nil => rfl
    | cons s after => simp [JoinsOn, no_dash]
  | cons dash inside =>
    cases inside with
    | nil => rfl
    | cons s inside => rfl

/-- An item depends on what follows it by a dash only. -/
theorem ItemForm.change {rest' : List Symbol} (form : ItemForm item text rest)
    (joins : JoinsOn rest' → JoinsOn rest) : ItemForm item text rest' := by
  cases form with
  | single form alone => exact .single form (mt joins alone)
  | range low_form high_form not_closing in_order =>
    exact .range low_form high_form not_closing in_order
  | shorthand form alone => exact .shorthand form (mt joins alone)

theorem ItemForm.append_iff {inside : List Symbol} :
    ItemForm item text (inside ++ [.ofChar ']'] ++ after) ↔
      ItemForm item text (inside ++ [.ofChar ']']) :=
  ⟨fun form => form.change joinsOn_append.2, fun form => form.change joinsOn_append.1⟩

/-! ## Items -/

theorem readBracketItem_of_form (form : ItemForm item text rest) :
    readBracketItem ⟨position, text ++ rest⟩ = .ok (item, ⟨position + text.length, rest⟩) := by
  unfold readBracketItem
  cases form with
  | single form alone | shorthand form alone =>
    have no_join : ¬ dashJoins ⟨position + text.length, rest⟩ = true := mt dashJoins_iff.1 alone
    rw [readBracketAtom_of_form form]
    simp only [bind, Except.bind, no_join]
    rfl
  | @range low high lowText highText _ low_form high_form not_closing in_order =>
    have joins : dashJoins ⟨position + lowText.length, .ofChar '-' :: (highText ++ rest)⟩ =
        true := by
      obtain ⟨s, more, rfl, s_ne⟩ := high_form.exists_cons not_closing
      exact dashJoins_iff.2 ⟨rfl, s_ne⟩
    rw [List.append_assoc, List.cons_append, readBracketAtom_of_form low_form]
    simp only [bind, Except.bind, joins, if_true, next_cons]
    rw [readBracketAtom_of_form high_form]
    simp only [in_order, if_true, List.length_append, List.length_cons]
    congr 3
    omega

theorem form_of_readBracketItem (h : readBracketItem c = .ok (item, d)) :
    ∃ text, ItemForm item text d.rest ∧ c.Passes text d := by
  unfold readBracketItem at h
  obtain ⟨⟨atom, stop⟩, atom_eq, h⟩ := bind_eq_ok_iff.1 h
  obtain ⟨text, form, to_stop⟩ := form_of_readBracketAtom atom_eq
  cases atom with
  | shorthand kind =>
    by_cases joins : dashJoins stop = true
    · simp only [joins, if_true] at h
      cases h
    · simp only [joins] at h
      cases h
      exact ⟨text, .shorthand form (mt dashJoins_iff.2 joins), to_stop⟩
  | symbol low =>
    by_cases joins : dashJoins stop = true
    · simp only [joins, if_true] at h
      obtain ⟨⟨atom', afterHigh⟩, atom_eq', h⟩ := bind_eq_ok_iff.1 h
      obtain ⟨highText, high_form, to_high⟩ := form_of_readBracketAtom atom_eq'
      cases atom' with
      | shorthand kind => cases h
      | symbol high =>
        simp only at h
        split at h
        · rename_i in_order
          cases h
          -- the dash is passed between the two ends
          obtain ⟨s, more, stop_rest, s_ne⟩ := (dashJoins_iff.1 joins).exists_cons
          obtain ⟨to_dash, after_dash⟩ := passes_next stop_rest
          have not_closing : highText ≠ [.ofChar ']'] := by
            rintro rfl
            exact s_ne (List.cons.inj (after_dash.symm.trans to_high.1)).1
          exact ⟨_, .range form high_form not_closing in_order,
            to_stop.trans (to_dash.trans to_high)⟩
        · cases h
    · simp only [joins] at h
      cases h
      exact ⟨text, .single form (mt dashJoins_iff.2 joins), to_stop⟩

theorem ItemsForm.closes (form : ItemsForm first items text) :
    ∃ inside, text = inside ++ [.ofChar ']'] := by
  induction form with
  | closing => exact ⟨[], rfl⟩
  | @item _ _ _ text _ _ _ _ ih =>
    obtain ⟨inside, rfl⟩ := ih
    exact ⟨text ++ inside, (List.append_assoc _ _ _).symm⟩

theorem ItemForm.text_ne_nil (form : ItemForm item text rest) : text ≠ [] := by
  cases form with
  | single form _ => cases form <;> exact List.cons_ne_nil _ _
  | range _ _ _ _ => exact List.append_ne_nil_of_right_ne_nil _ (List.cons_ne_nil _ _)
  | shorthand form _ => cases form; exact List.cons_ne_nil _ _

/-- All items are read, and the closing bracket after them. -/
theorem readBracketItems_of_form (form : ItemsForm first items text) :
    readBracketItems opened first ⟨position, text ++ rest⟩ =
      .ok (items, ⟨position + text.length, rest⟩) := by
  induction form generalizing position with
  | closing =>
    unfold readBracketItems
    simp
  | @item first item items text others form stays others_form ih =>
    -- the other items show whether a dash joins this one, so what follows them does not matter
    obtain ⟨inside, rfl⟩ := others_form.closes
    have here : first = true ∨
        peek ⟨position, text ++ (inside ++ [.ofChar ']'] ++ rest)⟩ ≠ some ']' := by
      refine stays.imp_right fun not_closing => peek_ne_of_head?_ne ?_
      obtain ⟨s, more, rfl⟩ := List.exists_cons_of_ne_nil form.text_ne_nil
      exact not_closing
    rw [List.append_assoc, List.length_append, ← Nat.add_assoc]
    exact readBracketItems_cons here (readBracketItem_of_form (ItemForm.append_iff.2 form)) ih

/-- Where the bracket is not closed, no item begins with the closing bracket, but at the start one
    may. -/
theorem stays_of_begins (stays : ¬ (!first && c.peek = some ']') = true)
    (begins : text <+: c.rest) : first = true ∨ text.head? ≠ some (.ofChar ']') := by
  by_cases at_start : first = true
  · exact Or.inl at_start
  · right
    intro starts
    obtain ⟨more, rfl⟩ := List.head?_eq_some_iff.1 starts
    obtain ⟨after, rest_eq⟩ := begins
    apply stays
    simpa [at_start] using peek_eq_some_iff.2 ⟨_, rest_eq.symm⟩

theorem form_of_readBracketItems (h : readBracketItems opened first c = .ok (items, d)) :
    ∃ text, ItemsForm first items text ∧ c.Passes text d := by
  fun_induction readBracketItems opened first c generalizing items d with
  | case1 => cases h
  | case2 first c more closes =>
    cases h
    obtain ⟨at_start, peeked⟩ : first = false ∧ c.peek = some ']' := by simpa using closes
    subst at_start
    exact ⟨_, .closing, passes_of_peek peeked⟩
  | case3 => cases h
  | case4 => cases h
  | case5 first c more stays item stop item_eq _ others closed others_eq ih =>
    cases h
    obtain ⟨text, form, to_stop⟩ := form_of_readBracketItem item_eq
    obtain ⟨rest, others_form, to_end⟩ := ih others_eq
    -- the item was read before all that is left, of which only the other items matter
    obtain ⟨inside, rfl⟩ := others_form.closes
    rw [to_end.1] at form
    exact ⟨_, .item (ItemForm.append_iff.1 form) (stays_of_begins stays ⟨_, to_stop.1.symm⟩)
      others_form, to_stop.trans to_end⟩

/-! ## Brackets -/

theorem readBracket_of_form (form : BracketForm negated items text) :
    readBracket ⟨position, text ++ rest⟩ =
      .ok (items, negated, ⟨position + text.length, rest⟩) := by
  unfold readBracket
  cases form with
  | @positive items text form no_mark =>
    have not_eaten : eat? ⟨position + 1, text ++ rest⟩ '^' = none := by
      refine if_neg (peek_ne_of_head?_ne ?_)
      -- what follows the bracket is not its first symbol
      obtain ⟨inside, rfl⟩ := form.closes
      cases inside with
      | nil => simp [Symbol.ofChar]
      | cons s inside => exact no_mark
    simp only [List.cons_append, next_cons, not_eaten]
    rw [readBracketItems_of_form form]
    simp only [bind, Except.bind, List.length_cons]
    congr 4
    omega
  | @negated items text form =>
    simp only [List.cons_append, next_cons, eat?_cons, Symbol.char?_ofChar, if_true]
    rw [readBracketItems_of_form form]
    simp only [bind, Except.bind, List.length_cons]
    congr 4
    omega

theorem form_of_readBracket (opens : c.peek = some '[')
    (h : readBracket c = .ok (items, negated, d)) :
    ∃ text, BracketForm negated items text ∧ c.Passes text d := by
  have to_next := passes_of_peek opens
  unfold readBracket at h
  cases mark : c.next.eat? '^' with
  | some afterMark =>
    rw [mark] at h
    obtain ⟨⟨read, stop⟩, items_eq, h⟩ := bind_eq_ok_iff.1 h
    cases h
    obtain ⟨text, form, to_end⟩ := form_of_readBracketItems items_eq
    unfold eat? at mark
    split at mark
    · rename_i peeked
      cases mark
      exact ⟨_, .negated form, to_next.trans ((passes_of_peek peeked).trans to_end)⟩
    · cases mark
  | none =>
    rw [mark] at h
    obtain ⟨⟨read, stop⟩, items_eq, h⟩ := bind_eq_ok_iff.1 h
    cases h
    obtain ⟨text, form, to_end⟩ := form_of_readBracketItems items_eq
    refine ⟨_, .positive form ?_, to_next.trans to_end⟩
    intro starts
    obtain ⟨more, rfl⟩ := List.head?_eq_some_iff.1 starts
    rw [eat?, if_pos (peek_eq_some_iff.2 ⟨_, to_end.1⟩)] at mark
    cases mark

theorem peek_of_form (form : BracketForm negated items text) :
    peek ⟨position, text ++ rest⟩ = some '[' := by
  cases form <;> simp

/-- Only a bracket is read as one. -/
theorem readBracket_of_readTerm {ch : Char}
    (h : readTerm ch c = .ok (.bracket items negated, d)) :
    ch = '[' ∧ readBracket c = .ok (items, negated, d) := by
  unfold readTerm at h
  split at h
  · obtain ⟨⟨items', negated', stop⟩, bracket_eq, h⟩ := bind_eq_ok_iff.1 h
    cases h
    exact ⟨rfl, bracket_eq⟩
  · -- an escape is a shorthand or a literal
    unfold readEscapedTerm at h
    obtain ⟨⟨e, stop⟩, -, h⟩ := bind_eq_ok_iff.1 h
    cases e with
    | shorthand kind => cases h
    | symbol s => cases h
    | other escaped =>
      cases escaped with
      | none => cases h
      | some ch =>
        simp only at h
        repeat' split at h
        all_goals cases h
  all_goals cases h

/-- A bracket is read exactly where a text of its form begins, to the end of the text. -/
theorem readPiece_bracket_iff :
    readPiece c = .ok (some (.term (.bracket items negated), d)) ↔
      ∃ text, BracketForm negated items text ∧ c.Passes text d := by
  constructor
  · intro h
    unfold readPiece at h
    split at h
    · cases h
    · cases h
    · cases h
    · obtain ⟨_, -, h⟩ := bind_eq_ok_iff.1 h
      cases h
    · rename_i peeked
      obtain ⟨⟨t, stop⟩, term_eq, h⟩ := bind_eq_ok_iff.1 h
      cases h
      obtain ⟨rfl, bracket_eq⟩ := readBracket_of_readTerm term_eq
      exact form_of_readBracket peeked bracket_eq
  · rintro ⟨text, form, passes⟩
    obtain ⟨c_eq, d_eq⟩ := passes.eq
    rw [c_eq, d_eq]
    unfold readPiece
    rw [peek_of_form form]
    simp [readTerm, readBracket_of_form form, bind, Except.bind]

end PatternSampler.Notation
