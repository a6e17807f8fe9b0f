import PatternSampler.Notation.Nesting
import PatternSampler.Proofs.Tree.Normal

/-! # What each part of the reader reads

  One lemma for each reading function, from the smallest to `readPiece` and `quantify`. It says
  two things of a successful reading that begins at `c` and ends at `d`:

  - `c.Reaches d`: some symbols were passed over, one position each, so that reading never goes
    back and never runs past the end;
  - what was read is made of the symbols that were still to come at `c`, in the form that
    normal trees have.
-/

namespace PatternSampler.Notation

/-- A computation with a second part succeeds when both parts do. -/
theorem bind_eq_ok_iff {ε α β : Type} {first : Except ε α} {next : α → Except ε β} {b : β} :
    first >>= next = .ok b ↔ ∃ a, first = .ok a ∧ next a = .ok b := by
  cases first with
  | error e => simp [bind, Except.bind]
  | ok a => simp [bind, Except.bind]

/-- A computation with a second part fails when the first part does, or the second one after
    it. -/
theorem bind_eq_error_iff {ε α β : Type} {start : Except ε α} {next : α → Except ε β} {e : ε} :
    start >>= next = .error e ↔ start = .error e ∨ ∃ a, start = .ok a ∧ next a = .error e := by
  rcases start with e' | a
  · simp [bind, Except.bind]
  · simp [bind, Except.bind]

namespace Cursor

/-- Passing over some symbols leads from one place to another. -/
def Reaches (c d : Cursor) : Prop :=
  ∃ passed, c.rest = passed ++ d.rest ∧ d.position = c.position + passed.length

variable {c d e : Cursor} {ch : Char}

@[refl] theorem Reaches.refl (c : Cursor) : c.Reaches c := ⟨[], rfl, rfl⟩

theorem Reaches.trans (first : c.Reaches d) (second : d.Reaches e) : c.Reaches e := by
  obtain ⟨passed, rest_eq, position_eq⟩ := first
  obtain ⟨passed', rest_eq', position_eq'⟩ := second
  refine ⟨passed ++ passed', ?_, ?_⟩
  · rw [rest_eq, rest_eq', List.append_assoc]
  · rw [position_eq', position_eq, List.length_append, Nat.add_assoc]

/-- What is still to come at the place reached was still to come before. -/
theorem Reaches.subset (h : c.Reaches d) : d.rest ⊆ c.rest := by
  obtain ⟨passed, rest_eq, -⟩ := h
  rw [rest_eq]
  exact List.subset_append_right passed d.rest

theorem Reaches.length_le (h : c.Reaches d) : d.rest.length ≤ c.rest.length := by
  obtain ⟨passed, rest_eq, -⟩ := h
  rw [rest_eq, List.length_append]
  omega

/-- The symbols passed and those still to come are always as many as the pattern has. -/
theorem Reaches.position_add_remaining (h : c.Reaches d) :
    d.position + d.remaining = c.position + c.remaining := by
  obtain ⟨passed, rest_eq, position_eq⟩ := h
  rw [remaining, remaining, rest_eq, position_eq, List.length_append, Nat.add_assoc]

theorem reaches_next (c : Cursor) : c.Reaches c.next := by
  obtain ⟨position, _ | ⟨s, rest⟩⟩ := c
  · rfl
  · exact ⟨[s], rfl, rfl⟩

theorem reaches_of_eat? (h : c.eat? ch = some d) : c.Reaches d := by
  unfold eat? at h
  split at h
  · cases h
    exact c.reaches_next
  · cases h

/-- A place before a character is a place before its symbol. -/
theorem peek_eq_some_iff : c.peek = some ch ↔ ∃ rest, c.rest = .ofChar ch :: rest := by
  obtain ⟨position, _ | ⟨s, rest⟩⟩ := c
  · simp [peek]
  · simp [peek, Symbol.char?_eq_some_iff]

/-- The characters taken are the symbols passed, all of them satisfy the condition, and they
    end before a symbol that does not. -/
theorem takeWhile_spec (p : Char → Bool) (c : Cursor) :
    c.rest = (c.takeWhile p).1.map Symbol.ofChar ++ (c.takeWhile p).2.rest ∧
      (c.takeWhile p).2.position = c.position + (c.takeWhile p).1.length ∧
      (∀ ch ∈ (c.takeWhile p).1, p ch = true) ∧
      ∀ ch, (c.takeWhile p).2.peek = some ch → p ch = false := by
  obtain ⟨position, rest⟩ := c
  simp only [takeWhile]
  fun_induction takeWhile.go p position rest with
  | case1 position => exact ⟨rfl, rfl, fun _ => nofun, fun _ => nofun⟩
  | case2 position s rest ch character holds chars stop taken ih =>
    rw [taken] at ih
    obtain ⟨rest_eq, position_eq, all, ends⟩ := ih
    refine ⟨?_, ?_, ?_, ends⟩
    · rw [Symbol.char?_eq_some_iff.1 character, rest_eq]
      rfl
    · simp only [List.length_cons] at position_eq ⊢
      omega
    · intro ch' ch'_mem
      rcases List.mem_cons.1 ch'_mem with rfl | ch'_mem
      · exact holds
      · exact all ch' ch'_mem
  | case3 position s rest ch character fails =>
    refine ⟨rfl, rfl, fun _ => nofun, ?_⟩
    intro ch' peeked
    have same : some ch = some ch' := by
      rw [← character]
      exact peeked
    cases same
    exact Bool.eq_false_iff.2 fails
  | case4 position s rest no_character =>
    refine ⟨rfl, rfl, fun _ => nofun, ?_⟩
    intro ch' peeked
    have same : none = some ch' := by
      rw [← no_character]
      exact peeked
    cases same

theorem reaches_takeWhile (p : Char → Bool) (c : Cursor) : c.Reaches (c.takeWhile p).2 := by
  obtain ⟨rest_eq, position_eq, -⟩ := c.takeWhile_spec p
  exact ⟨_, rest_eq, by rw [position_eq, List.length_map]⟩

end Cursor

open Cursor

variable {c d : Cursor}

/-! ## Quantifiers -/

theorem reaches_of_readNumber {n : Option UInt32} (h : readNumber c = .ok (n, d)) :
    c.Reaches d := by
  have taken := reaches_takeWhile Char.isDigit c
  unfold readNumber at h
  split at h
  · cases h
    exact .refl _
  · rename_i digits stop _ eq
    rw [eq] at taken
    split at h
    · cases h
      exact taken
    · cases h

/-- Braces that close have consistent bounds. -/
theorem of_closeBraces {opened : Nat} {bounds b : Bounds}
    (h : closeBraces opened bounds c = .ok (some (b, d))) :
    c.Reaches d ∧ b = bounds ∧ b.Consistent := by
  unfold closeBraces at h
  split at h
  · cases h
  · rename_i stop eat
    split at h
    · rename_i consistent
      cases h
      exact ⟨reaches_of_eat? eat, rfl, consistent⟩
    · cases h

theorem of_readBraces {b : Bounds} (h : readBraces c = .ok (some (b, d))) :
    c.Reaches d ∧ b.Consistent := by
  unfold readBraces at h
  obtain ⟨⟨least, afterLeast⟩, least_eq, h⟩ := bind_eq_ok_iff.1 h
  have to_least := (reaches_next c).trans (reaches_of_readNumber least_eq)
  simp only at h
  -- with a comma there may be a second number; without one the first is both bounds
  split at h
  · rename_i afterComma eat
    obtain ⟨⟨most, afterMost⟩, most_eq, h⟩ := bind_eq_ok_iff.1 h
    obtain ⟨closed, -, consistent⟩ := of_closeBraces h
    have to_most := (reaches_of_eat? eat).trans (reaches_of_readNumber most_eq)
    exact ⟨(to_least.trans to_most).trans closed, consistent⟩
  · obtain ⟨closed, -, consistent⟩ := of_closeBraces h
    exact ⟨to_least.trans closed, consistent⟩
  · cases h

theorem of_readBounds {b : Bounds} (h : readBounds c = .ok (some (b, d))) :
    c.Reaches d ∧ b.Consistent := by
  unfold readBounds at h
  split at h
  case h_4 => exact of_readBraces h
  case h_5 => cases h
  all_goals
    cases h
    refine ⟨c.reaches_next, ?_⟩
    decide

theorem reaches_readGreediness (c : Cursor) : c.Reaches (readGreediness c).2 := by
  unfold readGreediness
  split
  · rename_i eat
    exact reaches_of_eat? eat
  · rfl

/-- The ways in which `quantify` gives a term: as it is, or repeated. -/
theorem of_quantify {β : Type} {term t : Tree β} (h : quantify term c = .ok (t, d)) :
    c.Reaches d ∧ (t = term ∨ repeatable term = true ∧
      ∃ bounds greedy, bounds.Consistent ∧ t = .repetition term bounds greedy) := by
  unfold quantify at h
  obtain ⟨read, read_eq, h⟩ := bind_eq_ok_iff.1 h
  cases read with
  | none =>
    cases h
    exact ⟨.refl _, Or.inl rfl⟩
  | some found =>
    obtain ⟨bounds, afterBounds⟩ := found
    obtain ⟨to_bounds, consistent⟩ := of_readBounds read_eq
    simp only at h
    split at h
    · rename_i can_repeat
      split at h
      -- a second quantifier
      · cases h
      · cases h
        exact ⟨to_bounds.trans (reaches_readGreediness afterBounds),
          Or.inr ⟨can_repeat, bounds, _, consistent, rfl⟩⟩
    · cases h

/-! ## Brackets -/

/-- The symbols of an item are among the given ones, and the ends of a range are in order. -/
def BracketItem.Within (symbols : List Symbol) : BracketItem → Prop
  | range low high => low ∈ symbols ∧ high ∈ symbols ∧ low ≤ high
  | shorthand _ => True

theorem BracketItem.Within.mono {symbols more : List Symbol} {item : BracketItem}
    (h : item.Within symbols) (subset : symbols ⊆ more) : item.Within more := by
  cases item with
  | range low high => exact ⟨subset h.1, subset h.2.1, h.2.2⟩
  | shorthand kind => trivial

/-- An escape is what the symbol after the backslash makes it. -/
theorem of_readEscape {e : Escape} (h : readEscape c = .ok (e, d)) :
    c.Reaches d ∧ ∃ s ∈ c.rest, e = .of s := by
  unfold readEscape at h
  split at h
  · cases h
  · rename_i s rest rest_eq
    cases h
    have s_mem : s ∈ c.next.rest := by simp [rest_eq]
    exact ⟨c.reaches_next.trans c.next.reaches_next, s, c.reaches_next.subset s_mem, rfl⟩

/-- An escape that stands for a symbol stands for the one after the backslash, which is a
    character. -/
theorem of_escape_eq_symbol {s t : Symbol} (h : Escape.of s = .symbol t) :
    t = s ∧ (Symbol.char? s).isSome := by
  unfold Escape.of at h
  split at h
  · cases h
  · split at h
    · rename_i character
      split at h
      · cases h
        simp [character]
      · cases h
    · cases h

theorem of_readBracketAtom {a : BracketAtom} (h : readBracketAtom c = .ok (a, d)) :
    c.Reaches d ∧ ∀ s, a = .symbol s → s ∈ c.rest := by
  unfold readBracketAtom at h
  split at h
  · cases h
  · rename_i s rest rest_eq
    split at h
    · obtain ⟨⟨e, stop⟩, escape_eq, h⟩ := bind_eq_ok_iff.1 h
      obtain ⟨to_stop, escaped, escaped_mem, rfl⟩ := of_readEscape escape_eq
      split at h
      · cases h
        rename_i eq
        obtain ⟨-, rfl⟩ := Prod.mk.inj eq
        exact ⟨to_stop, fun _ => nofun⟩
      · cases h
        rename_i eq
        obtain ⟨symbol_eq, rfl⟩ := Prod.mk.inj eq
        obtain ⟨rfl, -⟩ := of_escape_eq_symbol symbol_eq
        refine ⟨to_stop, ?_⟩
        intro s atom_eq
        cases atom_eq
        exact escaped_mem
      · cases h
    · cases h
      refine ⟨c.reaches_next, ?_⟩
      intro s' atom_eq
      cases atom_eq
      simp [rest_eq]

theorem of_readBracketItem {item : BracketItem} (h : readBracketItem c = .ok (item, d)) :
    c.Reaches d ∧ item.Within c.rest := by
  unfold readBracketItem at h
  obtain ⟨⟨atom, stop⟩, atom_eq, h⟩ := bind_eq_ok_iff.1 h
  obtain ⟨to_stop, symbol_mem⟩ := of_readBracketAtom atom_eq
  split at h
  · -- a shorthand, which no dash may follow
    rename_i eq
    cases eq
    split at h
    · cases h
    · cases h
      exact ⟨to_stop, trivial⟩
  · -- a symbol, which is the low end of a range if a dash joins it to another one
    rename_i low _ eq
    cases eq
    have low_mem := symbol_mem low rfl
    split at h
    · obtain ⟨⟨atom', afterHigh⟩, atom_eq', h⟩ := bind_eq_ok_iff.1 h
      have to_dash := to_stop.trans stop.reaches_next
      obtain ⟨to_high, symbol_mem'⟩ := of_readBracketAtom atom_eq'
      split at h
      · rename_i high _ eq
        cases eq
        have high_mem := to_dash.subset (symbol_mem' high rfl)
        split at h
        · rename_i in_order
          cases h
          exact ⟨to_dash.trans to_high, low_mem, high_mem, in_order⟩
        · cases h
      · cases h
    · cases h
      exact ⟨to_stop, low_mem, low_mem, UInt32.le_refl low⟩

/-- A bracket that is read to its end has an item unless it could be closed at once. -/
theorem of_readBracketItems {opened : Nat} {atStart : Bool} {items : List BracketItem}
    (h : readBracketItems opened atStart c = .ok (items, d)) :
    c.Reaches d ∧ (atStart = true → items ≠ []) ∧ ∀ item ∈ items, item.Within c.rest := by
  fun_induction readBracketItems opened atStart c generalizing items d with
  | case1 => cases h
  | case2 atStart c _ closes =>
    cases h
    refine ⟨c.reaches_next, ?_, List.forall_mem_nil _⟩
    -- at the start of a bracket `]` does not close it
    intro at_start
    simp [at_start] at closes
  | case3 => cases h
  | case4 => cases h
  | case5 atStart c _ _ item stop item_eq _ rest closed rest_eq ih =>
    cases h
    obtain ⟨to_stop, item_within⟩ := of_readBracketItem item_eq
    obtain ⟨to_closed, -, rest_within⟩ := ih rest_eq
    refine ⟨to_stop.trans to_closed, fun _ => List.cons_ne_nil item rest, ?_⟩
    intro other other_mem
    rcases List.mem_cons.1 other_mem with rfl | other_mem
    · exact item_within
    · exact (rest_within other other_mem).mono to_stop.subset

theorem of_readBracket {items : List BracketItem} {negated : Bool}
    (h : readBracket c = .ok (items, negated, d)) :
    c.Reaches d ∧ items ≠ [] ∧ ∀ item ∈ items, item.Within c.rest := by
  unfold readBracket at h
  split at h
  rename_i inside inside_eq
  have to_inside : c.Reaches inside := by
    split at inside_eq
    · rename_i eat
      cases inside_eq
      exact c.reaches_next.trans (reaches_of_eat? eat)
    · cases inside_eq
      exact c.reaches_next
  obtain ⟨⟨read, stop⟩, items_eq, h⟩ := bind_eq_ok_iff.1 h
  cases h
  obtain ⟨to_stop, not_empty, within⟩ := of_readBracketItems items_eq
  exact ⟨to_inside.trans to_stop, not_empty rfl,
    fun item item_mem => (within item item_mem).mono to_inside.subset⟩

/-! ## Groups -/

/-- What an opening says is in order: only a group that captures has a name, and the name is
    valid. -/
def Opening.Valid : Opening → Prop
  | group capturing name => ∀ n, name = some n → capturing = true ∧ ValidName n
  | look _ _ => True

/-- The number of characters of the name, zero if there is none. -/
def Opening.nameLength : Opening → Nat
  | group _ (some name) => name.length
  | _ => 0

/-- An opening can be read from the given symbols. -/
structure Opening.Within (symbols : List Symbol) (o : Opening) : Prop where
  /-- It is in order. -/
  valid : o.Valid
  /-- Each character of its name took a symbol. -/
  short : o.nameLength ≤ symbols.length

theorem Opening.Within.mono {symbols more : List Symbol} {o : Opening} (h : o.Within symbols)
    (shorter : symbols.length ≤ more.length) : o.Within more :=
  ⟨h.valid, Nat.le_trans h.short shorter⟩

/-- Name characters of which the first is no digit are a valid name. -/
theorem validName_ofList {first : Char} {rest : List Char} (no_digit : first.isDigit = false)
    (all : ∀ ch ∈ first :: rest, isNameChar ch = true) :
    ValidName (String.ofList (first :: rest)) := by
  have name_char : ∀ ch ∈ first :: rest, ch.isAlphanum = true ∨ ch = '_' := by
    intro ch ch_mem
    simpa [isNameChar] using all ch ch_mem
  refine ⟨first, rest, String.toList_ofList, ?_, ?_⟩
  · rcases name_char first (by simp) with alphanum | underscore
    · left
      simpa [Char.isAlphanum, no_digit] using alphanum
    · exact Or.inr underscore
  · intro ch ch_mem
    exact name_char ch (List.mem_cons_of_mem first ch_mem)

theorem of_readName {name : String} (h : readName c = .ok (name, d)) :
    c.Reaches d ∧ ValidName name ∧ name.length ≤ c.rest.length := by
  obtain ⟨rest_eq, -, all, -⟩ := c.takeWhile_spec isNameChar
  have to_stop := c.reaches_takeWhile isNameChar
  unfold readName at h
  simp only at h
  split at h
  · cases h
  · rename_i no_digit
    split at h
    · split at h
      · cases h
      · rename_i not_empty
        cases h
        refine ⟨to_stop.trans (reaches_next _), ?_, ?_⟩
        · cases chars_eq : (c.takeWhile isNameChar).1 with
          | nil =>
            rw [chars_eq] at not_empty
            exact absurd rfl not_empty
          | cons first rest =>
            rw [chars_eq] at no_digit all
            exact validName_ofList (by simpa using no_digit) all
        · rw [rest_eq, String.length_ofList, List.length_append, List.length_map]
          omega
    · cases h
    · cases h

theorem of_readNamed {o : Opening} (h : readNamed c = .ok (o, d)) :
    c.Reaches d ∧ o.Within c.rest := by
  unfold readNamed at h
  obtain ⟨⟨name, stop⟩, name_eq, h⟩ := bind_eq_ok_iff.1 h
  cases h
  obtain ⟨to_stop, valid, le⟩ := of_readName name_eq
  refine ⟨to_stop, ?_, le⟩
  intro n name_eq
  cases name_eq
  exact ⟨rfl, valid⟩

theorem of_readExtension {opened : Nat} {o : Opening}
    (h : readExtension opened c = .ok (o, d)) : c.Reaches d ∧ o.Within c.rest := by
  have to_next := c.reaches_next
  have to_next_next := to_next.trans c.next.reaches_next
  have named : ∀ {start : Cursor}, c.Reaches start → readNamed start = .ok (o, d) →
      c.Reaches d ∧ o.Within c.rest := by
    intro start to_start read
    obtain ⟨to_stop, within⟩ := of_readNamed read
    exact ⟨to_start.trans to_stop, within.mono to_start.length_le⟩
  have unnamed : (Opening.group false none).Within c.rest := ⟨fun _ => nofun, Nat.zero_le _⟩
  have lookaround : ∀ side negative, (Opening.look side negative).Within c.rest :=
    fun _ _ => ⟨trivial, Nat.zero_le _⟩
  -- what follows the question mark decides, after one more symbol or after two
  unfold readExtension at h
  repeat' split at h
  all_goals first
    | exact named to_next h
    | exact named to_next_next h
    | (cases h; exact ⟨to_next, unnamed⟩)
    | (cases h; exact ⟨to_next, lookaround _ _⟩)
    | (cases h; exact ⟨to_next_next, lookaround _ _⟩)
    | cases h

theorem of_readOpening {o : Opening} (h : readOpening c = .ok (o, d)) :
    c.Reaches d ∧ o.Within c.rest := by
  unfold readOpening at h
  split at h
  · cases h
    exact ⟨c.reaches_next, fun _ => nofun, Nat.zero_le _⟩
  · rename_i afterMark eat
    have to_mark := c.reaches_next.trans (reaches_of_eat? eat)
    obtain ⟨to_stop, within⟩ := of_readExtension h
    exact ⟨to_mark.trans to_stop, within.mono to_mark.length_le⟩

/-! ## Terms and pieces -/

/-- Items that can be read from some symbols. A bracket is never empty. -/
def NormalItems (symbols : List Symbol) (items : List BracketItem) : Prop :=
  items ≠ [] ∧ ∀ item ∈ items, item.Within symbols

/-- A node of a draft in the form of normal trees, made of the given symbols. A literal is
    always a character. -/
def NormalDraftNode (symbols : List Symbol) : Draft → Prop :=
  Tree.NormalNode (fun s => s ∈ symbols ∧ (Symbol.char? s).isSome) (NormalItems symbols)

theorem NormalDraftNode.mono {symbols more : List Symbol} {d : Draft}
    (h : NormalDraftNode symbols d) (subset : symbols ⊆ more) : NormalDraftNode more d := by
  refine Tree.NormalNode.imp h ?_ ?_
  · exact fun s ⟨s_mem, character⟩ => ⟨subset s_mem, character⟩
  · exact fun items ⟨not_empty, within⟩ =>
      ⟨not_empty, fun item item_mem => (within item item_mem).mono subset⟩

/-- A piece is made of the given symbols. -/
def Piece.Within (symbols : List Symbol) : Piece → Prop
  | term t => t.IsLeaf ∧ NormalDraftNode symbols t
  | opening o => o.Within symbols
  | closing | bar => True

theorem of_readEscapedTerm {t : Draft} (h : readEscapedTerm c = .ok (t, d)) :
    c.Reaches d ∧ t.IsLeaf ∧ NormalDraftNode c.rest t := by
  unfold readEscapedTerm at h
  obtain ⟨⟨e, stop⟩, escape_eq, h⟩ := bind_eq_ok_iff.1 h
  obtain ⟨to_stop, s, s_mem, rfl⟩ := of_readEscape escape_eq
  split at h
  · rename_i eq
    obtain ⟨-, rfl⟩ := Prod.mk.inj eq
    cases h
    exact ⟨to_stop, trivial, trivial⟩
  · rename_i eq
    obtain ⟨symbol_eq, rfl⟩ := Prod.mk.inj eq
    cases h
    obtain ⟨rfl, character⟩ := of_escape_eq_symbol symbol_eq
    exact ⟨to_stop, trivial, s_mem, character⟩
  · repeat' split at h
    all_goals cases h
  · cases h

theorem of_readTerm {ch : Char} {t : Draft} (peeked : c.peek = some ch)
    (h : readTerm ch c = .ok (t, d)) : c.Reaches d ∧ t.IsLeaf ∧ NormalDraftNode c.rest t := by
  unfold readTerm at h
  split at h
  · obtain ⟨⟨items, negated, stop⟩, bracket_eq, h⟩ := bind_eq_ok_iff.1 h
    obtain ⟨to_stop, normal⟩ := of_readBracket bracket_eq
    cases h
    exact ⟨to_stop, trivial, normal⟩
  · exact of_readEscapedTerm h
  · cases h
    exact ⟨c.reaches_next, trivial, trivial⟩
  · cases h
    exact ⟨c.reaches_next, trivial, trivial⟩
  · cases h
    exact ⟨c.reaches_next, trivial, trivial⟩
  · cases h
  · cases h
  · cases h
  · -- any other character stands for itself
    cases h
    obtain ⟨rest, rest_eq⟩ := peek_eq_some_iff.1 peeked
    refine ⟨c.reaches_next, trivial, ?_, ?_⟩
    · simp [rest_eq]
    · simp

theorem of_readPiece {p : Piece} (h : readPiece c = .ok (some (p, d))) :
    c.Reaches d ∧ p.Within c.rest := by
  unfold readPiece at h
  split at h
  · cases h
  · cases h
    exact ⟨c.reaches_next, trivial⟩
  · cases h
    exact ⟨c.reaches_next, trivial⟩
  · obtain ⟨⟨o, stop⟩, opening_eq, h⟩ := bind_eq_ok_iff.1 h
    obtain ⟨to_stop, within⟩ := of_readOpening opening_eq
    cases h
    exact ⟨to_stop, within⟩
  · rename_i peeked
    obtain ⟨⟨t, stop⟩, term_eq, h⟩ := bind_eq_ok_iff.1 h
    obtain ⟨to_stop, within⟩ := of_readTerm peeked term_eq
    cases h
    exact ⟨to_stop, within⟩

end PatternSampler.Notation
