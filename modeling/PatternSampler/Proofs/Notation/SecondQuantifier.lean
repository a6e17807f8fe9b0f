import PatternSampler.Proofs.Notation.Braces
import PatternSampler.Proofs.Notation.Embedding
import PatternSampler.Proofs.Notation.Literals
import PatternSampler.Proofs.Notation.Single

/-! # Second quantifiers

  A term has one quantifier at most. After it the reader looks for another one, and refuses it if
  it can be read. One that cannot be read, because a number in it is too long or its numbers are
  not in order, is not taken for a quantifier, and its symbols become literals.

  `parse_second_quantifier` tells the two cases apart for every term, every quantifier on it and
  every second one: it is refused, whatever follows, exactly if its numbers are admissible.
-/

namespace PatternSampler.Notation

open Cursor

variable {c d : Cursor} {b : Bounds} {greedy : Bool} {position stop : Nat}
  {q r after : List Symbol} {t : Draft}

/-! ## What follows a quantifier -/

/-- Bounds that are read end with a symbol of their own, so they are read whatever follows. -/
theorem readBounds_followedBy (h : readBounds c = .ok (some (b, d))) :
    readBounds (c.followedBy after) = .ok (some (b, d.followedBy after)) := by
  by_cases opens : c.peek = some '{'
  · obtain ⟨rest, rest_eq⟩ := peek_eq_some_iff.1 opens
    obtain ⟨position, symbols⟩ := c
    obtain rfl : symbols = .ofChar '{' :: rest := rest_eq
    obtain ⟨least, most, text, form, admissible, rfl, rest_eq, position_eq⟩ :=
      exists_form_of_readBounds h
    rw [followedBy, followedBy, rest_eq, position_eq, List.append_assoc]
    exact readBounds_of_braces form admissible
  · -- a mark is a single symbol
    have more : c.rest ≠ [] := by
      intro ended
      have longer := remaining_lt_of_readBounds h
      rw [remaining, remaining, ended] at longer
      exact absurd longer (Nat.not_lt_zero _)
    rw [followedBy_eq_within, followedBy_eq_within]
    unfold readBounds at h ⊢
    rw [peek_within more, next_within more]
    split at h
    · cases h; rfl
    · cases h; rfl
    · cases h; rfl
    · exact absurd ‹_› opens
    · cases h

/-- A lazy mark is read whatever follows it, and none is read if none follows. -/
theorem readGreediness_append (h : readGreediness c = (greedy, ⟨stop, []⟩))
    (no_mark : greedy = true → after.head? ≠ some (.ofChar '?')) :
    readGreediness (c.followedBy after) = (greedy, ⟨stop, after⟩) := by
  rw [followedBy_eq_within]
  unfold readGreediness at h ⊢
  cases mark : c.eat? '?' with
  | some afterMark =>
    rw [mark] at h
    cases h
    rw [eat?_within_eq_some mark, ← followedBy_eq_within]
    rfl
  | none =>
    rw [mark] at h
    cases h
    rw [eat?_within (no_mark rfl), mark, ← followedBy_eq_within]
    rfl

/-- A quantifier at the end of a pattern is the same if more symbols follow it, but these must
    not start another one. -/
theorem quantify_append (single : t.IsQuantifiable)
    (h : quantify t ⟨position, q⟩ = .ok (.repetition t b greedy, ⟨stop, []⟩))
    (no_mark : greedy = true → after.head? ≠ some (.ofChar '?')) :
    quantify t ⟨position, q ++ after⟩ =
      if startsQuantifier ⟨stop, after⟩ then .error (.malformed stop .multipleRepeat)
      else .ok (.repetition t b greedy, ⟨stop, after⟩) := by
  unfold quantify at h
  obtain ⟨read, bounds_eq, h⟩ := bind_eq_ok_iff.1 h
  cases read with
  | none =>
    -- the term is not a repetition itself
    have eq : t = .repetition t b greedy := congrArg Prod.fst (Except.ok.inj h)
    rw [eq] at single
    exact single.elim
  | some read =>
    obtain ⟨bounds, afterBounds⟩ := read
    simp only at h
    split at h
    · rename_i can_repeat
      split at h
      · cases h
      · obtain ⟨tree_eq, stop_eq⟩ := Prod.mk.inj (Except.ok.inj h)
        obtain ⟨-, rfl, greedy_eq⟩ := Tree.repetition.inj tree_eq
        have bounds_longer : readBounds ⟨position, q ++ after⟩ = _ :=
          readBounds_followedBy bounds_eq
        have greediness := readGreediness_append (Prod.ext greedy_eq stop_eq) no_mark
        unfold quantify
        rw [bounds_longer]
        simp only [bind, Except.bind, can_repeat, if_true, greediness]
    · cases h

/-! ## Second quantifiers -/

/-- A second quantifier, after one that is greedy or not, and the numbers it holds. A question
    mark after a greedy quantifier is the lazy mark of that one. -/
inductive SecondQuantifier : Bool → Nat → Option Nat → List Symbol → Prop where
  /-- The mark `*`. -/
  | star {greedy : Bool} : SecondQuantifier greedy 0 none (ofChars ['*'])
  /-- The mark `+`. -/
  | plus {greedy : Bool} : SecondQuantifier greedy 1 none (ofChars ['+'])
  /-- The mark `?` after a lazy quantifier. -/
  | question : SecondQuantifier false 0 (some 1) (ofChars ['?'])
  /-- Braces with one of the forms of a quantifier. -/
  | braces {greedy : Bool} {least : Nat} {most : Option Nat} {text : List Symbol}
      (form : BracesForm least most text) : SecondQuantifier greedy least most text

variable {least : Nat} {most : Option Nat}

/-- A character that can stand after the opening brace of a quantifier. -/
def InBraces (ch : Char) : Prop := ch.isDigit = true ∨ ch = ',' ∨ ch = '}'

theorem BracesForm.chars_eq (form : BracesForm least most r) :
    ∃ chars, r = ofChars ('{' :: chars) ∧ ∀ ch ∈ chars, InBraces ch := by
  cases form with
  | @exactly digits _ all =>
    refine ⟨digits ++ ['}'], by simp [ofChars], ?_⟩
    intro ch ch_mem
    rcases List.mem_append.1 ch_mem with digit | closing
    · exact Or.inl (all ch digit)
    · exact Or.inr (Or.inr (List.mem_singleton.1 closing))
  | @between lower upper lower_all upper_all =>
    refine ⟨lower ++ ',' :: (upper ++ ['}']), by simp [ofChars], ?_⟩
    intro ch ch_mem
    simp only [List.mem_append, List.mem_cons, List.not_mem_nil, or_false] at ch_mem
    rcases ch_mem with digit | comma | digit | closing
    · exact Or.inl (lower_all ch digit)
    · exact Or.inr (Or.inl comma)
    · exact Or.inl (upper_all ch digit)
    · exact Or.inr (Or.inr closing)

theorem SecondQuantifier.head?_ne (second : SecondQuantifier greedy least most r)
    (after : List Symbol) (is_greedy : greedy = true) :
    (r ++ after).head? ≠ some (.ofChar '?') := by
  intro starts
  cases second with
  | star => exact absurd (eq_of_starts starts) (by decide)
  | plus => exact absurd (eq_of_starts starts) (by decide)
  | question => cases is_greedy
  | braces form =>
    obtain ⟨chars, rfl, -⟩ := form.chars_eq
    exact absurd (eq_of_starts starts) (by decide)

/-- A second quantifier that is a mark has admissible numbers. -/
theorem SecondQuantifier.admissible_or_braces (second : SecondQuantifier greedy least most r) :
    Admissible least most ∨ BracesForm least most r := by
  have one_fits : 1 < UInt32.size := by decide
  cases second with
  | star => exact Or.inl ⟨Nat.zero_lt_of_lt one_fits, nofun⟩
  | plus => exact Or.inl ⟨one_fits, nofun⟩
  | question =>
    refine Or.inl ⟨Nat.zero_lt_of_lt one_fits, ?_⟩
    rintro m ⟨⟩
    exact ⟨one_fits, Nat.zero_le 1⟩
  | braces form => exact Or.inr form

theorem startsQuantifier_of_braces (form : BracesForm least most r) (after : List Symbol) :
    startsQuantifier ⟨position, r ++ after⟩ = true ↔ Admissible least most := by
  unfold startsQuantifier
  constructor
  · intro starts
    rcases form.admissible_or after with admissible | ⟨offset, long⟩ |
      ⟨m, rfl, m_fits, least_fits, reversed⟩
    · exact admissible
    · rw [readBounds_of_longNumber long] at starts
      cases starts
    · rw [readBounds_of_reversed form m_fits least_fits reversed] at starts
      cases starts
  · intro admissible
    rw [readBounds_of_braces form admissible]

/-- A second quantifier is noticed exactly if its numbers are admissible. -/
theorem SecondQuantifier.startsQuantifier_iff (second : SecondQuantifier greedy least most r)
    (after : List Symbol) :
    startsQuantifier ⟨position, r ++ after⟩ = true ↔ Admissible least most := by
  rcases second.admissible_or_braces with admissible | form
  · cases second with
    | star | plus | question =>
      refine iff_of_true ?_ admissible
      simp [startsQuantifier, readBounds, ofChars]
    | braces form => exact startsQuantifier_of_braces form after
  · exact startsQuantifier_of_braces form after

/-! ## Braces as literals -/

theorem readPiece_inBraces {ch : Char} (inside : InBraces ch) :
    readPiece ⟨position, .ofChar ch :: after⟩ =
      .ok (some (.term (.literal (.ofChar ch)), ⟨position + 1, after⟩)) := by
  by_cases closing : ch = '}'
  · subst closing
    simp [readPiece, readTerm, bind, Except.bind]
  · apply readPiece_plain
    intro stands
    have only_closing : ∀ ch ∈ ['.', '(', ')', '[', ']', '|', '\\', '*', '+', '?', '{', '}', '^',
        '$', '-'], InBraces ch → ch = '}' := by simp [InBraces]
    exact closing (only_closing ch (of_decide_eq_true stands) inside)

/-- Inside braces a character is read as itself. -/
theorem readAsItself_inBraces {ch : Char} (inside : InBraces ch) :
    ReadAsItself (fun s => [s]) (.ofChar ch) where
  piece _ _ := readPiece_inBraces inside
  quiet _ := by
    have no_mark : ∀ ch ∈ ['*', '+', '?', '{'], ¬ InBraces ch := by simp [InBraces]
    exact quiet_cons fun mark => no_mark ch mark inside

/-- At the end of a pattern, a brace that opens no quantifier and the characters after it are
    literals. -/
theorem leads_inBraces {chars : List Char} (all : ∀ ch ∈ chars, InBraces ch)
    (groups : List OpenGroup) (level : Level) (position : Nat) :
    Progress.Leads ⟨groups, level, ⟨position, ofChars ('{' :: chars)⟩⟩
      ⟨groups, ⟨level.branches, ((ofChars ('{' :: chars)).map .literal).reverse ++ level.terms⟩,
        ⟨position + (chars.length + 1), []⟩⟩ := by
  have themselves : ∀ s ∈ ofChars chars, ReadAsItself (fun s => [s]) s := by
    intro s s_mem
    obtain ⟨ch, ch_mem, rfl⟩ := List.mem_map.1 s_mem
    exact readAsItself_inBraces (all ch ch_mem)
  have brace : readPiece ⟨position, .ofChar '{' :: ofChars chars⟩ =
      .ok (some (.term (.literal (.ofChar '{')), ⟨position + 1, ofChars chars⟩)) := by
    simp [readPiece, readTerm, bind, Except.bind]
  have quiet := quiet_literals themselves quiet_nil
  have row := @leads_literals groups (position + 1) [] _ _ themselves quiet_nil
    (level.add (.literal (.ofChar '{')))
  simp only [List.flatMap_singleton', List.append_nil] at quiet row
  have led := row.head (.term (p := ⟨groups, level, _⟩) brace (quantify_of_quiet quiet))
  have length_eq : position + 1 + (ofChars chars).length = position + (chars.length + 1) := by
    rw [ofChars, List.length_map]
    omega
  rw [length_eq] at led
  simpa [Level.add, ofChars] using led

/-- Braces after a term that is quantified already are literals if they are no quantifier. -/
theorem run_braces (form : BracesForm least most r) (term : Draft) :
    Progress.run ⟨[], Level.empty.add term, ⟨position, r⟩⟩ =
      .ok (.concat (term :: r.map .literal)) := by
  obtain ⟨chars, rfl, all⟩ := form.chars_eq
  rw [Progress.run_eq_of_leads (leads_inBraces all [] (Level.empty.add term) position)]
  apply Progress.run_of_finished
  refine Progress.step_eq_finished_iff.2 ⟨rfl, rfl, rfl, ?_⟩
  simp [Level.tree, Level.branch, Level.add, Level.empty, Tree.ofBranches, Tree.ofTerms, ofChars]

/-! ## The whole pattern -/

variable {a : Alphabet} {x : List Symbol} {u : Tree SymbolSet}

/-- A pattern whose tree is a repetition is read as a repetition. -/
theorem exists_repetition_of_over {e : Draft} (repeated : e.over a = .repetition u b greedy) :
    ∃ body, e = .repetition body b greedy := by
  cases e with
  | repetition body bounds greedy' =>
    obtain ⟨-, rfl, rfl⟩ := Tree.repetition.inj repeated
    exact ⟨body, rfl⟩
  | literal _ | wildcard | bracket _ _ | shorthand _ | concat _ | alternation _ | group _ _ _
  | look _ _ _ | anchor _ => cases repeated

/-- If a pattern that is one term becomes a repetition by what is written after it, that is a
    quantifier of the term, and nothing else. -/
theorem quantify_of_read {e : Draft} (h : read x = .ok t) (single : t.IsQuantifiable)
    (accepted : read (x ++ q) = .ok e) (repeated : e.over a = .repetition u b greedy) :
    quantify t ⟨x.length, q⟩ = .ok (.repetition t b greedy, ⟨x.length + q.length, []⟩) := by
  obtain ⟨body, rfl⟩ := exists_repetition_of_over repeated
  rw [read_append h single, readOn] at accepted
  -- a term after the quantified one would make a concatenation
  obtain ⟨⟨term, stop⟩, quantified, run_eq⟩ := bind_eq_ok_iff.1 accepted
  obtain ⟨no_rest, rfl⟩ := Progress.eq_of_run_single run_eq trivial
  obtain ⟨reaches, term_eq⟩ := of_quantify quantified
  have body_eq : body = t := by
    rcases term_eq with rfl | ⟨-, bounds, greedy', -, term_eq⟩
    · exact single.elim
    · exact (Tree.repetition.inj term_eq).1
  have position_eq := reaches.position_add_remaining
  obtain ⟨position, rest⟩ := stop
  obtain rfl : rest = [] := no_rest
  have position_eq : position = x.length + q.length := position_eq
  rw [quantified, position_eq, body_eq]

/-- What becomes of a second quantifier.

    Let a pattern be a single term that can be quantified, and let `q` be a quantifier on it,
    with its lazy mark if it has one. A second quantifier whose numbers are admissible is refused
    as such, whatever follows it. One whose numbers are not is read as literals: it is accepted
    after all. -/
theorem parse_second_quantifier (parsed : parse a x = .ok u) (single : u.IsQuantifiable)
    (accepted : parse a (x ++ q) = .ok (.repetition u b greedy))
    (second : SecondQuantifier greedy least most r) :
    (Admissible least most → ∀ w, parse a (x ++ q ++ r ++ w) =
      .error (.malformed (x.length + q.length) .multipleRepeat)) ∧
    (¬ Admissible least most → parse a (x ++ q ++ r) =
      .ok (.concat (.repetition u b greedy :: r.map .literal))) := by
  obtain ⟨t, t_read, rfl⟩ := parse_eq_ok_iff.1 parsed
  obtain ⟨e, e_read, repeated⟩ := parse_eq_ok_iff.1 accepted
  have t_single : t.IsQuantifiable := Tree.isQuantifiable_map.1 single
  have quantified := quantify_of_read t_read t_single e_read repeated
  have read_second (w : List Symbol) : read (x ++ q ++ r ++ w) =
      readOn t ⟨x.length, q ++ (r ++ w)⟩ := by
    rw [List.append_assoc, List.append_assoc, read_append t_read t_single]
  constructor
  · intro admissible w
    have refused := quantify_append t_single quantified (second.head?_ne w)
    rw [if_pos ((second.startsQuantifier_iff w).2 admissible)] at refused
    rw [parse, read_second w, readOn, refused]
    rfl
  · -- what cannot be read as a quantifier goes unnoticed, and is read again as terms
    intro not_admissible
    have unnoticed : ¬ startsQuantifier ⟨x.length + q.length, r⟩ = true := by
      intro starts
      rw [← List.append_nil r] at starts
      exact not_admissible ((second.startsQuantifier_iff []).1 starts)
    have no_mark : greedy = true → r.head? ≠ some (.ofChar '?') := by
      simpa only [List.append_nil] using second.head?_ne []
    have left := quantify_append t_single quantified no_mark
    rw [if_neg unnoticed] at left
    have braces : BracesForm least most r :=
      second.admissible_or_braces.resolve_left not_admissible
    have all_read : read (x ++ q ++ r) =
        .ok (.concat (.repetition t b greedy :: r.map .literal)) := by
      rw [List.append_assoc, read_append t_read t_single]
      exact bind_eq_ok_iff.2 ⟨_, left, run_braces braces _⟩
    refine parse_eq_ok_iff.2 ⟨_, all_read, ?_⟩
    simp [Draft.over, Tree.map]

/-- A lazy quantifier on a group, and braces after it. -/
theorem parse_second_quantifier_lazy :
    let x := ofChars ['(', 'a', '|', 'b', ')']
    let u : Tree SymbolSet :=
      .group (.alternation [.literal (.ofChar 'a'), .literal (.ofChar 'b')]) true none
    parse .text x = .ok u ∧
      parse .text (x ++ ofChars ['+', '?']) = .ok (.repetition u ⟨1, none⟩ false) ∧
      parse .text (x ++ ofChars ['+', '?'] ++ ofChars ['\x7b', ',', '2', '\x7d'] ++ ofChars [')']) =
        .error (.malformed 7 .multipleRepeat) := by
  intro x u
  have parsed : parse .text x = .ok u := by cbv
  have accepted : parse .text (x ++ ofChars ['+', '?']) = .ok (.repetition u ⟨1, none⟩ false) := by
    cbv
  have braces : BracesForm 0 (some 2) (ofChars ['\x7b', ',', '2', '\x7d']) :=
    @BracesForm.between [] ['2'] (by simp [AllDigits]) (by simp [AllDigits])
  have admissible : Admissible 0 (some 2) := ⟨by decide, by simp; decide⟩
  have refused := (parse_second_quantifier parsed trivial accepted (.braces braces)).1 admissible
  exact ⟨parsed, accepted, refused _⟩

/-- The numbers of a second quantifier may be in the wrong order, and then it is accepted. -/
theorem reversed_second_quantifier_accepted :
    let x := ofChars ['a']
    let q := ofChars ['*']
    let r := ofChars ['\x7b', '5', ',', '2', '\x7d']
    let u : Tree SymbolSet := .literal (.ofChar 'a')
    parse .text x = .ok u ∧ u.IsQuantifiable ∧
      parse .text (x ++ q) = .ok (.repetition u ⟨0, none⟩ true) ∧
      SecondQuantifier true 5 (some 2) r ∧
      parse .text (x ++ q ++ r) =
        .ok (.concat (.repetition u ⟨0, none⟩ true :: r.map .literal)) := by
  intro x q r u
  have braces : BracesForm 5 (some 2) r :=
    @BracesForm.between ['5'] ['2'] (by simp [AllDigits]) (by simp [AllDigits])
  exact ⟨by cbv, trivial, by cbv, .braces braces, by cbv⟩

end PatternSampler.Notation
