import PatternSampler.Proofs.Notation.Image
import PatternSampler.Proofs.Notation.Surroundings

/-! # Patterns in patterns

  A pattern that can be read means the same inside a longer one: in parentheses it becomes the
  body of a group, and beside a bar its branches become branches of the alternation
  (`parse_embedded`).

  The proof runs the reader on the pattern alone and on the longer one side by side.
  `Surroundings` say what the longer pattern adds, and `Surroundings.place` puts a state of the
  one run into the other. Each step of the run alone is a step of the run in place, and so the
  run in place reaches the end of the pattern with the same level, wherever it stands.
-/

namespace PatternSampler.Notation

/-! ## Placing a run -/

/-- What stands around a pattern in a longer one, when the reader comes to it. -/
structure Surroundings where
  /-- How many symbols lie before the pattern. -/
  before : Nat
  /-- The symbols after it. -/
  after : List Symbol
  /-- The groups that are open around it, innermost first. -/
  groups : List OpenGroup
  /-- The branches before it on the level where it stands, latest first. -/
  branches : List Draft

namespace Surroundings

variable (s : Surroundings)

/-- The outermost level of the pattern, with the branches before it. -/
def outermost (level : Level) : Level := ⟨level.branches ++ s.branches, level.terms⟩

/-- The level under way and the groups around it. Where the pattern has no group open, it goes
    on with the level on which it stands. -/
def stack (level : Level) : List OpenGroup → Level × List OpenGroup
  | [] => (s.outermost level, s.groups)
  | group :: groups =>
    let (outer, others) := stack group.outer groups
    (level, ⟨s.before + group.opened, group.opening, outer⟩ :: others)

/-- A state of reading the pattern alone, as a state of reading the longer one. -/
def place (p : Progress) : Progress :=
  ⟨(s.stack p.level p.groups).2, (s.stack p.level p.groups).1,
    p.cursor.within s.before s.after⟩

theorem outermost_of_no_branches (none_before : s.branches = []) (level : Level) :
    s.outermost level = level := by
  unfold outermost
  rw [none_before, List.append_nil]

theorem stack_add (level : Level) (groups : List OpenGroup) (term : Draft) :
    s.stack (level.add term) groups =
      ((s.stack level groups).1.add term, (s.stack level groups).2) := by
  cases groups with
  | nil => rfl
  | cons group groups => rfl

theorem stack_split (level : Level) (groups : List OpenGroup) :
    s.stack level.split groups =
      ((s.stack level groups).1.split, (s.stack level groups).2) := by
  cases groups with
  | nil => rfl
  | cons group groups => rfl

variable {s}

/-- A quantified term is the same in place. -/
theorem quantify_place (detached : Detached s.after) {t term : Draft} {c d : Cursor}
    (h : quantify t c = .ok (term, d)) :
    quantify t (c.within s.before s.after) = .ok (term, d.within s.before s.after) := by
  rw [quantify_within detached, h]
  rfl

/-- Each step of reading the pattern alone is a step of reading it in place. -/
theorem onward_place (detached : Detached s.after) {p q : Progress} (h : p.Onward q) :
    (s.place p).Onward (s.place q) := by
  have no_mark : s.after.head? ≠ some (.ofChar '?') := detached.head?_ne (by simp)
  have piece_within {piece : Piece} {stop : Cursor}
      (piece_eq : readPiece p.cursor = .ok (some (piece, stop))) :
      readPiece (s.place p).cursor = .ok (some (piece, stop.within s.before s.after)) :=
    readPiece_within piece_eq fun _ _ _ => no_mark
  cases h with
  | bar piece =>
    unfold place
    rw [stack_split]
    exact .bar (piece_within piece)
  | opening piece =>
    exact .opening (piece_within piece)
  | @closing group outer term closed stop piece groups quantified =>
    -- the group was opened in the pattern, so its level is not the one the pattern stands on
    have groups_place : (s.place p).groups = (s.stack p.level (group :: outer)).2 := by
      rw [← groups]
      rfl
    have level_place : (s.place p).level = p.level := by
      unfold place
      rw [groups]
      rfl
    have quantified_place := quantify_place detached quantified
    rw [← level_place] at quantified_place
    have closed_place := Progress.Onward.closing (piece_within piece) groups_place quantified_place
    unfold place at closed_place ⊢
    rw [stack_add]
    exact closed_place
  | term piece quantified =>
    unfold place
    rw [stack_add]
    exact .term (piece_within piece) (quantify_place detached quantified)

end Surroundings

/-! ## The end of the pattern -/

variable {p q : List Symbol} {d e : Draft}

/-- The branches of a level are those of its tree. -/
theorem Level.Normal.branches_tree {symbols : List Symbol} {left : Nat} {level : Level}
    (h : level.Normal symbols left) :
    level.tree.branches = (level.branch :: level.branches).reverse := by
  unfold Level.tree
  by_cases single : level.branches = []
  · rw [single]
    exact h.branch.1.branches_eq
  · have several : (level.branch :: level.branches).reverse.length ≠ 1 := by
      intro one
      have none_before : level.branches.length = 0 := by simpa using one
      exact single (List.length_eq_zero_iff.1 none_before)
    rw [Tree.ofBranches_of_length_ne_one several]
    rfl

/-- The level that a pattern is read to: it has the pattern's tree, and its branches. -/
structure Level.Holds (level : Level) (d : Draft) : Prop where
  /-- The tree. -/
  tree : level.tree = d
  /-- The branches, with the one under way. -/
  branches : (level.branch :: level.branches).reverse = d.branches

/-- A pattern that can be read alone is read in place to the same level, and the run goes on
    with what follows. -/
theorem run_place (h : read p = .ok d) (s : Surroundings) (detached : Detached s.after) :
    ∃ level position, level.Holds d ∧
      Progress.run ⟨s.groups, ⟨s.branches, []⟩, ⟨s.before, p ++ s.after⟩⟩ =
        Progress.run ⟨s.groups, s.outermost level, ⟨position, s.after⟩⟩ := by
  let Inv (now : Progress) : Prop :=
    now.Normal p ∧ (s.place (.start p)).run = (s.place now).run
  have kept : ∀ now later, Inv now → now.Onward later → Inv later := by
    intro now later inv onward
    obtain ⟨normal, run_eq⟩ := inv
    refine ⟨normal.onward onward, ?_⟩
    rw [run_eq]
    exact Progress.run_eq_of_onward (Surroundings.onward_place detached onward)
  have start : Inv (.start p) := ⟨Progress.normal_start p, rfl⟩
  obtain ⟨last, ⟨normal, run_eq⟩, groups, no_rest, d_eq⟩ := Progress.run_induction kept start h
  have holds : last.level.Holds d := by
    rw [d_eq]
    exact ⟨rfl, normal.level.branches_tree.symm⟩
  refine ⟨last.level, s.before + last.cursor.position, holds, ?_⟩
  -- at its end the pattern has no group open and no symbol left
  have end_eq : s.place last =
      ⟨s.groups, s.outermost last.level, ⟨s.before + last.cursor.position, s.after⟩⟩ := by
    unfold Surroundings.place
    rw [groups, Cursor.within_of_rest_eq_nil no_rest]
    rfl
  rw [← end_eq]
  exact run_eq

/-- No pattern begins with a question mark, so none can be taken for a group's extension. -/
theorem head?_ne_of_read (h : read p = .ok d) : p.head? ≠ some (.ofChar '?') := by
  intro starts
  obtain ⟨rest, rfl⟩ := List.head?_eq_some_iff.1 starts
  have refused : (Progress.start (.ofChar '?' :: rest)).step =
      .error (.malformed 0 .nothingToRepeat) := by
    simp [Progress.step, Progress.start, Cursor.start, readPiece, readTerm, bind, Except.bind]
  have failed : read (.ofChar '?' :: rest) = _ := Progress.run_of_error refused
  rw [failed] at h
  cases h

/-! ## Groups -/

/-- A pattern in parentheses is the body of the group, and the group is a term of the level
    around it, with the quantifier that follows. -/
theorem run_wrap {o : Opening} {opening : List Symbol} (form : OpeningForm o opening)
    (h : read p = .ok d) (groups : List OpenGroup) (level : Level) (before : Nat)
    (after : List Symbol) :
    ∃ position, ∀ term stop, quantify (o.wrap d) ⟨position, after⟩ = .ok (term, stop) →
      Progress.run ⟨groups, level, ⟨before, opening ++ (p ++ .ofChar ')' :: after)⟩⟩ =
        Progress.run ⟨groups, level.add term, stop⟩ := by
  -- even an empty body does not turn the parenthesis into another opening
  have no_mark : (p ++ .ofChar ')' :: after).head? ≠ some (.ofChar '?') := by
    cases p with
    | nil =>
      intro starts
      exact absurd (eq_of_starts starts) (by decide)
    | cons first rest =>
      show some first ≠ some (.ofChar '?')
      exact head?_ne_of_read h
  have opened := @Progress.run_eq_of_onward ⟨groups, level, ⟨before, _⟩⟩ _
    (.opening (readPiece_of_form form fun _ => no_mark))
  -- the body is read on a level of its own, with the group open around it
  let s : Surroundings :=
    ⟨before + opening.length, .ofChar ')' :: after, ⟨before, o, level⟩ :: groups, []⟩
  obtain ⟨inner, position, holds, read_on⟩ := run_place h s (detached_cons (Or.inl rfl))
  refine ⟨position + 1, ?_⟩
  intro term stop quantified
  have quantified_inner :
      quantify (o.wrap inner.tree) ⟨position + 1, after⟩ = .ok (term, stop) := by
    rw [holds.tree]
    exact quantified
  have closed := Progress.run_eq_of_onward
    (.closing (p := ⟨⟨before, o, level⟩ :: groups, inner, _⟩) readPiece_closing rfl
      quantified_inner)
  rw [s.outermost_of_no_branches rfl] at read_on
  exact opened.trans (read_on.trans closed)

/-- A single term up to the end of the pattern is the whole tree. -/
theorem run_single (term : Draft) (position : Nat) :
    Progress.run ⟨[], Level.empty.add term, ⟨position, []⟩⟩ = .ok term := by
  apply Progress.run_of_finished
  apply Progress.step_eq_finished_iff.2
  exact ⟨rfl, rfl, rfl, rfl⟩

/-- A pattern in parentheses is a group. -/
theorem read_wrap {o : Opening} {opening : List Symbol} (form : OpeningForm o opening)
    (h : read p = .ok d) : read (opening ++ p ++ [.ofChar ')']) = .ok (o.wrap d) := by
  obtain ⟨position, run_eq⟩ := run_wrap form h [] .empty 0 []
  show Progress.run ⟨[], .empty, ⟨0, _⟩⟩ = _
  rw [List.append_assoc, run_eq _ _ (quantify_of_quiet quiet_nil)]
  exact run_single _ _

/-- A pattern in parentheses with a quantifier is a repeated group. -/
theorem read_repetition {o : Opening} {opening mark : List Symbol} {b : Bounds}
    (form : OpeningForm o opening) (h : read p = .ok d) (bounds_form : QuantifierForm b mark)
    (consistent : b.Consistent) (greedy : Bool) :
    read (opening ++ p ++ [.ofChar ')'] ++ mark ++ writeGreediness greedy) =
      .ok (.repetition (o.wrap d) b greedy) := by
  obtain ⟨position, run_eq⟩ :=
    run_wrap form h [] .empty 0 (mark ++ (writeGreediness greedy ++ []))
  have can_repeat : repeatable (o.wrap d) = true := by
    cases o with
    | group capturing name => rfl
    | look side negative => rfl
  have quantified := @quantify_of_form position [] _ (o.wrap d) b mark bounds_form greedy
    can_repeat consistent (startsQuantifier_of_quiet quiet_nil)
  have symbols_eq : opening ++ p ++ [.ofChar ')'] ++ mark ++ writeGreediness greedy =
      opening ++ (p ++ .ofChar ')' :: (mark ++ (writeGreediness greedy ++ []))) := by
    simp only [List.append_assoc, List.cons_append, List.nil_append, List.append_nil]
  show Progress.run ⟨[], .empty, ⟨0, _⟩⟩ = _
  rw [symbols_eq, run_eq _ _ quantified]
  exact run_single _ _

/-! ## Alternations -/

/-- The level of a pattern after the branches of another one. -/
theorem tree_append {first second : Level} (first_holds : first.Holds d)
    (second_holds : second.Holds e) :
    Level.tree ⟨second.branches ++ first.split.branches, second.terms⟩ =
      .alternation (d.branches ++ e.branches) := by
  have branches_eq : (Level.branch ⟨second.branches ++ first.split.branches, second.terms⟩ ::
      (second.branches ++ first.split.branches)).reverse = d.branches ++ e.branches := by
    rw [← first_holds.branches, ← second_holds.branches, ← List.reverse_append]
    rfl
  have several : (d.branches ++ e.branches).length ≠ 1 := by
    rw [← first_holds.branches, ← second_holds.branches]
    simp only [List.length_append, List.length_reverse, List.length_cons]
    omega
  unfold Level.tree
  rw [branches_eq]
  exact Tree.ofBranches_of_length_ne_one several

/-- Two patterns with a bar between them are the alternation of their branches. -/
theorem read_alternation (p_read : read p = .ok d) (q_read : read q = .ok e) :
    read (p ++ [.ofChar '|'] ++ q) = .ok (.alternation (d.branches ++ e.branches)) := by
  let left : Surroundings := ⟨0, .ofChar '|' :: q, [], []⟩
  obtain ⟨first, position, first_holds, first_run⟩ :=
    run_place p_read left (detached_cons (Or.inr rfl))
  rw [left.outermost_of_no_branches rfl] at first_run
  have bar_run : Progress.run ⟨[], first, ⟨position, .ofChar '|' :: q⟩⟩ =
      Progress.run ⟨[], first.split, ⟨position + 1, q⟩⟩ :=
    Progress.run_eq_of_onward (.bar readPiece_bar)
  -- the second pattern stands after the branches of the first
  let right : Surroundings := ⟨position + 1, [], [], first.split.branches⟩
  obtain ⟨second, position', second_holds, second_run⟩ := run_place q_read right detached_nil
  rw [List.append_nil] at second_run
  have finished : Progress.step ⟨[], right.outermost second, ⟨position', []⟩⟩ =
      .ok (.finished (.alternation (d.branches ++ e.branches))) := by
    apply Progress.step_eq_finished_iff.2
    exact ⟨rfl, rfl, rfl, (tree_append first_holds second_holds).symm⟩
  calc read (p ++ [.ofChar '|'] ++ q)
    _ = Progress.run ⟨[], .empty, ⟨0, p ++ .ofChar '|' :: q⟩⟩ := by
      rw [List.append_assoc]
      rfl
    _ = Progress.run ⟨[], first, ⟨position, .ofChar '|' :: q⟩⟩ := first_run
    _ = Progress.run ⟨[], first.split, ⟨position + 1, q⟩⟩ := bar_run
    _ = Progress.run ⟨[], right.outermost second, ⟨position', []⟩⟩ := second_run
    _ = .ok (.alternation (d.branches ++ e.branches)) := Progress.run_of_finished finished

/-! ## Trees over an alphabet -/

variable {a : Alphabet} {t u : Tree SymbolSet}

theorem parse_eq_ok_iff : parse a p = .ok t ↔ ∃ d, read p = .ok d ∧ d.over a = t := by
  unfold parse
  cases read p with
  | error e => simp [Except.map]
  | ok d => simp [Except.map]

theorem parse_eq_error_iff {e : Misreading} : parse a p = .error e ↔ read p = .error e := by
  unfold parse
  rcases read p with e' | d
  · simp only [Except.map]
    rw [Except.error.injEq, Except.error.injEq]
  · simp [Except.map]

theorem exists_parse_iff : (∃ t, parse a p = .ok t) ↔ ∃ d, read p = .ok d := by
  constructor
  · rintro ⟨t, parsed⟩
    obtain ⟨d, d_read, -⟩ := parse_eq_ok_iff.1 parsed
    exact ⟨d, d_read⟩
  · rintro ⟨d, d_read⟩
    exact ⟨d.over a, parse_eq_ok_iff.2 ⟨d, d_read, rfl⟩⟩

theorem branches_over (d : Draft) : (d.over a).branches = d.branches.map (Draft.over a) := by
  cases d with
  | alternation branches => exact Tree.mapList_eq_map (covered a) branches
  | _ => rfl

/-- A pattern means the same wherever it is embedded.

    In the parentheses of a group or a lookaround, written in any of the ways there are, its
    tree is the body, and a quantifier after the parenthesis repeats the whole with the bounds
    and the greediness that are written. Beside a bar, the branches of its tree stand with those
    of the other side. -/
theorem parse_embedded (p_parsed : parse a p = .ok t) (q_parsed : parse a q = .ok u) :
    (∀ o opening, OpeningForm o opening →
      parse a (opening ++ p ++ [.ofChar ')']) = .ok (o.wrap t) ∧
      ∀ b mark greedy, QuantifierForm b mark → b.Consistent →
        parse a (opening ++ p ++ [.ofChar ')'] ++ mark ++ writeGreediness greedy) =
          .ok (.repetition (o.wrap t) b greedy)) ∧
      parse a (p ++ [.ofChar '|'] ++ q) = .ok (.alternation (t.branches ++ u.branches)) := by
  obtain ⟨d, p_read, rfl⟩ := parse_eq_ok_iff.1 p_parsed
  obtain ⟨e, q_read, rfl⟩ := parse_eq_ok_iff.1 q_parsed
  constructor
  · intro o opening form
    constructor
    · exact parse_eq_ok_iff.2 ⟨_, read_wrap form p_read, over_wrap o d⟩
    · intro b mark greedy bounds_form consistent
      refine parse_eq_ok_iff.2 ⟨_, read_repetition form p_read bounds_form consistent greedy, ?_⟩
      rw [← over_wrap o d]
      rfl
  · refine parse_eq_ok_iff.2 ⟨_, read_alternation p_read q_read, ?_⟩
    rw [branches_over, branches_over, ← List.map_append]
    exact congrArg Tree.alternation (Tree.mapList_eq_map (covered a) (d.branches ++ e.branches))

/-- A pattern that ends inside braces, so that the reader looks past its end, and one that
    begins with a bracket around `]` and ends with an empty branch. -/
theorem parse_embedded_open_brace :
    let p := ofChars ['a', '\x7b', '2']
    let q := ofChars ['[', ']', '-', 'b', ']', '|']
    let t : Tree SymbolSet :=
      .concat [.literal (.ofChar 'a'), .literal (.ofChar '\x7b'), .literal (.ofChar '2')]
    let u : Tree SymbolSet := .alternation [.bracket ⟨[⟨0x5D, 0x62⟩]⟩ false, .concat []]
    let named : Opening := .group true (some "n")
    let opening := ofChars ['(', '?', 'P', '<', 'n', '>']
    parse .text p = .ok t ∧ parse .text q = .ok u ∧
      parse .text (opening ++ p ++ [.ofChar ')']) = .ok (named.wrap t) ∧
      parse .text (opening ++ p ++ ofChars [')', '\x7b', ',', '3', '\x7d', '?']) =
        .ok (.repetition (named.wrap t) ⟨0, some 3⟩ false) ∧
      parse .text (p ++ .ofChar '|' :: q) =
        .ok (.alternation [t, .bracket ⟨[⟨0x5D, 0x62⟩]⟩ false, .concat []]) := by
  intro p q t u named opening
  have p_parsed : parse .text p = .ok t := by cbv
  have bracket_read : Progress.step (.start q) =
      .ok (.onward ⟨[], ⟨[], [.bracket [.range 0x5D 0x62] false]⟩, ⟨5, [.ofChar '|']⟩⟩) := by cbv
  have q_parsed : parse .text q = .ok u := by
    unfold parse read
    rw [Progress.run_of_onward bracket_read]
    cbv
  have valid : ValidName "n" := ⟨'n', [], by decide, by decide, by simp⟩
  have upper : NumeralOrNone (some 3) ['3'] := .present ⟨by simp, by simp, by rfl⟩
  have embedded := parse_embedded p_parsed q_parsed
  have in_group := embedded.1 named _ (.named valid)
  have repeated := in_group.2 ⟨0, some 3⟩ _ false (.between .absent upper) (by decide)
  exact ⟨p_parsed, q_parsed, in_group.1, repeated, embedded.2⟩

end PatternSampler.Notation
