import PatternSampler.Proofs.Notation.Surroundings
import PatternSampler.Proofs.Notation.Nesting

/-! # Patterns that are one term

  A pattern whose tree can be quantified is one term: a leaf, or a group from its first symbol
  to its last. If more symbols come after it, the reader first reads the same term and then
  looks for a quantifier in them (`read_append`).

  That it is one term follows from the outermost level of the reader's state. As soon as a bar
  stands there, or a second term or group begins, it can only become an alternation or a
  concatenation (`Progress.Several`). So the group that begins with the pattern is the one that
  ends with it, and every step within it ends before the last parenthesis. There a step does the
  same whatever comes after the pattern.
-/

namespace PatternSampler.Notation

open Cursor

/-! ## The outermost level -/

namespace Progress

variable {p q : Progress} {c : Cursor} {t term : Draft}

/-- The level outside a row of open groups, where `level` is the one under way. -/
def levelOutside (level : Level) : List OpenGroup → Level
  | [] => level
  | group :: groups => levelOutside group.outer groups

/-- The level outside all groups, as far as it has been read. -/
def outermost (p : Progress) : Level := levelOutside p.level p.groups

/-- On the outermost level a bar has been read, or two terms have begun; one of them may be a
    group that is still open. -/
def Several (p : Progress) : Prop :=
  p.outermost.branches ≠ [] ∨ 2 ≤ p.outermost.terms.length + min 1 p.groups.length

theorem levelOutside_of_ne_nil {groups : List OpenGroup} (inside : groups ≠ [])
    (level other : Level) : levelOutside level groups = levelOutside other groups := by
  cases groups with
  | nil => exact absurd rfl inside
  | cons group groups => rfl

/-- What is read inside a group leaves the outermost level as it is. -/
theorem outermost_of_onward (h : p.Onward q) (inside : q.groups ≠ []) :
    q.outermost = p.outermost := by
  unfold outermost
  cases h with
  | bar _ => exact levelOutside_of_ne_nil inside _ _
  | opening _ => rfl
  | closing _ groups _ =>
    rw [groups]
    exact levelOutside_of_ne_nil inside _ _
  | term _ _ => exact levelOutside_of_ne_nil inside _ _

/-- Bars and terms are never taken back. -/
theorem Several.onward (several : p.Several) (h : p.Onward q) : q.Several := by
  by_cases inside : q.groups = []
  · obtain ⟨groups, level, cursor⟩ := p
    cases h with
    | bar _ =>
      left
      simp only at inside
      rw [outermost, inside]
      exact List.cons_ne_nil _ _
    | opening _ => cases inside
    | closing _ groups_eq _ =>
      -- the group that closes had begun already
      simp only at inside groups_eq
      rw [groups_eq, inside] at several
      simpa only [Several, outermost, inside, levelOutside, Level.add, List.length_cons,
        List.length_nil, Nat.zero_add, Nat.min_self, Nat.min_zero, Nat.add_zero] using several
    | term _ _ =>
      simp only at inside
      rw [inside] at several
      rcases several with bar | two
      · left
        rw [outermost, inside]
        exact bar
      · right
        rw [outermost, inside]
        simp only [outermost, levelOutside, List.length_nil, Nat.min_zero, Nat.add_zero] at two
        exact Nat.le_succ_of_le two
  · have more : min 1 p.groups.length ≤ min 1 q.groups.length := by
      have one : 0 < q.groups.length := List.length_pos_iff.2 inside
      omega
    unfold Several
    rw [outermost_of_onward h inside]
    rcases several with bar | two
    · exact Or.inl bar
    · exact Or.inr (Nat.le_trans two (Nat.add_le_add_left more _))

/-- Several terms or branches do not make a single term. -/
theorem not_isTerm_of_several (several : p.Several) (outside : p.groups = []) :
    ¬ p.level.tree.IsTerm := by
  intro is_term
  unfold Several outermost at several
  rw [outside] at several
  simp only [levelOutside, List.length_nil, Nat.min_zero, Nat.add_zero] at several
  unfold Level.tree at is_term
  by_cases bar : p.level.branches = []
  · have two : 2 ≤ p.level.terms.length := several.resolve_left fun ne => ne bar
    have not_one : p.level.terms.reverse.length ≠ 1 := by
      rw [List.length_reverse]
      omega
    rw [bar, Level.branch, Tree.ofTerms_of_length_ne_one not_one] at is_term
    exact is_term
  · have not_one : (p.level.branch :: p.level.branches).reverse.length ≠ 1 := by
      have some_before : 0 < p.level.branches.length := List.length_pos_iff.2 bar
      rw [List.length_reverse, List.length_cons]
      omega
    rw [Tree.ofBranches_of_length_ne_one not_one] at is_term
    exact is_term

theorem not_isTerm_of_run (several : p.Several) (h : p.run = .ok t) : ¬ t.IsTerm := by
  obtain ⟨last, last_several, outside, -, t_eq⟩ :=
    run_induction (fun _ _ => Several.onward) several h
  rw [t_eq]
  exact not_isTerm_of_several last_several outside

/-- A run that succeeds has ended, or goes on with a step. -/
theorem finished_or_onward_of_run (h : p.run = .ok t) :
    p.step = .ok (.finished t) ∨ ∃ q, p.Onward q ∧ q.run = .ok t := by
  unfold run at h
  split at h
  · cases h
  · rename_i finished
    cases h
    exact Or.inl finished
  · rename_i q onward
    exact Or.inr ⟨q, step_eq_onward_iff.1 onward, h⟩

/-- After the first term nothing may come, if the whole is to be a term. -/
theorem eq_of_run_single (h : run ⟨[], Level.empty.add term, c⟩ = .ok t) (is_term : t.IsTerm) :
    c.rest = [] ∧ t = term := by
  rcases finished_or_onward_of_run h with finished | ⟨q, onward, q_run⟩
  · obtain ⟨-, -, no_rest, t_eq⟩ := step_eq_finished_iff.1 finished
    exact ⟨no_rest, t_eq⟩
  · have several : q.Several := by
      cases onward with
      | bar _ => exact Or.inl (List.cons_ne_nil _ _)
      | opening _ => exact Or.inr (Nat.le_refl 2)
      | closing _ groups _ => cases groups
      | term _ _ => exact Or.inr (Nat.le_refl 2)
    exact absurd is_term (not_isTerm_of_run several q_run)

end Progress

/-! ## More symbols after a pattern -/

/-- The same place, with more symbols at the end of the pattern. -/
def Cursor.followedBy (c : Cursor) (after : List Symbol) : Cursor := ⟨c.position, c.rest ++ after⟩

/-- The same state, with more symbols at the end of the pattern. -/
def Progress.followedBy (p : Progress) (after : List Symbol) : Progress :=
  ⟨p.groups, p.level, p.cursor.followedBy after⟩

variable {p q : Progress} {c d : Cursor} {t : Draft} {x after : List Symbol}

theorem followedBy_eq_within : c.followedBy after = c.within 0 after := by
  rw [followedBy, within, Nat.zero_add]

theorem readPiece_followedBy {piece : Piece} (h : readPiece c = .ok (some (piece, d)))
    (no_mark : ∀ o, piece = .opening o → d.rest = [] → after.head? ≠ some (.ofChar '?')) :
    readPiece (c.followedBy after) = .ok (some (piece, d.followedBy after)) := by
  rw [followedBy_eq_within, followedBy_eq_within]
  exact readPiece_within h no_mark

/-- The pattern ends with a parenthesis that is still to come. -/
def Closes (c : Cursor) : Prop := ∃ inside, c.rest = inside ++ [.ofChar ')']

theorem Closes.rest_ne_nil (closes : Closes c) : c.rest ≠ [] := by
  obtain ⟨inside, rest_eq⟩ := closes
  rw [rest_eq]
  exact List.append_ne_nil_of_right_ne_nil inside (List.cons_ne_nil _ _)

theorem Closes.of_reaches (closes : Closes d) (h : c.Reaches d) : Closes c := by
  obtain ⟨inside, rest_eq⟩ := closes
  obtain ⟨passed, rest_eq', -⟩ := h
  refine ⟨passed ++ inside, ?_⟩
  rw [rest_eq', rest_eq, List.append_assoc]

/-- A quantifier that is looked for before the last parenthesis is the same whatever comes after
    it: both patterns are the symbols up to it, with something detached at their end. -/
theorem quantify_followedBy {term : Draft} (closes : Closes c)
    (h : quantify t c = .ok (term, d)) :
    quantify t (c.followedBy after) = .ok (term, d.followedBy after) := by
  obtain ⟨inside, rest_eq⟩ := closes
  -- a parenthesis continues no quantifier, so what is read stops before it
  let up_to : Cursor := ⟨c.position, inside⟩
  have c_eq : c = up_to.within 0 [.ofChar ')'] := by
    rw [← followedBy_eq_within, followedBy, ← rest_eq]
  have longer_eq : c.followedBy after = up_to.within 0 (.ofChar ')' :: after) := by
    rw [← followedBy_eq_within, followedBy, followedBy, rest_eq, List.append_assoc]
    rfl
  rw [c_eq, quantify_within (detached_cons (Or.inl rfl))] at h
  rw [longer_eq, quantify_within (detached_cons (Or.inl rfl))]
  cases quantified : quantify t up_to with
  | error e =>
    rw [quantified] at h
    cases h
  | ok read =>
    rw [quantified] at h
    cases h
    rw [followedBy_eq_within]
    simp [carry, placed, within]

theorem reaches_of_onward (h : p.Onward q) : p.cursor.Reaches q.cursor := by
  cases h with
  | bar piece => exact (of_readPiece piece).1
  | opening piece => exact (of_readPiece piece).1
  | closing piece _ quantified => exact (of_readPiece piece).1.trans (of_quantify quantified).1
  | term piece quantified => exact (of_readPiece piece).1.trans (of_quantify quantified).1

/-- A step is the same with more symbols at the end, if its piece and its quantifier are. -/
theorem onward_followedBy_of (h : p.Onward q)
    (piece_longer : ∀ piece stop, readPiece p.cursor = .ok (some (piece, stop)) →
      stop.Reaches q.cursor →
      readPiece (p.cursor.followedBy after) = .ok (some (piece, stop.followedBy after)))
    (quantify_longer : ∀ c (t term : Draft), quantify t c = .ok (term, q.cursor) →
      quantify t (c.followedBy after) = .ok (term, q.cursor.followedBy after)) :
    (p.followedBy after).Onward (q.followedBy after) := by
  rcases h with piece | piece | ⟨piece, groups, quantified⟩ | ⟨piece, quantified⟩
  · exact .bar (piece_longer _ _ piece (.refl _))
  · exact .opening (p := p.followedBy after) (piece_longer _ _ piece (.refl _))
  · exact .closing (p := p.followedBy after) (piece_longer _ _ piece (of_quantify quantified).1)
      groups (quantify_longer _ _ _ quantified)
  · exact .term (p := p.followedBy after) (piece_longer _ _ piece (of_quantify quantified).1)
      (quantify_longer _ _ _ quantified)

/-- A step before the last parenthesis is the same whatever comes after the pattern. -/
theorem onward_followedBy (h : p.Onward q) (closes : Closes q.cursor) :
    (p.followedBy after).Onward (q.followedBy after) := by
  refine onward_followedBy_of h ?_ ?_
  · intro piece stop piece_eq to_end
    exact readPiece_followedBy piece_eq
      fun _ _ ended => absurd ended (closes.of_reaches to_end).rest_ne_nil
  · intro c t term quantified
    exact quantify_followedBy (closes.of_reaches (of_quantify quantified).1) quantified

/-! ## The first term -/

/-- Reading goes on after the first term of a pattern: with its quantifier, and then with what
    follows. -/
def readOn (t : Draft) (c : Cursor) : Except Misreading Draft := do
  let (term, stop) ← quantify t c
  Progress.run ⟨[], Level.empty.add term, stop⟩

/-- A term that a quantifier could stand after has none. -/
theorem eq_of_quantify {term : Draft} (h : quantify t c = .ok (term, d))
    (single : term.IsQuantifiable) : term = t ∧ d = c := by
  unfold quantify at h
  obtain ⟨read, -, h⟩ := bind_eq_ok_iff.1 h
  cases read with
  | none =>
    cases h
    exact ⟨rfl, rfl⟩
  | some read =>
    simp only at h
    split at h
    · split at h
      · cases h
      · cases h
        exact single.elim
    · cases h

theorem readOn_of_run {term : Draft} (piece : readPiece c = .ok (some (.term term, d))) :
    Progress.run ⟨[], .empty, c⟩ = readOn term d := by
  unfold readOn
  cases quantified : quantify term d with
  | error e =>
    apply Progress.run_of_error
    simp [Progress.step, piece, quantified, bind, Except.bind]
  | ok read => exact Progress.run_eq_of_onward (.term piece quantified)

theorem readOn_of_closing {group : OpenGroup} {level : Level} (first : group.outer = .empty)
    (piece : readPiece c = .ok (some (.closing, d))) :
    Progress.run ⟨[group], level, c⟩ = readOn (group.opening.wrap level.tree) d := by
  unfold readOn
  cases quantified : quantify (group.opening.wrap level.tree) d with
  | error e =>
    apply Progress.run_of_error
    simp [Progress.step, piece, quantified, bind, Except.bind]
  | ok read =>
    have closed := Progress.run_eq_of_onward
      (.closing (p := ⟨[group], level, c⟩) piece rfl quantified)
    rw [first] at closed
    exact closed

theorem rest_of_closing (h : readPiece c = .ok (some (.closing, d))) :
    c.rest = .ofChar ')' :: d.rest := by
  unfold readPiece at h
  split at h
  · cases h
  · rename_i closes
    cases h
    obtain ⟨position, symbols⟩ := c
    obtain ⟨rest, rest_eq⟩ := peek_eq_some_iff.1 closes
    simp only at rest_eq
    rw [rest_eq, next_cons]
  · cases h
  · obtain ⟨_, -, h⟩ := bind_eq_ok_iff.1 h
    cases h
  · obtain ⟨_, -, h⟩ := bind_eq_ok_iff.1 h
    cases h

theorem not_isLeaf_wrap (o : Opening) (body : Draft) : ¬ (o.wrap body).IsLeaf := by
  intro leaf
  cases o with
  | group _ _ => exact leaf
  | look _ _ => exact leaf

/-- Where the first group closes, a pattern that is one term ends. -/
theorem readOn_of_last (onward : p.Onward q) (h : q.run = .ok t) (single : t.IsQuantifiable)
    (inside : p.groups ≠ []) (outside : q.groups = []) (first : p.outermost = .empty) :
    ¬ t.IsLeaf ∧ Closes p.cursor ∧ ∀ after, (p.followedBy after).run =
      readOn t ⟨p.cursor.position + p.cursor.remaining, after⟩ := by
  have position_eq := (reaches_of_onward onward).position_add_remaining
  obtain ⟨groups, level, cursor⟩ := p
  cases onward with
  | bar _ => exact absurd outside inside
  | opening _ => cases outside
  | term _ _ => exact absurd outside inside
  | @closing group outer term closed stop piece groups_eq quantified =>
    obtain rfl : outer = [] := outside
    obtain rfl : groups = [group] := groups_eq
    have first : group.outer = .empty := first
    rw [first] at h
    obtain ⟨no_rest, rfl⟩ := Progress.eq_of_run_single h single.isTerm
    obtain ⟨rfl, rfl⟩ := eq_of_quantify quantified single
    refine ⟨not_isLeaf_wrap _ _, ⟨[], ?_⟩, ?_⟩
    · rw [rest_of_closing piece, no_rest, List.nil_append]
    · intro after
      have closed_longer : Progress.run ⟨[group], level, cursor.followedBy after⟩ = _ :=
        readOn_of_closing first (readPiece_followedBy piece nofun)
      simp only [remaining, no_rest, List.length_nil, Nat.add_zero] at position_eq
      simp only [followedBy, no_rest, List.nil_append, position_eq] at closed_longer
      exact closed_longer

/-- Inside the first group of a pattern that is one term, the last symbol closes this group. -/
theorem readOn_of_inside (h : p.run = .ok t) (single : t.IsQuantifiable) (inside : p.groups ≠ [])
    (first : p.outermost = .empty) :
    ¬ t.IsLeaf ∧ Closes p.cursor ∧ ∀ after, (p.followedBy after).run =
      readOn t ⟨p.cursor.position + p.cursor.remaining, after⟩ := by
  -- as long as the group is open nothing is added outside it, so that level stays empty
  fun_induction Progress.run p with
  | case1 p e failed => cases h
  | case2 p draft finished =>
    obtain ⟨-, outside, -⟩ := Progress.step_eq_finished_iff.1 finished
    exact absurd outside inside
  | case3 p q step _ ih =>
    have onward := Progress.step_eq_onward_iff.1 step
    by_cases outside : q.groups = []
    · exact readOn_of_last onward h single inside outside first
    · have outermost_eq := Progress.outermost_of_onward onward outside
      obtain ⟨not_leaf, closes, run_eq⟩ := ih h outside (outermost_eq.trans first)
      have reaches := reaches_of_onward onward
      refine ⟨not_leaf, closes.of_reaches reaches, ?_⟩
      intro after
      rw [Progress.run_eq_of_onward (onward_followedBy onward closes), run_eq after,
        reaches.position_add_remaining]

/-- A pattern that is one term is one piece, or begins with a group. -/
theorem piece_or_inside_of_read (h : read x = .ok t) (single : t.IsQuantifiable) :
    readPiece (.start x) = .ok (some (.term t, ⟨x.length, []⟩)) ∨
      ∃ q, (Progress.start x).Onward q ∧ q.run = .ok t ∧ q.groups ≠ [] ∧
        q.outermost = .empty := by
  rcases Progress.finished_or_onward_of_run h with finished | ⟨q, onward, q_run⟩
  · obtain ⟨-, -, -, rfl⟩ := Progress.step_eq_finished_iff.1 finished
    exact single.elim
  · have reaches := reaches_of_onward onward
    cases onward with
    | @bar stop _ =>
      have several : Progress.Several ⟨[], Level.split .empty, stop⟩ :=
        Or.inl (List.cons_ne_nil _ _)
      exact absurd single.isTerm (Progress.not_isTerm_of_run several q_run)
    | opening piece =>
      right
      exact ⟨_, .opening piece, q_run, List.cons_ne_nil _ _, rfl⟩
    | closing _ groups _ => cases groups
    | @term first term ended stop piece quantified =>
      left
      obtain ⟨no_rest, rfl⟩ := Progress.eq_of_run_single q_run single.isTerm
      obtain ⟨rfl, rfl⟩ := eq_of_quantify quantified single
      obtain ⟨position, rest⟩ := stop
      obtain rfl : rest = [] := no_rest
      have position_eq : position = x.length := by
        have position_eq := reaches.position_add_remaining
        simpa [Progress.start, Cursor.start, remaining] using position_eq
      rw [← position_eq]
      exact piece

/-- A pattern that is a leaf is one piece. -/
theorem readPiece_of_read (h : read x = .ok t) (single : t.IsQuantifiable) (leaf : t.IsLeaf) :
    readPiece (.start x) = .ok (some (.term t, ⟨x.length, []⟩)) := by
  rcases piece_or_inside_of_read h single with piece | ⟨q, onward, q_run, inside, first⟩
  · exact piece
  · exact absurd leaf (readOn_of_inside q_run single inside first).1

/-- A pattern that is one term is read in the same way if more symbols come after it, up to the
    quantifier that they may begin with. -/
theorem read_append (h : read x = .ok t) (single : t.IsQuantifiable) (after : List Symbol) :
    read (x ++ after) = readOn t ⟨x.length, after⟩ := by
  show ((Progress.start x).followedBy after).run = _
  rcases piece_or_inside_of_read h single with piece | ⟨q, onward, q_run, inside, first⟩
  · exact readOn_of_run (readPiece_followedBy piece nofun)
  · obtain ⟨-, closes, run_eq⟩ := readOn_of_inside q_run single inside first
    have position_eq : q.cursor.position + q.cursor.remaining = x.length := by
      rw [(reaches_of_onward onward).position_add_remaining]
      exact Nat.zero_add x.length
    rw [Progress.run_eq_of_onward (onward_followedBy onward closes), run_eq after, position_eq]

end PatternSampler.Notation
