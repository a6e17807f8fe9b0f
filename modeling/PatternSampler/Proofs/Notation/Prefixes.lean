import Mathlib.Data.List.Basic
import PatternSampler.Proofs.Notation.SecondQuantifier
import PatternSampler.Proofs.Notation.Texts

/-! # The first symbols of a pattern

  Where the reader has come to, it would have come to with the symbols before that place alone:
  with the same groups open and the same level under way (`leads_up_to`). So these symbols can
  always be completed, with as many closing parentheses as groups are open
  (`exists_read_of_leads`).

  Putting symbols at the end of a pattern goes the other way. The reader looks ahead, so it has
  to be shown that nothing it saw there was needed. A piece is a text of its own. A quantifier is
  one too, and where none was read none is read with fewer symbols: a form that begins there
  would have begun before, and a number that is too long would only have been longer.
-/

namespace PatternSampler.Notation

open Cursor

variable {c d : Cursor} {position : Nat} {b : Bounds} {t term : Draft} {piece : Piece}
  {p q : Progress} {x text rest after : List Symbol}

/-! ## Places before a common end -/

theorem followedBy_inj (same : c.followedBy after = d.followedBy after) : c = d := by
  obtain ⟨position, rest⟩ := c
  obtain ⟨position', rest'⟩ := d
  obtain ⟨rfl, rest_eq⟩ := Cursor.mk.inj same
  have rest_eq : rest = rest' := List.append_cancel_right rest_eq
  rw [rest_eq]

/-- What is passed before a common end is passed without it as well. -/
theorem passes_of_followedBy (h : (c.followedBy after).Passes text (d.followedBy after)) :
    c.Passes text d := by
  refine ⟨(List.append_left_inj after).1 ?_, h.2⟩
  rw [List.append_assoc]
  exact h.1

/-- A place before the common end is itself followed by this end. -/
theorem exists_followedBy (h : c.Reaches (d.followedBy after)) :
    ∃ e : Cursor, c = e.followedBy after := by
  obtain ⟨passed, rest_eq, -⟩ := h
  refine ⟨⟨c.position, passed ++ d.rest⟩, ?_⟩
  rw [followedBy, List.append_assoc]
  exact congrArg (Cursor.mk c.position) rest_eq

/-! ## Pieces and quantifiers -/

theorem readPiece_of_followedBy
    (h : readPiece (c.followedBy after) = .ok (some (piece, d.followedBy after))) :
    readPiece c = .ok (some (piece, d)) := by
  obtain ⟨text, passes, anywhere⟩ := text_of_readPiece h
  obtain ⟨c_eq, d_eq⟩ := (passes_of_followedBy passes).eq
  rw [c_eq, d_eq]
  exact anywhere c.position d.rest List.mem_head?_append_of_mem_head?

/-- A longer row of digits stands for a number at least as great. -/
theorem numberOf_le_append (digits more : List Char) :
    numberOf digits ≤ numberOf (digits ++ more) := by
  have shifted :
      numberOf (digits ++ more) = 10 ^ more.length * numberOf digits + numberOf more := by
    unfold numberOf
    rw [Nat.ofDigitChars_append, Nat.ofDigitChars_eq_ofDigitChars_zero]
  have grown : numberOf digits ≤ 10 ^ more.length * numberOf digits :=
    Nat.le_mul_of_pos_left _ (Nat.pow_pos (by decide))
  omega

/-- A number that is too long stays so, whatever is put at the end of the pattern. -/
theorem LongNumber.append {offset : Nat} (long : LongNumber offset text) (after : List Symbol) :
    LongNumber offset (text ++ after) := by
  cases long with
  | @first digits rest all ends long =>
    -- more digits may follow those at the end
    obtain ⟨more, stop, rest_eq, more_all, stops⟩ := exists_digits (rest ++ after)
    have text_eq : .ofChar '{' :: (ofChars digits ++ rest) ++ after =
        .ofChar '{' :: (ofChars (digits ++ more) ++ stop) := by
      rw [List.cons_append, List.append_assoc, rest_eq]
      simp [ofChars]
    rw [text_eq]
    refine .first ?_ stops (Nat.le_trans long (numberOf_le_append digits more))
    intro ch ch_mem
    exact (List.mem_append.1 ch_mem).elim (all ch) (more_all ch)
  | @second lower upper rest lower_all fits upper_all ends long =>
    obtain ⟨more, stop, rest_eq, more_all, stops⟩ := exists_digits (rest ++ after)
    have text_eq : .ofChar '{' :: (ofChars lower ++ .ofChar ',' :: (ofChars upper ++ rest)) ++
        after = .ofChar '{' ::
          (ofChars lower ++ .ofChar ',' :: (ofChars (upper ++ more) ++ stop)) := by
      simp only [List.cons_append, List.append_assoc, rest_eq]
      simp [ofChars]
    rw [text_eq]
    refine .second lower_all fits ?_ stops (Nat.le_trans long (numberOf_le_append upper more))
    intro ch ch_mem
    exact (List.mem_append.1 ch_mem).elim (upper_all ch) (more_all ch)

/-- Where no quantifier is read, none is read with fewer symbols. -/
theorem readBounds_of_followedBy (h : readBounds (c.followedBy after) = .ok none) :
    readBounds c = .ok none := by
  obtain ⟨position, symbols⟩ := c
  by_cases opens : symbols.head? = some (.ofChar '{')
  · obtain ⟨rest, rfl⟩ := List.head?_eq_some_iff.1 opens
    apply readBounds_of_neither
    · intro least most text stop form rest_eq
      have longer : followedBy ⟨position, .ofChar '{' :: rest⟩ after =
          ⟨position, text ++ (stop ++ after)⟩ := by
        rw [followedBy, rest_eq, List.append_assoc]
      rw [longer] at h
      exact form.readBounds_ne_none h
    · intro offset long
      have refused : readBounds (followedBy ⟨position, .ofChar '{' :: rest⟩ after) = _ :=
        readBounds_of_longNumber (long.append after)
      rw [h] at refused
      cases refused
  · -- a mark alone is a quantifier
    apply readBounds_of_quiet
    intro ch mark starts
    obtain ⟨rest, rfl⟩ := List.head?_eq_some_iff.1 starts
    simp only [List.mem_cons, List.not_mem_nil, or_false] at mark
    rcases mark with rfl | rfl | rfl | rfl
    · simp [readBounds, followedBy] at h
    · simp [readBounds, followedBy] at h
    · simp [readBounds, followedBy] at h
    · exact opens rfl

theorem startsQuantifier_of_followedBy (h : startsQuantifier (c.followedBy after) = false) :
    startsQuantifier c = false := by
  by_contra starts
  unfold startsQuantifier at h starts
  split at starts
  · rename_i read read_eq
    rw [readBounds_followedBy read_eq] at h
    cases h
  · exact starts rfl

/-- A quantifier that is read before a common end is read without it as well. -/
theorem quantify_of_followedBy
    (h : quantify t (c.followedBy after) = .ok (term, d.followedBy after)) :
    quantify t c = .ok (term, d) := by
  rcases form_of_quantify h with ⟨none_read, rfl, same⟩ |
    ⟨b, text, greedy, form, consistent, can_repeat, rfl, passes, alone⟩
  · rw [followedBy_inj same]
    unfold quantify
    rw [readBounds_of_followedBy none_read]
    rfl
  · obtain ⟨c_eq, d_eq⟩ := (passes_of_followedBy passes).eq
    have alone := startsQuantifier_of_followedBy alone
    rw [d_eq, List.length_append] at alone
    rw [c_eq, d_eq, List.length_append, List.append_assoc]
    exact quantify_of_form form greedy can_repeat consistent alone

/-! ## Steps -/

/-- A step before a common end is a step without it as well. -/
theorem onward_of_followedBy (h : (p.followedBy after).Onward (q.followedBy after)) :
    p.Onward q := by
  obtain ⟨groups, level, stop⟩ := q
  generalize q_eq : Progress.followedBy ⟨groups, level, stop⟩ after = longer at h
  rcases h with piece | piece | ⟨piece, groups_eq, quantified⟩ | ⟨piece, quantified⟩
  · obtain ⟨rfl, rfl, rfl⟩ := Progress.mk.inj q_eq
    exact .bar (readPiece_of_followedBy piece)
  · obtain ⟨rfl, rfl, rfl⟩ := Progress.mk.inj q_eq
    exact .opening (readPiece_of_followedBy piece)
  · obtain ⟨rfl, rfl, rfl⟩ := Progress.mk.inj q_eq
    obtain ⟨closed, rfl⟩ := exists_followedBy (of_quantify quantified).1
    exact .closing (readPiece_of_followedBy piece) groups_eq (quantify_of_followedBy quantified)
  · obtain ⟨rfl, rfl, rfl⟩ := Progress.mk.inj q_eq
    obtain ⟨ended, rfl⟩ := exists_followedBy (of_quantify quantified).1
    exact .term (readPiece_of_followedBy piece) (quantify_of_followedBy quantified)

/-- With a detached text at its end a pattern is read by the same steps. -/
theorem onward_followedBy_of_detached (detached : Detached after) (h : p.Onward q) :
    (p.followedBy after).Onward (q.followedBy after) := by
  refine onward_followedBy_of h ?_ ?_
  · intro piece stop piece_eq _
    exact readPiece_followedBy piece_eq fun _ _ _ => detached.head?_ne (by simp)
  · intro c t term quantified
    rw [followedBy_eq_within, quantify_within detached, quantified, followedBy_eq_within]
    rfl

/-! ## Runs -/

theorem reaches_of_leads (h : p.Leads q) : p.cursor.Reaches q.cursor := by
  induction h with
  | refl => rfl
  | tail _ onward ih => exact ih.trans (reaches_of_onward onward)

/-- Steps before a common end are steps without it as well. -/
theorem leads_of_followedBy (h : (p.followedBy after).Leads (q.followedBy after)) : p.Leads q := by
  generalize last_eq : q.followedBy after = last at h
  induction h generalizing q with
  | refl =>
    obtain ⟨groups, level, c⟩ := p
    obtain ⟨groups', level', d⟩ := q
    obtain ⟨rfl, rfl, cursor_eq⟩ := Progress.mk.inj last_eq
    have same : d = c := followedBy_inj cursor_eq
    rw [same]
  | @tail between last _ onward ih =>
    -- the state before the last step stands before the common end, too
    obtain rfl := last_eq
    obtain ⟨groups, level, cursor⟩ := between
    obtain ⟨c, rfl⟩ := exists_followedBy (reaches_of_onward onward)
    have led : p.Leads ⟨groups, level, c⟩ := ih rfl
    exact led.tail (onward_of_followedBy onward)

theorem leads_followedBy (detached : Detached after) (h : p.Leads q) :
    (p.followedBy after).Leads (q.followedBy after) := by
  induction h with
  | refl => exact .refl
  | tail _ onward ih => exact ih.tail (onward_followedBy_of_detached detached onward)

/-- A place that the reader has come to lies as far into the pattern as its position says. With
    only some of the symbols that stand there the reader comes to the same state. -/
theorem leads_up_to (h : (Progress.start x).Leads p) :
    ∃ before, x = before ++ p.cursor.rest ∧ p.cursor.position = before.length ∧
      ∀ text after, p.cursor.rest = text ++ after →
        (Progress.start (before ++ text)).Leads ⟨p.groups, p.level, ⟨before.length, text⟩⟩ := by
  obtain ⟨before, x_eq, position_eq⟩ := reaches_of_leads h
  have x_eq : x = before ++ p.cursor.rest := x_eq
  have position_eq : p.cursor.position = before.length := by
    rw [position_eq]
    exact Nat.zero_add _
  refine ⟨before, x_eq, position_eq, ?_⟩
  intro text after rest_eq
  refine @leads_of_followedBy _ _ after ?_
  have start_eq : (Progress.start (before ++ text)).followedBy after = .start x := by
    rw [x_eq, rest_eq, ← List.append_assoc]
    rfl
  have last_eq : Progress.followedBy ⟨p.groups, p.level, ⟨before.length, text⟩⟩ after = p := by
    rw [Progress.followedBy, followedBy, ← rest_eq, ← position_eq]
  rw [start_eq, last_eq]
  exact h

/-! ## Completing -/

/-- Closing parentheses, as many as are needed. -/
def closings (count : Nat) : List Symbol := ofChars (List.replicate count ')')

theorem detached_closings (count : Nat) : Detached (closings count) := by
  cases count with
  | zero => exact detached_nil
  | succ count => exact detached_cons (Or.inl rfl)

/-- One closing parenthesis for each group that is open ends the pattern. -/
theorem exists_run_closings (groups : List OpenGroup) (level : Level) (position : Nat) :
    ∃ d, Progress.run ⟨groups, level, ⟨position, closings groups.length⟩⟩ = .ok d := by
  induction groups generalizing level position with
  | nil =>
    refine ⟨level.tree, Progress.run_of_finished ?_⟩
    exact Progress.step_eq_finished_iff.2 ⟨rfl, rfl, rfl, rfl⟩
  | cons group groups ih =>
    have closed := Progress.run_eq_of_onward
      (.closing (p := ⟨group :: groups, level, ⟨position, closings (groups.length + 1)⟩⟩)
        readPiece_closing rfl (quantify_of_quiet (detached_closings _).quiet))
    obtain ⟨d, run_eq⟩ := ih (group.outer.add (group.opening.wrap level.tree)) (position + 1)
    exact ⟨d, closed.trans run_eq⟩

/-- Symbols that the reader comes to the end of can be completed by closing parentheses. -/
theorem exists_read_of_leads (h : (Progress.start x).Leads p) (ended : p.cursor.rest = []) :
    ∃ d, read (x ++ closings p.groups.length) = .ok d := by
  obtain ⟨d, run_eq⟩ := exists_run_closings p.groups p.level p.cursor.position
  have led := leads_followedBy (detached_closings p.groups.length) h
  have last_eq : p.followedBy (closings p.groups.length) =
      ⟨p.groups, p.level, ⟨p.cursor.position, closings p.groups.length⟩⟩ := by
    rw [Progress.followedBy, followedBy, ended, List.nil_append]
  rw [last_eq] at led
  exact ⟨d, (Progress.run_eq_of_leads led).trans run_eq⟩

/-- Outside all groups nothing is needed to complete them. -/
theorem read_of_leads (h : (Progress.start x).Leads p) (ended : p.cursor.rest = [])
    (outside : p.groups = []) : ∃ d, read x = .ok d := by
  obtain ⟨d, read_eq⟩ := exists_read_of_leads h ended
  have no_closing : x ++ closings p.groups.length = x := by
    rw [outside]
    exact List.append_nil x
  rw [no_closing] at read_eq
  exact ⟨d, read_eq⟩

end PatternSampler.Notation
