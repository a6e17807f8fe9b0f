import Mathlib.Logic.Relation
import PatternSampler.Proofs.Notation.Reading

/-! # Steps and runs of the reader

  `Onward p q` lists the ways in which a step leads from one state of reading to the next, and
  `step_eq_onward_iff` says that these are all. A property that holds at the start and is kept
  by each of them holds when reading ends (`run_induction`).

  `Leads p q` says the same of any number of steps. A run that succeeds has led to the end of
  the pattern, and one that fails has led to a state in which a step fails.

  What a step does to a draft it does in the same way to the tree of the draft over an alphabet
  (`over_wrap`, `quantify_over`), because neither asks for the sets of a bracket.
-/

namespace PatternSampler.Notation

namespace Progress

/-- A step leads on: one piece is read, and the quantifier after it if it ends a term. -/
inductive Onward (p : Progress) : Progress → Prop where
  /-- A bar ends a branch. -/
  | bar {stop : Cursor} (piece : readPiece p.cursor = .ok (some (.bar, stop))) :
      Onward p ⟨p.groups, p.level.split, stop⟩
  /-- An opening puts the level under way aside and begins a new one. -/
  | opening {o : Opening} {stop : Cursor}
      (piece : readPiece p.cursor = .ok (some (.opening o, stop))) :
      Onward p ⟨⟨p.cursor.position, o, p.level⟩ :: p.groups, .empty, stop⟩
  /-- A closing turns the level under way into a term of the level around it. -/
  | closing {group : OpenGroup} {outer : List OpenGroup} {term : Draft} {closed stop : Cursor}
      (piece : readPiece p.cursor = .ok (some (.closing, closed)))
      (groups : p.groups = group :: outer)
      (quantified : quantify (group.opening.wrap p.level.tree) closed = .ok (term, stop)) :
      Onward p ⟨outer, group.outer.add term, stop⟩
  /-- A term goes to the level under way. -/
  | term {t term : Draft} {ended stop : Cursor}
      (piece : readPiece p.cursor = .ok (some (.term t, ended)))
      (quantified : quantify t ended = .ok (term, stop)) :
      Onward p ⟨p.groups, p.level.add term, stop⟩

variable {p q : Progress} {d : Draft}

theorem step_eq_onward_iff : p.step = .ok (.onward q) ↔ p.Onward q := by
  constructor
  · intro h
    unfold step at h
    obtain ⟨read, piece, h⟩ := bind_eq_ok_iff.1 h
    -- each kind of piece leads on in a way of its own, and no piece ends the reading
    split at h
    · obtain ⟨d, -, h⟩ := bind_eq_ok_iff.1 h
      cases h
    · cases h
      exact .bar piece
    · cases h
      exact .opening piece
    · split at h
      · cases h
      · rename_i groups
        obtain ⟨⟨term, stop⟩, quantified, h⟩ := bind_eq_ok_iff.1 h
        cases h
        exact .closing piece groups quantified
    · obtain ⟨⟨term, stop⟩, quantified, h⟩ := bind_eq_ok_iff.1 h
      cases h
      exact .term piece quantified
  · intro onward
    unfold step
    refine bind_eq_ok_iff.2 ?_
    cases onward with
    | bar piece => exact ⟨_, piece, rfl⟩
    | opening piece => exact ⟨_, piece, rfl⟩
    | closing piece groups quantified =>
      refine ⟨_, piece, ?_⟩
      simp only [groups]
      exact bind_eq_ok_iff.2 ⟨_, quantified, rfl⟩
    | term piece quantified =>
      exact ⟨_, piece, bind_eq_ok_iff.2 ⟨_, quantified, rfl⟩⟩

/-- Reading ends where no piece starts, with no group open and no symbol left. -/
theorem step_eq_finished_iff :
    p.step = .ok (.finished d) ↔
      readPiece p.cursor = .ok none ∧ p.groups = [] ∧ p.cursor.rest = [] ∧ d = p.level.tree := by
  constructor
  · intro h
    unfold step at h
    obtain ⟨read, piece, h⟩ := bind_eq_ok_iff.1 h
    split at h
    · obtain ⟨d', finished, h⟩ := bind_eq_ok_iff.1 h
      cases h
      unfold finish at finished
      split at finished
      · cases finished
      · rename_i groups
        split at finished
        · rename_i no_rest
          cases finished
          exact ⟨piece, groups, List.isEmpty_iff.1 no_rest, rfl⟩
        · cases finished
    · cases h
    · cases h
    · split at h
      · cases h
      · obtain ⟨_, -, h⟩ := bind_eq_ok_iff.1 h
        cases h
    · obtain ⟨_, -, h⟩ := bind_eq_ok_iff.1 h
      cases h
  · intro ended
    obtain ⟨piece, groups, no_rest, rfl⟩ := ended
    unfold step
    refine bind_eq_ok_iff.2 ⟨_, piece, ?_⟩
    simp [finish, groups, no_rest, pure, Except.pure, bind, Except.bind]

theorem run_eq_of_onward (onward : p.Onward q) : p.run = q.run :=
  run_of_onward (step_eq_onward_iff.2 onward)

/-- A property that every step keeps still holds where a successful run ends. -/
theorem run_induction {Inv : Progress → Prop} (kept : ∀ p q, Inv p → p.Onward q → Inv q)
    (start : Inv p) (h : p.run = .ok d) :
    ∃ last, Inv last ∧ last.groups = [] ∧ last.cursor.rest = [] ∧ d = last.level.tree := by
  fun_induction run p with
  | case1 p e failed => cases h
  | case2 p draft finished =>
    cases h
    obtain ⟨-, groups, no_rest, draft_eq⟩ := step_eq_finished_iff.1 finished
    exact ⟨p, start, groups, no_rest, draft_eq⟩
  | case3 p q onward shorter ih => exact ih (kept p q start (step_eq_onward_iff.1 onward)) h

/-! ## Several steps -/

/-- Some steps lead from one state to another. -/
abbrev Leads (p q : Progress) : Prop := Relation.ReflTransGen Onward p q

theorem run_eq_of_leads (h : p.Leads q) : p.run = q.run := by
  induction h with
  | refl => rfl
  | tail _ onward ih => exact ih.trans (run_eq_of_onward onward)

/-- A run that succeeds has led to the end of the pattern, outside all groups. -/
theorem leads_of_run (h : p.run = .ok d) :
    ∃ last, p.Leads last ∧ last.groups = [] ∧ last.cursor.rest = [] ∧ d = last.level.tree :=
  run_induction (fun _ _ led onward => led.tail onward) .refl h

/-- A run that fails has led to a state in which a step fails. -/
theorem leads_of_run_eq_error {e : Misreading} (h : p.run = .error e) :
    ∃ last, p.Leads last ∧ last.step = .error e := by
  fun_induction run p with
  | case1 p e' failed =>
    cases h
    exact ⟨p, .refl, failed⟩
  | case2 p draft finished => cases h
  | case3 p q onward shorter ih =>
    obtain ⟨last, led, failed⟩ := ih h
    exact ⟨last, .head (step_eq_onward_iff.1 onward) led, failed⟩

end Progress

/-! ## Drafts over an alphabet -/

section
variable {a : Alphabet}

theorem over_wrap (o : Opening) (d : Draft) : Draft.over a (o.wrap d) = o.wrap (d.over a) := by
  cases o with
  | group capturing name => rfl
  | look side negative => rfl

theorem over_ofTerms (ds : List Draft) :
    Draft.over a (.ofTerms ds) = .ofTerms (ds.map (Draft.over a)) := by
  match ds with
  | [] => rfl
  | [_] => rfl
  | _ :: _ :: _ => simp [Draft.over, Tree.ofTerms, Tree.map]

theorem over_ofBranches (ds : List Draft) :
    Draft.over a (.ofBranches ds) = .ofBranches (ds.map (Draft.over a)) := by
  match ds with
  | [] => rfl
  | [_] => rfl
  | _ :: _ :: _ => simp [Draft.over, Tree.ofBranches, Tree.map]

theorem repeatable_over (d : Draft) : repeatable (d.over a) = repeatable d := by
  cases d <;> rfl

/-- Quantifiers do not look into a term. -/
theorem quantify_over (d : Draft) (c : Cursor) :
    quantify (d.over a) c = (quantify d c).map fun read => (Draft.over a read.1, read.2) := by
  unfold quantify
  cases readBounds c with
  | error e => rfl
  | ok found =>
    cases found with
    | none => rfl
    | some bounds =>
      simp only [repeatable_over, bind, Except.bind]
      split
      · split <;> rfl
      · rfl

theorem quantify_over_ok {d : Draft} {c : Cursor} {t : Tree SymbolSet} {stop : Cursor}
    (quantified : quantify (d.over a) c = .ok (t, stop)) :
    ∃ e : Draft, t = e.over a ∧ quantify d c = .ok (e, stop) := by
  rw [quantify_over] at quantified
  cases read : quantify d c with
  | error reason =>
    rw [read] at quantified
    cases quantified
  | ok found =>
    rw [read] at quantified
    cases quantified
    exact ⟨_, rfl, rfl⟩

theorem quantify_over_error {d : Draft} {c : Cursor} {reason : Misreading}
    (refused : quantify (d.over a) c = .error reason) : quantify d c = .error reason := by
  rw [quantify_over] at refused
  cases read : quantify d c with
  | error reason' =>
    rw [read] at refused
    cases refused
    rfl
  | ok found =>
    rw [read] at refused
    cases refused

end

end PatternSampler.Notation
