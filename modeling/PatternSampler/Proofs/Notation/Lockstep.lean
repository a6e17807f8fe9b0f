import PatternSampler.Proofs.Notation.Descent

/-! # Two alphabets in step

  The procedures that read a pattern ask their alphabet what a shorthand in a bracket covers, and
  what they go on to do might depend on the answer. It does not: run over two alphabets, they move
  the place in the same way, refuse the pattern for the same reason, and make trees of one draft
  (`lockstep_pattern`).

  `Lockstep` compares two procedures that are started at the same place. There is one rule for each
  way of putting procedures together, and one lemma for each procedure that is given an alphabet.
  Under a limit that is too low, both runs reach it together.
-/

namespace PatternSampler.Notation.Descent

/-! ## Runs in step -/

section
variable {α β γ δ σ τ : Type} {R : α → β → Prop} {S : γ → δ → Prop}

/-- Both values are made of the same thing. -/
def Both (f : γ → α) (g : γ → β) (x : α) (y : β) : Prop := ∃ c, x = f c ∧ y = g c

theorem both_self (f : γ → α) (g : γ → β) (c : γ) : Both f g (f c) (g c) := ⟨c, rfl, rfl⟩

/-- Two runs end alike: at the same place, with related values or with the same refusal, or both
    at the limit. -/
inductive EndAlike (R : α → β → Prop) :
    Option (Except Misreading α × Place) → Option (Except Misreading β × Place) → Prop where
  /-- Both give a value. -/
  | value {x : α} {y : β} {last : Place} (related : R x y) :
      EndAlike R (some (.ok x, last)) (some (.ok y, last))
  /-- Both refuse the pattern. -/
  | refusal {reason : Misreading} {last : Place} :
      EndAlike R (some (.error reason, last)) (some (.error reason, last))
  /-- Both go on for too long. -/
  | limit : EndAlike R none none

/-- Started at the same place of the same pattern, two procedures end alike. -/
def Lockstep (R : α → β → Prop) (first : Descent α) (second : Descent β) : Prop :=
  ∀ input place, EndAlike R (first input place) (second input place)

namespace Lockstep

/-- Every procedure is in step with itself. -/
theorem self (procedure : Descent α) : Lockstep (· = ·) procedure procedure := by
  intro input place
  rcases procedure input place with _ | ⟨_ | _, _⟩
  · exact .limit
  · exact .refusal
  · exact .value rfl

theorem pure {x : α} {y : β} (related : R x y) : Lockstep R (pure x) (pure y) :=
  fun _ _ => .value related

theorem refuse (reason : Misreading) : Lockstep R (refuse reason) (refuse reason) :=
  fun _ _ => .refusal

theorem exhausted : Lockstep R exhausted exhausted := fun _ _ => .limit

/-- Where the first procedures give related values, the second ones have to be in step. -/
theorem bind {first : Descent α} {first' : Descent β} {next : α → Descent γ}
    {next' : β → Descent δ} (firsts : Lockstep R first first')
    (nexts : ∀ x y, R x y → Lockstep S (next x) (next' y)) :
    Lockstep S (first >>= next) (first' >>= next') := by
  intro input place
  have ended := firsts input place
  show EndAlike S (first input place >>= _) (first' input place >>= _)
  generalize first input place = run, first' input place = run' at ended ⊢
  cases ended with
  | value related => exact nexts _ _ related input _
  | refusal => exact .refusal
  | limit => exact .limit

/-- After the same procedure the second ones go on from the same value. -/
theorem after {first : Descent α} {next : α → Descent γ} {next' : α → Descent δ}
    (nexts : ∀ x, Lockstep S (next x) (next' x)) :
    Lockstep S (first >>= next) (first >>= next') := by
  refine bind (self first) ?_
  rintro x _ rfl
  exact nexts x

/-- Loops are in step if their turns are. -/
theorem loop {turn : σ → Descent (σ ⊕ γ)} {turn' : τ → Descent (τ ⊕ δ)} {T : σ → τ → Prop}
    (turns : ∀ s t, T s t → Lockstep (Sum.LiftRel T S) (turn s) (turn' t)) {s : σ} {t : τ}
    (start : T s t) : Lockstep S (loop turn s) (loop turn' t) := by
  have left_turns (left : Nat) : ∀ s t, T s t →
      Lockstep S (loop.turns turn left s) (loop.turns turn' left t) := by
    induction left with
    | zero => exact fun _ _ _ => exhausted
    | succ left ih =>
      intro s t related
      refine bind (turns s t related) ?_
      rintro _ _ (⟨goes_on⟩ | ⟨ended⟩)
      · exact ih _ _ goes_on
      · exact pure ended
  exact fun input place => left_turns input.limit s t start input place

end Lockstep

end

/-! ## Brackets -/

variable (a b : Alphabet) (negated : Bool)

/-- What has been gathered of a bracket whose items so far are given. -/
def gatheredOf (items : List BracketItem) : Gathered :=
  items.foldl (Gathered.add a negated) .nothing

theorem add_gatheredOf (items : List BracketItem) (item : BracketItem) :
    (gatheredOf a negated items).add a negated item = gatheredOf a negated (items ++ [item]) := by
  rw [gatheredOf, gatheredOf, List.foldl_append]
  rfl

theorem lockstep_bracketAtom :
    Lockstep (Both (Part.over a negated) (Part.over b negated)) (bracketAtom a negated)
      (bracketAtom b negated) := by
  refine .after fun start => .after fun found => ?_
  cases found with
  | none => exact .refuse _
  | some symbol =>
    by_cases backslash : Symbol.char? symbol = some '\\'
    · simp only [if_pos backslash]
      refine .after fun found => ?_
      cases found with
      | none => exact .refuse _
      | some escaped =>
        simp only
        cases Escape.of escaped with
        | shorthand kind => exact .pure (both_self _ _ (BracketAtom.shorthand kind))
        | symbol s => exact .pure (both_self _ _ (BracketAtom.symbol s))
        | other ch => exact .refuse _
    · simp only [if_neg backslash]
      exact .pure (both_self _ _ (BracketAtom.symbol symbol))

theorem lockstep_bracketItem (items : List BracketItem) :
    Lockstep (Both (gatheredOf a negated) (gatheredOf b negated))
      (bracketItem a negated (gatheredOf a negated items))
      (bracketItem b negated (gatheredOf b negated items)) := by
  have gathers (item : BracketItem) : Both (gatheredOf a negated) (gatheredOf b negated)
      ((gatheredOf a negated items).add a negated item)
      ((gatheredOf b negated items).add b negated item) := by
    rw [add_gatheredOf, add_gatheredOf]
    exact both_self _ _ _
  refine .after fun start => .bind (lockstep_bracketAtom a b negated) ?_
  rintro _ _ ⟨atom, rfl, rfl⟩
  cases atom with
  | shorthand kind =>
    refine .after fun joins => ?_
    cases joins with
    | true => exact .refuse _
    | false => exact .pure (gathers (.shorthand kind))
  | symbol low =>
    refine .after fun joins => ?_
    cases joins with
    | false => exact .pure (gathers (.range low low))
    | true =>
      refine .after fun _ => .bind (lockstep_bracketAtom a b negated) ?_
      rintro _ _ ⟨atom, rfl, rfl⟩
      cases atom with
      | shorthand kind => exact .refuse _
      | symbol high =>
        by_cases in_order : low ≤ high
        · simp only [Part.over, if_pos in_order]
          exact .pure (gathers (.range low high))
        · simp only [Part.over, if_neg in_order]
          exact .refuse _

theorem lockstep_bracket :
    Lockstep (Both (Draft.over a) (Draft.over b)) (bracket a) (bracket b) := by
  refine .after fun opened => .after fun _ => .after fun negated => ?_
  -- both have gathered the same items, and both are at the start or neither is
  have gathered : Lockstep (Both (gatheredOf a negated) (gatheredOf b negated))
      (loop (itemTurn a negated opened) (true, .nothing))
      (loop (itemTurn b negated opened) (true, .nothing)) := by
    refine Lockstep.loop (T := fun s t => s.1 = t.1 ∧
      Both (gatheredOf a negated) (gatheredOf b negated) s.2 t.2) ?_ ⟨rfl, [], rfl, rfl⟩
    rintro ⟨atStart, _⟩ ⟨_, _⟩ ⟨rfl, items, rfl, rfl⟩
    refine .after fun ended => ?_
    cases ended with
    | true => exact .refuse _
    | false =>
      refine .after fun found => ?_
      by_cases closes : (found = some ']' && !atStart) = true
      · simp only [closes, if_true]
        exact .after fun _ => .pure (.inr (both_self _ _ items))
      · simp only [closes]
        refine .bind (lockstep_bracketItem a b negated items) ?_
        exact fun _ _ both => .pure (.inl ⟨rfl, both⟩)
  refine .bind gathered ?_
  rintro _ _ ⟨items, rfl, rfl⟩
  exact .pure (both_self (Draft.over a) (Draft.over b) (.bracket items negated))

/-! ## Terms, branches and levels -/

/-- Both trees are those of one draft, over two alphabets. -/
abbrev OneDraft : Tree SymbolSet → Tree SymbolSet → Prop := Both (Draft.over a) (Draft.over b)

variable {a b}

theorem oneDraft_over (d : Draft) : OneDraft a b (d.over a) (d.over b) := both_self _ _ d

theorem lockstep_escapedTerm : Lockstep (OneDraft a b) escapedTerm escapedTerm := by
  refine .after fun start => .after fun _ => .after fun found => ?_
  cases found with
  | none => exact .refuse _
  | some symbol =>
    simp only
    cases Escape.of symbol with
    | shorthand kind => exact .pure (oneDraft_over (.shorthand kind))
    | symbol s => exact .pure (oneDraft_over (.literal s))
    | other ch =>
      cases ch with
      | none => exact .refuse _
      | some ch =>
        by_cases digit : (ch.isDigit && ch != '0') = true
        · simp only [digit, if_true]
          exact .refuse _
        · simp only [digit]
          refine .after fun following => ?_
          by_cases named : (decide (ch = 'k') && decide (following = some '<')) = true
          · simp only [named, if_true]
            exact .refuse _
          · simp only [named]
            exact .refuse _

theorem lockstep_repeated (d : Draft) :
    Lockstep (OneDraft a b) (repeated (d.over a)) (repeated (d.over b)) := by
  refine .after fun afterTerm => .after fun found => ?_
  cases found with
  | none => exact .pure (oneDraft_over d)
  | some bounds =>
    by_cases can_repeat : repeatable d = true
    · simp only [repeatable_over, can_repeat, if_true]
      refine .after fun isLazy => .after fun another => ?_
      cases another with
      | true => exact .after fun _ => .refuse _
      | false => exact .pure (oneDraft_over (.repetition d bounds !isLazy))
    · simp only [repeatable_over, can_repeat]
      exact .refuse _

section
variable {inside inside' : Descent (Tree SymbolSet)}
  (insides : Lockstep (OneDraft a b) inside inside')
include insides

theorem lockstep_group : Lockstep (OneDraft a b) (group inside) (group inside') := by
  refine .after fun opened => .after fun opening => .bind insides ?_
  rintro _ _ ⟨d, rfl, rfl⟩
  refine .after fun closed => ?_
  cases closed with
  | true => exact .pure ⟨opening.wrap d, (over_wrap opening d).symm, (over_wrap opening d).symm⟩
  | false => exact .refuse _

theorem lockstep_atom : Lockstep (OneDraft a b) (atom a inside) (atom b inside') := by
  refine .after fun start => .after fun found => ?_
  split
  · exact lockstep_group insides
  · exact lockstep_bracket a b
  · exact lockstep_escapedTerm
  · exact .after fun _ => .pure (oneDraft_over .wildcard)
  · exact .after fun _ => .pure (oneDraft_over (.anchor .start))
  · exact .after fun _ => .pure (oneDraft_over (.anchor .finish))
  · exact .refuse _
  · exact .refuse _
  · exact .refuse _
  · refine .after fun found => ?_
    cases found with
    | none => exact .refuse _
    | some symbol => exact .pure (oneDraft_over (.literal symbol))

theorem lockstep_quantified :
    Lockstep (OneDraft a b) (quantified a inside) (quantified b inside') := by
  refine .bind (lockstep_atom insides) ?_
  rintro _ _ ⟨d, rfl, rfl⟩
  exact lockstep_repeated d

/-- The terms of a branch are those of the same drafts. -/
theorem lockstep_branch : Lockstep (OneDraft a b) (branch a inside) (branch b inside') := by
  refine Lockstep.loop (T := Both (List.map (Draft.over a)) (List.map (Draft.over b))) ?_
    ⟨[], rfl, rfl⟩
  rintro _ _ ⟨ds, rfl, rfl⟩
  have ends : OneDraft a b (.ofTerms (ds.map (Draft.over a)).reverse)
      (.ofTerms (ds.map (Draft.over b)).reverse) := by
    rw [← List.map_reverse, ← List.map_reverse, ← over_ofTerms, ← over_ofTerms]
    exact oneDraft_over _
  refine .after fun found => ?_
  cases found with
  | none => exact .pure (.inr ends)
  | some ch =>
    by_cases stops : (decide (ch = ')') || decide (ch = '|')) = true
    · simp only [stops, if_true]
      exact .pure (.inr ends)
    · simp only [stops]
      refine .bind (lockstep_quantified insides) ?_
      rintro _ _ ⟨d, rfl, rfl⟩
      exact .pure (.inl ⟨d :: ds, rfl, rfl⟩)

end

/-- Levels are in step, whatever the depth to which groups may be nested. -/
theorem lockstep_levelWithin (depth : Nat) :
    Lockstep (OneDraft a b) (levelWithin a depth) (levelWithin b depth) := by
  induction depth with
  | zero => exact .exhausted
  | succ depth ih =>
    refine .bind (lockstep_branch ih) ?_
    rintro _ _ ⟨first, rfl, rfl⟩
    refine Lockstep.loop (T := Both (List.map (Draft.over a)) (List.map (Draft.over b))) ?_
      ⟨[first], rfl, rfl⟩
    rintro _ _ ⟨ds, rfl, rfl⟩
    refine .after fun bar => ?_
    cases bar with
    | true =>
      refine .bind (lockstep_branch ih) ?_
      rintro _ _ ⟨d, rfl, rfl⟩
      exact .pure (.inl ⟨d :: ds, rfl, rfl⟩)
    | false =>
      refine .pure (.inr ?_)
      rw [← List.map_reverse, ← List.map_reverse, ← over_ofBranches, ← over_ofBranches]
      exact oneDraft_over _

/-- Over two alphabets the place is moved in the same way, and the pattern is refused for the same
    reason, or has the trees of one draft. -/
theorem lockstep_pattern (a b : Alphabet) :
    Lockstep (OneDraft a b) (pattern a) (pattern b) := by
  have levels : Lockstep (OneDraft a b) (level a) (level b) :=
    fun input place => lockstep_levelWithin input.limit input place
  refine .bind levels ?_
  rintro _ _ ⟨d, rfl, rfl⟩
  refine .after fun ended => ?_
  cases ended with
  | true => exact .pure (oneDraft_over d)
  | false => exact .after fun _ => .refuse _

end PatternSampler.Notation.Descent
