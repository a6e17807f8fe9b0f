import PatternSampler.Proofs.Generation.Trace

/-! # The expansion limit

  The expansion limit only cuts a generation off. The reference is the trace of the tree,
  which is what a run without the test of the limit does; its work is the number of symbols
  it writes and turns it begins.

  Nothing between the steps of a run looks at the limit: a symbol is drawn before its step is
  counted, a turn is counted before its body, and an empty set fails before it comes to a
  step. So the work decides alone which of the two outcomes a generation has.
-/

namespace PatternSampler

namespace Tree

variable {σ : Type} [WordSource σ] {t : Tree SymbolSet} {a : Alphabet} {settings : Settings}
  {source : σ}

/-- The run of a tree without the test of the limit does what the trace says. -/
theorem perform_none_eq_trace (t : Tree SymbolSet) (a : Alphabet) (cap : UInt32)
    (source : σ) :
    (t.wholeScript a cap).perform none (.start source) =
      (t.trace a cap source).after (.start source) :=
  (Script.follows_perform (t.wholeScript a cap)).within (.start source) (by
    intro most limited
    cases limited)

theorem generate_eq_result (within : (t.trace a settings.repeatCap source).work ≤
      settings.expansionLimit.toNat) :
    t.generate a settings source = (t.trace a settings.repeatCap source).result := by
  apply Script.generate_of_allowed
  intro most limited
  cases limited
  exact within

theorem generate_eq_limitExceeded (past : settings.expansionLimit.toNat <
      (t.trace a settings.repeatCap source).work) :
    (t.generate a settings source).1 = .error (.limitExceeded settings.expansionLimit.toNat) :=
  Script.generate_of_past past

/-- A generation fails for its limit or as the trace does. -/
theorem of_generate_eq_error {failure : Failure}
    (failed : (t.generate a settings source).1 = .error failure) :
    failure = .limitExceeded settings.expansionLimit.toNat ∨
      (t.trace a settings.repeatCap source).outcome = .error failure := by
  by_cases past : settings.expansionLimit.toNat < (t.trace a settings.repeatCap source).work
  · rw [generate_eq_limitExceeded past] at failed
    cases failed
    exact Or.inl rfl
  · rw [generate_eq_result (Nat.le_of_not_lt past)] at failed
    cases ended : (t.trace a settings.repeatCap source).outcome with
    | error failure' =>
      simp only [Trace.result, ended, Except.map] at failed
      cases failed
      exact Or.inr rfl
    | ok value =>
      simp only [Trace.result, ended, Except.map] at failed
      cases failed

/-- A generation whose trace ends well within the limit gives what the trace wrote. -/
theorem generate_eq_ok (within : (t.trace a settings.repeatCap source).work ≤
      settings.expansionLimit.toNat)
    (ended : (t.trace a settings.repeatCap source).outcome = .ok ()) :
    (t.generate a settings source).1 = .ok (t.trace a settings.repeatCap source).symbols := by
  rw [generate_eq_result within]
  simp only [Trace.result, ended, Except.map]

/-- The limit cuts and never alters.

    - The reference, a run without the test of the limit, ends as the trace of the tree does:
      it has then made one step for each symbol written and one for each turn begun.
    - A limit that allows for these steps gives the outcome and the source of the reference;
      any lower limit is exceeded.
    - So no value is longer than the limit, and a higher limit changes no outcome but that of
      a limit exceeded. -/
theorem generate_cuts_at_limit (t : Tree SymbolSet) (a : Alphabet) (settings : Settings)
    (source : σ) :
    (t.wholeScript a settings.repeatCap).perform none (.start source) =
      (t.trace a settings.repeatCap source).after (.start source) ∧
    ((t.trace a settings.repeatCap source).symbols.length +
        (t.trace a settings.repeatCap source).turns ≤ settings.expansionLimit.toNat →
      t.generate a settings source =
        (t.wholeScript a settings.repeatCap).generate none source) ∧
    (settings.expansionLimit.toNat < (t.trace a settings.repeatCap source).symbols.length +
        (t.trace a settings.repeatCap source).turns →
      (t.generate a settings source).1 =
        .error (.limitExceeded settings.expansionLimit.toNat)) ∧
    (∀ out, (t.generate a settings source).1 = .ok out →
      out.length ≤ settings.expansionLimit.toNat) ∧
    (∀ limit : UInt64, settings.expansionLimit ≤ limit →
      (t.generate a settings source).1 ≠
        .error (.limitExceeded settings.expansionLimit.toNat) →
      t.generate a { settings with expansionLimit := limit } source =
        t.generate a settings source) := by
  refine ⟨perform_none_eq_trace t a settings.repeatCap source, ?_, generate_eq_limitExceeded,
    ?_, ?_⟩
  · intro within
    have unlimited : Allowed none (t.trace a settings.repeatCap source).work := by
      intro most limited
      cases limited
    rw [generate_eq_result within]
    exact (Script.generate_of_allowed unlimited).symm
  · intro out generated
    obtain ⟨-, symbols_eq, work_le⟩ := Script.trace_of_generate_ok generated
    rw [← symbols_eq]
    exact Nat.le_trans (Nat.le_add_right _ _) work_le
  · intro limit higher not_exceeded
    -- the work was within the lower limit, so it is within the higher one too
    have within : (t.trace a settings.repeatCap source).work ≤ settings.expansionLimit.toNat := by
      apply Nat.le_of_not_lt
      intro past
      exact not_exceeded (generate_eq_limitExceeded past)
    have within_higher : (t.trace a settings.repeatCap source).work ≤
        { settings with expansionLimit := limit }.expansionLimit.toNat :=
      Nat.le_trans within higher
    rw [generate_eq_result within]
    exact generate_eq_result within_higher

/-- Three times `a` takes six steps: a limit of six gives the value, one of five is
    exceeded, and a limit above six changes nothing. -/
theorem generate_cuts_three_times_a :
    let t : Tree SymbolSet := .times (.literal 97) 3 (some 3)
    let source : Source := ⟨fun _ => 0, 0⟩
    (t.generate .bytes { expansionLimit := 6 } source).1 = .ok [97, 97, 97] ∧
    (t.generate .bytes { expansionLimit := 5 } source).1 = .error (.limitExceeded 5) ∧
    (t.generate .bytes { expansionLimit := 100 } source).1 = .ok [97, 97, 97] ∧
    [97, 97, 97].length ≤ 6 := by
  intro t source
  have at_six := generate_cuts_at_limit t .bytes { expansionLimit := 6 } source
  have at_five := generate_cuts_at_limit t .bytes { expansionLimit := 5 } source
  have value : (t.generate .bytes { expansionLimit := 6 } source).1 = .ok [97, 97, 97] := by
    rw [at_six.2.1 (by decide +kernel)]
    decide +kernel
  refine ⟨value, at_five.2.2.1 (by decide +kernel), ?_, at_six.2.2.2.1 _ value⟩
  rw [at_six.2.2.2.2 100 (by decide) (by rw [value]; exact fun h => nomatch h)]
  exact value

end Tree

end PatternSampler
