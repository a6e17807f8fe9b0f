import Mathlib.Data.ENat.Lattice
import Mathlib.Data.List.MinMax
import PatternSampler.Proofs.Mode
import PatternSampler.Proofs.Generation.Limit
import PatternSampler.Proofs.Stored.Check

/-! # The cost of a pattern

  How many steps generating from a tree may take, said by recursion over the tree: a symbol is
  one step, a repetition takes a step and its body for each turn, and what a choice leaves open
  is charged at its dearest or at its cheapest.

  For every tree that passes the check, a trace keeps between these bounds, and the only thing
  that can end it early is a bracket that has no symbol to offer (`confined_trace`). So a
  generation always makes progress: it gives a value, or comes upon such a bracket, or reaches
  its limit, and which of these is known beforehand where the costs lie on one side of the
  limit (`generate_progress`).
-/

namespace PatternSampler

/-! ## Prices -/

/-- What the cost of a tree depends on. -/
structure Pricing where
  /-- The cost of a bracket. -/
  bracket : SymbolSet → Bool → ℕ∞
  /-- The cost of an alternation, from those of its branches. -/
  choose : List ℕ∞ → ℕ∞
  /-- The number of turns of a repetition. -/
  turns : Bounds → UInt32

namespace Tree

/-- There is a symbol that a bracket can be written as. -/
def OffersSymbol (a : Alphabet) : Tree SymbolSet → Prop
  | bracket content negated => ∃ x ∈ a.full, if negated then x ∉ content else x ∈ content
  | _ => True

mutual

/-- The cost of a tree. Lookarounds and anchors write nothing and cost nothing. -/
def cost (pricing : Pricing) : Tree SymbolSet → ℕ∞
  | literal _ => 1
  | wildcard => 1
  | bracket content negated => pricing.bracket content negated
  | shorthand _ => 1
  | concat terms => (costs pricing terms).sum
  | alternation branches => pricing.choose (costs pricing branches)
  | group body _ _ => cost pricing body
  | repetition body bounds _ => (pricing.turns bounds).toNat * (1 + cost pricing body)
  | look _ _ _ => 0
  | anchor _ => 0

/-- The cost of each tree of a list. -/
def costs (pricing : Pricing) : List (Tree SymbolSet) → List ℕ∞
  | [] => []
  | t :: ts => cost pricing t :: costs pricing ts

end

@[simp] theorem costs_eq_map (pricing : Pricing) (ts : List (Tree SymbolSet)) :
    costs pricing ts = ts.map (cost pricing) := by
  induction ts with
  | nil => simp [costs]
  | cons t ts ih => simp [costs, ih]

/-- The cost of a whole pattern, with the lookarounds at its ends written out. -/
def wholeCost (pricing : Pricing) (t : Tree SymbolSet) : ℕ∞ :=
  (costs pricing (Plan.ofTree t).written).sum

end Tree

namespace Pricing

/-- The dearest choices: the dearest branch, and as many turns as a cap allows. -/
noncomputable def greatest (cap : UInt32) : Pricing where
  bracket _ _ := 1
  choose costs := costs.foldr max ⊥
  turns bounds := bounds.upper cap

/-- The cheapest choices: the cheapest branch, and as few turns as possible. -/
noncomputable def least : Pricing where
  bracket _ _ := 1
  choose costs := costs.foldr min ⊤
  turns bounds := bounds.least

open Classical in
/-- The cheapest choices by which a value is reached: no number of steps leads past a bracket
    that offers no symbol. -/
noncomputable def quickest (a : Alphabet) : Pricing where
  bracket content negated := if Tree.OffersSymbol a (.bracket content negated) then 1 else ⊤
  choose costs := costs.foldr min ⊤
  turns bounds := bounds.least

end Pricing

/-- Where no bracket is without a symbol, the cheapest choices lead to a value. -/
theorem Tree.cost_quickest {a : Alphabet} {t : Tree SymbolSet}
    (offers : t.Everywhere (OffersSymbol a)) :
    t.cost (.quickest a) = t.cost .least := by
  induction t with
  | literal _ | wildcard | shorthand _ | look _ _ _ | anchor _ => simp only [cost]
  | bracket content negated =>
    simp only [cost, Pricing.least]
    exact if_pos offers.self
  | concat terms ih =>
    simp only [cost, costs_eq_map]
    rw [List.map_congr_left fun u u_mem => ih u u_mem (offers.of_mem_children u_mem)]
  | alternation branches ih =>
    simp only [cost, costs_eq_map]
    rw [List.map_congr_left fun u u_mem => ih u u_mem (offers.of_mem_children u_mem)]
    rfl
  | group body _ _ ih =>
    simp only [cost]
    exact ih (offers.of_mem_children (List.mem_singleton_self body))
  | repetition body bounds _ ih =>
    simp only [cost]
    rw [ih (offers.of_mem_children (List.mem_singleton_self body))]
    rfl

theorem Tree.wholeCost_quickest {a : Alphabet} {t : Tree SymbolSet}
    (offers : t.Everywhere (OffersSymbol a)) :
    t.wholeCost (.quickest a) = t.wholeCost .least := by
  simp only [wholeCost, costs_eq_map]
  rw [List.map_congr_left fun u u_mem => cost_quickest (offers.of_mem_written u_mem)]

/-! ## Traces between bounds -/

/-- However it draws, a part of a run takes no more steps than `most`, takes at least `quick`
    if it ends well, and fails for nothing but what `fails` allows. -/
structure Tracing.Confined {σ α : Type} (part : Tracing σ α) (quick most : ℕ∞)
    (fails : Failure → Prop) : Prop where
  /-- All runs are short enough. -/
  work_le : ∀ source, (part source).work ≤ most
  /-- Runs that end well are long enough. -/
  quick_le : ∀ source value, (part source).outcome = .ok value → quick ≤ (part source).work
  /-- Failures are expected. -/
  expected : ∀ source failure, (part source).outcome = .error failure → fails failure

namespace Tracing.Confined

variable {σ α β : Type} {quick quick' most most' : ℕ∞} {fails fails' : Failure → Prop}

theorem mono {part : Tracing σ α} (confined : Confined part quick most fails)
    (quick_le : quick' ≤ quick) (most_le : most ≤ most')
    (fails_imp : ∀ failure, fails failure → fails' failure) :
    Confined part quick' most' fails' where
  work_le source := (confined.work_le source).trans most_le
  quick_le source value ended := quick_le.trans (confined.quick_le source value ended)
  expected source failure ended := fails_imp failure (confined.expected source failure ended)

theorem of_draw {draw : σ → α × σ} : Confined (drawing draw) 0 0 fails where
  work_le _ := le_rfl
  quick_le _ _ _ := le_rfl
  expected _ _ := nofun

theorem pure {value : α} : Confined (Pure.pure value : Tracing σ α) 0 0 fails where
  work_le _ := le_rfl
  quick_le _ _ _ := le_rfl
  expected _ _ := nofun

theorem write {symbol : Symbol} : Confined (Tracing.write symbol : Tracing σ Unit) 1 1 fails where
  work_le _ := le_rfl
  quick_le _ _ _ := le_rfl
  expected _ _ := nofun

theorem turn : Confined (Tracing.turn : Tracing σ Unit) 1 1 fails where
  work_le _ := le_rfl
  quick_le _ _ _ := le_rfl
  expected _ _ := nofun

/-- Bounds add up along a sequence. What follows may depend on how the first part ended. -/
theorem bind {first : Tracing σ α} {next : α → Tracing σ β}
    (confined : Confined first quick most fails)
    (confined_next : ∀ source value, (first source).outcome = .ok value →
      Confined (next value) quick' most' fails) :
    Confined (first >>= next) (quick + quick') (most + most') fails := by
  constructor
  · intro source
    cases ended : (first source).outcome with
    | error failure =>
      rw [bind_of_error ended]
      exact (confined.work_le source).trans le_self_add
    | ok value =>
      have next_le := (confined_next source value ended).work_le (first source).source
      rw [Trace.work_bind ended, Nat.cast_add]
      exact add_le_add (confined.work_le source) next_le
  · intro source result ended
    obtain ⟨value, first_ended, next_ended, -⟩ := ok_of_bind ended
    have next_le := (confined_next source value first_ended).quick_le _ _ next_ended
    rw [Trace.work_bind first_ended, Nat.cast_add]
    exact add_le_add (confined.quick_le source value first_ended) next_le
  · intro source failure
    cases ended : (first source).outcome with
    | error failure' =>
      rw [bind_of_error ended]
      intro same
      cases same
      exact confined.expected source failure ended
    | ok value =>
      rw [bind_of_ok ended]
      exact (confined_next source value ended).expected (first source).source failure

/-- A draw is no step. -/
theorem after_draw {draw : σ → α × σ} {next : α → Tracing σ β}
    (confined_next : ∀ source, Confined (next (draw source).1) quick most fails) :
    Confined (drawing draw >>= next) quick most fails := by
  rw [← zero_add quick, ← zero_add most]
  refine of_draw.bind fun source value drawn => ?_
  cases drawn
  exact confined_next source

theorem replicate {part : Tracing σ Unit} (confined : Confined part quick most fails) (n : ℕ) :
    Confined (Tracing.replicate n part) (n * quick) (n * most) fails := by
  induction n with
  | zero =>
    rw [Nat.cast_zero, zero_mul, zero_mul]
    exact pure
  | succ n ih =>
    rw [Nat.cast_succ, add_mul, add_mul, one_mul, one_mul, add_comm _ quick, add_comm _ most]
    exact confined.bind fun _ _ _ => ih

/-- A symbol is found for every index that is drawn, so that only an empty set fails. -/
theorem pick [WordSource σ] {set : SymbolSet} {context : String} (some_symbol : ∃ x, x ∈ set) :
    Confined (Tracing.pick set context : Tracing σ Symbol) 0 0 fails := by
  have not_empty : set.size ≠ 0 := Nat.ne_of_gt (SymbolSet.size_pos_iff.2 some_symbol)
  unfold Tracing.pick
  rw [if_neg not_empty]
  refine after_draw fun source => ?_
  have bounds := WordSource.between_bounds source .double (Nat.zero_le (set.size - 1))
  have below : (WordSource.between source .double 0 (set.size - 1)).1 < set.size := by omega
  obtain ⟨symbol, found⟩ := Option.isSome_iff_exists.1 (SymbolSet.nth?_isSome_iff.2 below)
  rw [found]
  exact pure

theorem pick_empty [WordSource σ] {set : SymbolSet} {context : String}
    (no_symbol : ¬ ∃ x, x ∈ set) (fails_so : fails (.noSymbol context)) :
    Confined (Tracing.pick set context : Tracing σ Symbol) ⊤ 0 fails := by
  have empty : set.size = 0 := by
    by_contra not_empty
    exact no_symbol (SymbolSet.size_pos_iff.1 (Nat.pos_of_ne_zero not_empty))
  unfold Tracing.pick
  rw [if_pos empty]
  exact ⟨fun _ => le_rfl, fun _ _ => nofun, fun _ _ same => by cases same; exact fails_so⟩

theorem pickCount [WordSource σ] {low high : UInt32} (in_order : low ≤ high) :
    Confined (Tracing.pickCount low high : Tracing σ UInt32) 0 0 fails := by
  unfold Tracing.pickCount
  rw [if_neg (UInt32.not_lt.2 in_order)]
  exact of_draw

/-- A part done as many times as was picked takes its share for each time, and the number of
    times lies between the bounds. -/
theorem counted [WordSource σ] {low high : UInt32} {part : Tracing σ Unit}
    (in_order : low ≤ high)
    (confined : Confined part quick most fails) :
    Confined (Tracing.pickCount low high >>= fun count => Tracing.replicate count.toNat part)
      (low.toNat * quick) (high.toNat * most) fails := by
  rw [← zero_add (low.toNat * quick), ← zero_add (high.toNat * most)]
  refine (pickCount in_order).bind fun source count picked => ?_
  obtain ⟨low_le, le_high, -⟩ := pickCount_ok picked
  exact (confined.replicate count.toNat).mono (by gcongr) (by gcongr) fun _ => id

end Tracing.Confined

/-! ## Traces of trees -/

theorem Bounds.least_le_upper {bounds : Bounds} {cap : UInt32} (consistent : bounds.Consistent) :
    bounds.least ≤ bounds.upper cap := by
  unfold Bounds.upper
  split
  · rename_i most most_eq
    exact consistent most most_eq
  · have least_lt : bounds.least.toNat < UInt32.size := bounds.least.toNat_lt
    have size_eq : UInt32.size = 2 ^ 32 := rfl
    rw [UInt32.le_iff_toNat_le, UInt32.toNat_ofNat']
    omega

namespace Tree

open Tracing Stored

/-- How a tree may fail: only for a bracket that has no symbol to offer. -/
def Fruitless (a : Alphabet) (t : Tree SymbolSet) (failure : Failure) : Prop :=
  (failure = .noSymbol "a character class" ∨ failure = .noSymbol "a negated character class") ∧
    ¬ t.Everywhere (OffersSymbol a)

variable {σ : Type} [WordSource σ] {fails : Failure → Prop}

/-- A place for one symbol that there is. -/
theorem confined_choice {set : SymbolSet} {context : String} (some_symbol : ∃ x, x ∈ set) :
    Confined ((Script.choice set context).trace : Tracing σ Unit) 1 1 fails := by
  unfold Script.trace
  rw [← zero_add (1 : ℕ∞)]
  exact (Confined.pick some_symbol).bind fun _ _ _ => Confined.write

/-- A place for one symbol that there is not. -/
theorem confined_choice_empty {set : SymbolSet} {context : String} (no_symbol : ¬ ∃ x, x ∈ set)
    (fails_so : fails (.noSymbol context)) :
    Confined ((Script.choice set context).trace : Tracing σ Unit) ⊤ 1 fails := by
  unfold Script.trace
  rw [← zero_add (1 : ℕ∞), ← top_add 1]
  exact (Confined.pick_empty no_symbol fails_so).bind fun _ _ _ => Confined.write

section

variable [UnicodeClasses] {m : Mode} {cap : UInt32}

/-- The bounds on the trace of a tree, for one kind of source. -/
abbrev ConfinedBy (σ : Type) [WordSource σ] (m : Mode) (cap : UInt32) (fails : Failure → Prop)
    (t : Tree SymbolSet) : Prop :=
  Confined ((t.script m.alphabet cap).trace : Tracing σ Unit) (t.cost (.quickest m.alphabet))
    (t.cost (.greatest cap)) fails

/-- What is fruitless for a part is so for the tree. -/
theorem ConfinedBy.of_mem_children {t u : Tree SymbolSet}
    (confined : u.ConfinedBy σ m cap (u.Fruitless m.alphabet)) (mem : u ∈ t.children) :
    u.ConfinedBy σ m cap (t.Fruitless m.alphabet) :=
  confined.mono le_rfl le_rfl fun _ fruitless =>
    ⟨fruitless.1, fun offers => fruitless.2 (offers.of_mem_children mem)⟩

theorem confined_traceAll {ts : List (Tree SymbolSet)}
    (each : ∀ t ∈ ts, t.ConfinedBy σ m cap fails) :
    Confined (Script.traceAll (ts.map (script m.alphabet cap)) : Tracing σ Unit)
      (ts.map (cost (.quickest m.alphabet))).sum (ts.map (cost (.greatest cap))).sum fails := by
  induction ts with
  | nil =>
    unfold Script.traceAll
    exact Confined.pure
  | cons t ts ih =>
    rw [List.forall_mem_cons] at each
    simp only [List.map_cons, List.sum_cons]
    unfold Script.traceAll
    exact each.1.bind fun _ _ _ => ih each.2

theorem confined_traceNth {ts : List (Tree SymbolSet)}
    (each : ∀ t ∈ ts, t.ConfinedBy σ m cap fails)
    {index : ℕ} (below : index < ts.length) :
    Confined (Script.traceNth (ts.map (script m.alphabet cap)) index : Tracing σ Unit)
      ((ts.map (cost (.quickest m.alphabet))).foldr min ⊤)
      ((ts.map (cost (.greatest cap))).foldr max ⊥) fails := by
  induction ts generalizing index with
  | nil => cases below
  | cons t ts ih =>
    rw [List.forall_mem_cons] at each
    simp only [List.map_cons, List.foldr_cons]
    cases index with
    | zero =>
      unfold Script.traceNth
      exact each.1.mono (min_le_left _ _) (le_max_left _ _) fun _ => id
    | succ index =>
      unfold Script.traceNth
      have later := ih each.2 (Nat.lt_of_succ_lt_succ below)
      exact later.mono (min_le_right _ _) (le_max_right _ _) fun _ => id

theorem exists_mem_choices_iff {content : SymbolSet} (canonical : content.Canonical)
    (negated : Bool) :
    (∃ x, x ∈ if negated then m.alphabet.complement content else m.alphabet.restrict content) ↔
      OffersSymbol m.alphabet (.bracket content negated) := by
  have lawful := Alphabet.lawful_mode m
  unfold OffersSymbol
  cases negated with
  | false => simp only [Bool.false_eq_true, if_false, Alphabet.mem_restrict lawful canonical]
  | true => simp only [if_true, Alphabet.mem_complement canonical]

theorem confined_bracket {content : SymbolSet} (canonical : content.Canonical) (negated : Bool) :
    (bracket content negated).ConfinedBy σ m cap
      (Fruitless m.alphabet (bracket content negated)) := by
  have choices := exists_mem_choices_iff (m := m) canonical negated
  unfold ConfinedBy
  simp only [script, Script.bracket, cost, Pricing.quickest, Pricing.greatest]
  by_cases offers : OffersSymbol m.alphabet (bracket content negated)
  · rw [if_pos offers]
    cases negated with
    | false => exact confined_choice (choices.2 offers)
    | true => exact confined_choice (choices.2 offers)
  · have no_choice := mt choices.1 offers
    rw [if_neg offers]
    cases negated with
    | false => exact confined_choice_empty no_choice ⟨Or.inl rfl, offers⟩
    | true => exact confined_choice_empty no_choice ⟨Or.inr rfl, offers⟩

theorem exists_mem_wildcardChoices (m : Mode) : ∃ x, x ∈ Script.wildcardChoices m.alphabet := by
  have line_feed := SymbolSet.canonical_single (.ofChar '\n')
  have in_full : Symbol.ofChar 'a' ∈ m.alphabet.full := m.mem_full_of_ascii (by decide)
  exact ⟨.ofChar 'a', (Alphabet.mem_complement line_feed).2 ⟨in_full, by decide⟩⟩

/-- The trace of a tree that passes the check keeps between the costs of the tree, and fails
    only where there is no symbol for a bracket. -/
theorem confined_trace {t : Tree SymbolSet} (checked : t.Everywhere (CheckedNode m)) :
    t.ConfinedBy σ m cap (t.Fruitless m.alphabet) := by
  induction t with
  | literal s =>
    simp only [ConfinedBy, script, Script.trace, cost]
    exact Confined.write
  | wildcard =>
    simp only [ConfinedBy, script, cost]
    exact confined_choice (exists_mem_wildcardChoices m)
  | bracket content negated => exact confined_bracket checked.self.2 negated
  | shorthand kind =>
    simp only [ConfinedBy, script, cost]
    exact confined_choice ⟨kind.representative, kind.representative_mem m⟩
  | concat terms ih =>
    have each : ∀ t ∈ terms, t.ConfinedBy σ m cap (Fruitless m.alphabet (.concat terms)) :=
      fun t t_mem => (ih t t_mem (checked.of_mem_children t_mem)).of_mem_children t_mem
    simp only [ConfinedBy, script, scripts_eq_map, Script.trace, cost, costs_eq_map]
    exact confined_traceAll each
  | alternation branches ih =>
    have each : ∀ t ∈ branches,
        t.ConfinedBy σ m cap (Fruitless m.alphabet (.alternation branches)) :=
      fun t t_mem => (ih t t_mem (checked.of_mem_children t_mem)).of_mem_children t_mem
    have two : 2 ≤ branches.length := checked.self
    simp only [ConfinedBy, script, scripts_eq_map, Script.trace, cost, costs_eq_map,
      List.length_map]
    refine Confined.after_draw fun source => ?_
    have below := WordSource.index_lt source (show 0 < max branches.length 1 by omega)
    exact confined_traceNth each (by omega)
  | group body capturing name ih =>
    have mem := List.mem_singleton_self body
    simp only [ConfinedBy, script, cost]
    exact (ih (checked.of_mem_children mem)).of_mem_children mem
  | repetition body bounds greedy ih =>
    have mem := List.mem_singleton_self body
    have body_confined : body.ConfinedBy σ m cap
        (Fruitless m.alphabet (.repetition body bounds greedy)) :=
      (ih (checked.of_mem_children mem)).of_mem_children mem
    have in_order : bounds.least ≤ bounds.upper cap := Bounds.least_le_upper checked.self
    simp only [ConfinedBy, script, Script.trace, cost]
    exact Confined.counted in_order (Confined.turn.bind fun _ _ _ => body_confined)
  | look side body negative _ =>
    simp only [ConfinedBy, script, Script.nothing, Script.trace, Script.traceAll, cost]
    exact Confined.pure
  | anchor _ =>
    simp only [ConfinedBy, script, Script.nothing, Script.trace, Script.traceAll, cost]
    exact Confined.pure

/-- The same for a whole pattern. -/
theorem confined_whole {t : Tree SymbolSet} (checked : t.Everywhere (CheckedNode m)) :
    Confined (t.trace m.alphabet cap : Tracing σ Unit) (t.wholeCost (.quickest m.alphabet))
      (t.wholeCost (.greatest cap)) (t.Fruitless m.alphabet) := by
  have each : ∀ u ∈ (Plan.ofTree t).written, u.ConfinedBy σ m cap (t.Fruitless m.alphabet) :=
    fun u u_mem => (confined_trace (checked.of_mem_written u_mem)).mono le_rfl le_rfl
      fun _ fruitless => ⟨fruitless.1, fun offers => fruitless.2 (offers.of_mem_written u_mem)⟩
  simp only [trace, wholeScript, scripts_eq_map, Script.trace, wholeCost, costs_eq_map]
  exact confined_traceAll each

/-! ## Progress -/

/-- Generating from a tree that passes the check makes progress, whatever the source.

    - It gives a value, or reaches its limit, or comes upon a bracket that no symbol can be
      written for; nothing else goes wrong.
    - If every bracket has a symbol, a limit that allows for the dearest choices is never
      reached, and a limit below the cheapest choices always is. -/
theorem generate_progress {t : Tree SymbolSet} (checked : checkTree m t = .ok ())
    (settings : Settings) (source : σ) :
    (∀ failure, (t.generate m.alphabet settings source).1 = .error failure →
      failure = .limitExceeded settings.expansionLimit.toNat ∨
      (failure = .noSymbol "a character class" ∨
          failure = .noSymbol "a negated character class") ∧
        ¬ t.Everywhere (OffersSymbol m.alphabet)) ∧
    (t.Everywhere (OffersSymbol m.alphabet) →
      (t.wholeCost (.greatest settings.repeatCap) ≤ settings.expansionLimit.toNat →
        ∃ out, (t.generate m.alphabet settings source).1 = .ok out) ∧
      (settings.expansionLimit.toNat < t.wholeCost .least →
        (t.generate m.alphabet settings source).1 =
          .error (.limitExceeded settings.expansionLimit.toNat))) := by
  have confined : Confined (t.trace m.alphabet settings.repeatCap : Tracing σ Unit) _ _ _ :=
    confined_whole (checkTree_eq_ok_iff.1 checked)
  refine ⟨fun failure failed => ?_, fun offers => ?_⟩
  · exact (of_generate_eq_error failed).imp_right (confined.expected source failure)
  · -- nothing is left that could end the trace early
    have ended : (t.trace m.alphabet settings.repeatCap source).outcome = .ok () := by
      cases outcome_eq : (t.trace m.alphabet settings.repeatCap source).outcome with
      | error failure => exact absurd offers (confined.expected source failure outcome_eq).2
      | ok value => rfl
    constructor
    · intro enough
      have within := (confined.work_le source).trans enough
      exact ⟨_, generate_eq_ok (Nat.cast_le.1 within) ended⟩
    · intro few
      have quick_le := confined.quick_le source () ended
      rw [wholeCost_quickest offers] at quick_le
      exact generate_eq_limitExceeded (Nat.cast_lt.1 (few.trans_le quick_le))

end

/-- The pattern `(?<=x)(a|bc){2,3}[^a-c]` over bytes takes 6 steps at least and 11 at most,
    those for the symbol before it included. -/
theorem generate_progress_six_to_eleven :
    let t : Tree SymbolSet := .concat [.look .behind (.literal 120) false,
      .times (.group (.alternation [.literal 97, .concat [.literal 98, .literal 99]]) true none)
        2 (some 3),
      .bracket ⟨[⟨97, 99⟩]⟩ true]
    checkTree .bytes t = .ok () ∧ t.Everywhere (OffersSymbol Mode.bytes.alphabet) ∧
      ∀ source : Source,
        (∃ out, (t.generate Mode.bytes.alphabet { expansionLimit := 11 } source).1 = .ok out) ∧
        (t.generate Mode.bytes.alphabet { expansionLimit := 5 } source).1 =
          .error (.limitExceeded 5) := by
  intro t
  have checked : checkTree .bytes t = .ok () := by decide +kernel
  have offers : t.Everywhere (OffersSymbol Mode.bytes.alphabet) := by
    have outside : ∃ x ∈ Mode.bytes.alphabet.full, x ∉ (⟨[⟨97, 99⟩]⟩ : SymbolSet) :=
      ⟨0, by decide, by decide⟩
    simpa [t, Tree.times, Everywhere, OffersSymbol] using outside
  have dearest : t.wholeCost (.greatest 10) ≤ 11 := by decide +kernel
  have cheapest : 5 < t.wholeCost .least := by decide +kernel
  refine ⟨checked, offers, fun source => ?_⟩
  have at_eleven := generate_progress checked { expansionLimit := 11 } source
  have at_five := generate_progress checked { expansionLimit := 5 } source
  exact ⟨(at_eleven.2 offers).1 dearest, (at_five.2 offers).2 cheapest⟩

end Tree

end PatternSampler
