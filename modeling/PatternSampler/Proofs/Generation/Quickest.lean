import PatternSampler.Proofs.Generation.Cost
import PatternSampler.Proofs.Notation.NormalForm
import PatternSampler.Proofs.Random.Steering
import PatternSampler.Proofs.Stored.RoundTrip

/-! # The quickest way to a value

  No value is reached in fewer steps than the quickest choices take, and some stream of words
  makes these choices (`exists_trace_quickest`). So if there is no way to a value, whatever its
  length, then no configuration has one, and a failure that is not put down to the limit lasts.
  If there is a way that fits the greatest limit there is, some stream of words leads along it
  under some settings, and the failure may go away with another source
  (`failure_lasts_without_way`).

  A configuration gives only the streams that seeds lead to. Their words are computed from a short
  key, and it is not said which ways they take.
-/

namespace PatternSampler

/-! ## Steering a trace -/

namespace Tracing

open Source

variable {α β : Type}

/-- There are words that lead a part of a run to a value in a number of steps, whatever follows
    them. -/
def Attains (part : Tracing Source α) (value : α) (steps : ℕ) : Prop :=
  ∃ words, ∀ s : Source, s.Begins words →
    (part s).outcome = .ok value ∧ (part s).source = s.after words ∧ (part s).work = steps

theorem attains_pure (value : α) : Attains (pure value) value 0 :=
  ⟨[], fun _ _ => ⟨rfl, rfl, rfl⟩⟩

theorem attains_write (symbol : Symbol) : Attains (write symbol) () 1 :=
  ⟨[], fun _ _ => ⟨rfl, rfl, rfl⟩⟩

theorem attains_turn : Attains turn () 1 :=
  ⟨[], fun _ _ => ⟨rfl, rfl, rfl⟩⟩

theorem attains_drawing {draw : Source → α × Source} {value : α} (can_draw : CanDraw draw value) :
    Attains (drawing draw) value 0 := by
  obtain ⟨words, draws⟩ := can_draw
  refine ⟨words, fun s begins => ?_⟩
  simp [drawing, draws s begins, Trace.work]

/-- What leads through the first part and then through the second leads through both. -/
theorem Attains.bind {first : Tracing Source α} {next : α → Tracing Source β} {value : α}
    {result : β} {steps more : ℕ} (attains : Attains first value steps)
    (attains_next : Attains (next value) result more) :
    Attains (first >>= next) result (steps + more) := by
  obtain ⟨words, leads⟩ := attains
  obtain ⟨words', leads'⟩ := attains_next
  refine ⟨words ++ words', fun s begins => ?_⟩
  obtain ⟨begins_first, begins_next⟩ := begins_append.1 begins
  obtain ⟨ended, source_eq, work_eq⟩ := leads s begins_first
  rw [← source_eq] at begins_next
  obtain ⟨ended', source_eq', work_eq'⟩ := leads' _ begins_next
  rw [Trace.work_bind ended, work_eq, work_eq', bind_of_ok ended, after_append, ← source_eq]
  exact ⟨ended', source_eq', rfl⟩

/-- A draw that can be steered is no step. -/
theorem Attains.after_draw {draw : Source → α × Source} {next : α → Tracing Source β} {value : α}
    {result : β} {steps : ℕ} (attains : Attains (next value) result steps)
    (can_draw : CanDraw draw value) : Attains (drawing draw >>= next) result steps := by
  rw [← Nat.zero_add steps]
  exact (attains_drawing can_draw).bind attains

theorem Attains.seq {first second : Tracing Source Unit} {steps more : ℕ}
    (attains : Attains first () steps) (attains_second : Attains second () more) :
    Attains (first >>= fun _ => second) () (steps + more) :=
  attains.bind attains_second

/-- A part that is done at all is led through each time in the same way. -/
theorem Attains.replicate {part : Tracing Source Unit} {steps n : ℕ}
    (attains : n ≠ 0 → Attains part () steps) : Attains (replicate n part) () (n * steps) := by
  induction n with
  | zero =>
    rw [Nat.zero_mul]
    exact attains_pure ()
  | succ n ih =>
    have once := attains (Nat.succ_ne_zero n)
    rw [Nat.succ_mul, Nat.add_comm (n * steps) steps]
    exact once.seq (ih fun _ => once)

theorem attains_pick {set : SymbolSet} (context : String) (some_symbol : ∃ x, x ∈ set) :
    ∃ x, Attains (pick set context) x 0 := by
  have pos := SymbolSet.size_pos_iff.2 some_symbol
  obtain ⟨x, found⟩ := Option.isSome_iff_exists.1 (SymbolSet.nth?_isSome_iff.2 pos)
  refine ⟨x, ?_⟩
  unfold pick
  rw [if_neg (Nat.ne_of_gt pos)]
  refine Attains.after_draw ?_ (canDraw_low .double 0 (set.size - 1))
  rw [found]
  exact attains_pure x

/-- The least number of times can be picked. -/
theorem Attains.counted {low high : UInt32} {part : Tracing Source Unit} {steps : ℕ}
    (in_order : low ≤ high) (attains : low.toNat ≠ 0 → Attains part () steps) :
    Attains (pickCount low high >>= fun count => Tracing.replicate count.toNat part) ()
      (low.toNat * steps) := by
  unfold pickCount
  rw [if_neg (UInt32.not_lt.2 in_order)]
  exact Attains.after_draw (Attains.replicate attains) (canDraw_low32 low high)

end Tracing

/-! ## Steering through a tree -/

namespace Tree

open Tracing Stored

/-- The alternations have no more branches than indices that can be drawn. -/
def DrawableNode : Tree SymbolSet → Prop
  | alternation branches => branches.length < 2 ^ 64
  | _ => True

theorem attains_choice {set : SymbolSet} (context : String) (some_symbol : ∃ x, x ∈ set) :
    Attains (Script.choice set context).trace () 1 := by
  obtain ⟨x, attains⟩ := attains_pick context some_symbol
  unfold Script.trace
  rw [← Nat.zero_add 1]
  exact attains.bind (attains_write x)

/-- The body of a repetition has a finite cost if it is charged for and the whole cost is
    finite. -/
theorem exists_turn_cost {turns steps : ℕ} {body : ℕ∞}
    (cost_eq : (turns : ℕ∞) * (1 + body) = steps) :
    ∃ k : ℕ, (turns ≠ 0 → body = k) ∧ turns * (1 + k) = steps := by
  by_cases no_turn : turns = 0
  · subst no_turn
    rw [Nat.cast_zero, zero_mul] at cost_eq
    refine ⟨0, fun h => absurd rfl h, ?_⟩
    rw [Nat.zero_mul]
    exact_mod_cast cost_eq
  · cases body with
    | top =>
      rw [add_top, ENat.mul_top (by exact_mod_cast no_turn)] at cost_eq
      cases cost_eq
    | coe k =>
      refine ⟨k, fun _ => rfl, ?_⟩
      exact_mod_cast cost_eq

variable [UnicodeClasses] {m : Mode} {cap : UInt32}

/-- Some words lead through a tree by the quickest choices, if these lead to a value. -/
def Attainable (m : Mode) (cap : UInt32) (t : Tree SymbolSet) : Prop :=
  ∀ steps : ℕ, t.cost (.quickest m.alphabet) = steps →
    Attains (t.script m.alphabet cap).trace () steps

theorem attains_traceAll {ts : List (Tree SymbolSet)} (each : ∀ t ∈ ts, t.Attainable m cap)
    {steps : ℕ} (sum_eq : (ts.map (cost (.quickest m.alphabet))).sum = steps) :
    Attains (Script.traceAll (ts.map (script m.alphabet cap))) () steps := by
  induction ts generalizing steps with
  | nil =>
    obtain rfl : 0 = steps := by exact_mod_cast (List.sum_nil.symm.trans sum_eq : (0 : ℕ∞) = steps)
    unfold Script.traceAll
    exact attains_pure ()
  | cons t ts ih =>
    rw [List.forall_mem_cons] at each
    rw [List.map_cons, List.sum_cons] at sum_eq
    obtain ⟨first, rest, first_eq, rest_eq, rfl⟩ := WithTop.add_eq_coe.1 sum_eq
    rw [List.map_cons]
    unfold Script.traceAll
    exact (each.1 first first_eq.symm).seq (ih each.2 rest_eq.symm)

theorem attains_traceNth {ts : List (Tree SymbolSet)} (each : ∀ t ∈ ts, t.Attainable m cap)
    {steps : ℕ} (min_eq : (ts.map (cost (.quickest m.alphabet))).foldr min ⊤ = steps) :
    ∃ index < ts.length,
      Attains (Script.traceNth (ts.map (script m.alphabet cap)) index) () steps := by
  induction ts generalizing steps with
  | nil => cases min_eq
  | cons t ts ih =>
    rw [List.forall_mem_cons] at each
    rw [List.map_cons, List.foldr_cons] at min_eq
    -- the least cost is that of the first tree or that of one of the others
    rcases min_choice (t.cost (.quickest m.alphabet))
      ((ts.map (cost (.quickest m.alphabet))).foldr min ⊤) with first | later
    · refine ⟨0, Nat.succ_pos ts.length, ?_⟩
      rw [List.map_cons]
      unfold Script.traceNth
      exact each.1 steps (first.symm.trans min_eq)
    · obtain ⟨index, below, attains⟩ := ih each.2 (later.symm.trans min_eq)
      refine ⟨index + 1, Nat.succ_lt_succ below, ?_⟩
      rw [List.map_cons]
      unfold Script.traceNth
      exact attains

/-- Where the quickest choices lead to a value, there are words that make them. -/
theorem attainable {t : Tree SymbolSet} (checked : t.Everywhere (CheckedNode m))
    (drawable : t.Everywhere DrawableNode) : t.Attainable m cap := by
  intro steps cost_eq
  induction t generalizing steps with
  | literal s =>
    simp only [script, Script.trace, cost] at cost_eq ⊢
    obtain rfl : 1 = steps := by exact_mod_cast cost_eq
    exact attains_write s
  | wildcard =>
    simp only [script, cost] at cost_eq ⊢
    obtain rfl : 1 = steps := by exact_mod_cast cost_eq
    exact attains_choice _ (exists_mem_wildcardChoices m)
  | bracket content negated =>
    have choices := exists_mem_choices_iff (m := m) checked.self.2 negated
    simp only [script, Script.bracket, cost, Pricing.quickest] at cost_eq ⊢
    by_cases offers : OffersSymbol m.alphabet (bracket content negated)
    · rw [if_pos offers] at cost_eq
      obtain rfl : 1 = steps := by exact_mod_cast cost_eq
      cases negated with
      | false => exact attains_choice _ (choices.2 offers)
      | true => exact attains_choice _ (choices.2 offers)
    · rw [if_neg offers] at cost_eq
      cases cost_eq
  | shorthand kind =>
    simp only [script, cost] at cost_eq ⊢
    obtain rfl : 1 = steps := by exact_mod_cast cost_eq
    exact attains_choice _ ⟨kind.representative, kind.representative_mem m⟩
  | concat terms ih =>
    have each : ∀ t ∈ terms, t.Attainable m cap := fun t t_mem =>
      ih t t_mem (checked.of_mem_children t_mem) (drawable.of_mem_children t_mem)
    simp only [script, scripts_eq_map, Script.trace, cost, costs_eq_map] at cost_eq ⊢
    exact attains_traceAll each cost_eq
  | alternation branches ih =>
    have each : ∀ t ∈ branches, t.Attainable m cap := fun t t_mem =>
      ih t t_mem (checked.of_mem_children t_mem) (drawable.of_mem_children t_mem)
    have length_lt : branches.length < 2 ^ 64 := drawable.self
    simp only [script, scripts_eq_map, Script.trace, cost, costs_eq_map,
      List.length_map] at cost_eq ⊢
    obtain ⟨index, below, attains⟩ := attains_traceNth each cost_eq
    have below_max : index < max branches.length 1 := lt_max_of_lt_left below
    exact attains.after_draw (Source.canDraw_index below_max (max_lt length_lt (by decide)))
  | group body capturing name ih =>
    have mem := List.mem_singleton_self body
    simp only [script, cost] at cost_eq ⊢
    exact ih (checked.of_mem_children mem) (drawable.of_mem_children mem) steps cost_eq
  | repetition body bounds greedy ih =>
    have mem := List.mem_singleton_self body
    have in_order : bounds.least ≤ bounds.upper cap := Bounds.least_le_upper checked.self
    have body_attains := ih (checked.of_mem_children mem) (drawable.of_mem_children mem)
    simp only [script, Script.trace, cost] at cost_eq ⊢
    obtain ⟨body_steps, body_eq, rfl⟩ := exists_turn_cost cost_eq
    refine Attains.counted in_order fun some_turn => ?_
    exact attains_turn.seq (body_attains body_steps (body_eq some_turn))
  | look side body negative _ =>
    simp only [script, Script.nothing, Script.trace, Script.traceAll, cost] at cost_eq ⊢
    obtain rfl : 0 = steps := by exact_mod_cast cost_eq
    exact attains_pure ()
  | anchor _ =>
    simp only [script, Script.nothing, Script.trace, Script.traceAll, cost] at cost_eq ⊢
    obtain rfl : 0 = steps := by exact_mod_cast cost_eq
    exact attains_pure ()

/-- Some source makes the quickest choices through a whole pattern. -/
theorem exists_trace_quickest {t : Tree SymbolSet} (checked : t.Everywhere (CheckedNode m))
    (drawable : t.Everywhere DrawableNode) {steps : ℕ}
    (cost_eq : t.wholeCost (.quickest m.alphabet) = steps) :
    ∃ source : Source, (t.trace m.alphabet cap source).outcome = .ok () ∧
      (t.trace m.alphabet cap source).work = steps := by
  have each : ∀ u ∈ (Plan.ofTree t).written, u.Attainable m cap := fun u u_mem =>
    attainable (checked.of_mem_written u_mem) (drawable.of_mem_written u_mem)
  simp only [wholeCost, costs_eq_map] at cost_eq
  obtain ⟨words, leads⟩ := attains_traceAll each cost_eq
  obtain ⟨ended, -, work_eq⟩ := leads _ (Source.begins_ofWords words)
  refine ⟨Source.ofWords words, ?_⟩
  simp only [trace, wholeScript, scripts_eq_map, Script.trace]
  exact ⟨ended, work_eq⟩

end Tree

/-! ## Lasting failures -/

namespace Pattern

open Stored

section

variable [UnicodeClasses] {m : Mode} {p : m.Value} {q : Pattern m}

theorem generateWith_eq_ok_iff {σ : Type} [WordSource σ] {settings : Settings} {source : σ}
    {value : m.Value} : (q.generateWith settings source).1 = .ok value ↔
      ∃ out, (q.tree.generate m.alphabet settings source).1 = .ok out ∧ m.encode out = value := by
  show (q.tree.generate m.alphabet settings source).1.map m.encode = .ok value ↔ _
  cases (q.tree.generate m.alphabet settings source).1 with
  | error failure => simp [Except.map]
  | ok out => simp [Except.map]

theorem generateWith_eq_error_iff {σ : Type} [WordSource σ] {settings : Settings} {source : σ}
    {failure : Failure} : (q.generateWith settings source).1 = .error failure ↔
      (q.tree.generate m.alphabet settings source).1 = .error failure := by
  show (q.tree.generate m.alphabet settings source).1.map m.encode = .error failure ↔ _
  cases (q.tree.generate m.alphabet settings source).1 with
  | error failure => simp [Except.map]
  | ok out => simp [Except.map]

/-- Where there is a value, there is a way to one. -/
theorem wholeCost_lt_top_of_value (checked : q.tree.Everywhere (CheckedNode m)) {σ : Type}
    [WordSource σ] {settings : Settings} {source : σ} {value : m.Value}
    (generated : (q.generateWith settings source).1 = .ok value) :
    q.tree.wholeCost (.quickest m.alphabet) < ⊤ := by
  obtain ⟨out, tree_generated, -⟩ := generateWith_eq_ok_iff.1 generated
  obtain ⟨ended, -, -⟩ := Script.trace_of_generate_ok tree_generated
  have quick_le := (Tree.confined_whole checked).quick_le _ _ ended
  exact quick_le.trans_lt (WithTop.coe_lt_top _)

/-- Where the quickest way fits the greatest limit there is, some stream of words leads along
    it. -/
theorem exists_value_of_wholeCost_lt (checked : q.tree.Everywhere (CheckedNode m))
    (drawable : q.tree.Everywhere Tree.DrawableNode)
    (lt : q.tree.wholeCost (.quickest m.alphabet) < 2 ^ 64) :
    ∃ settings, ∃ source : Source, ∃ value, (q.generateWith settings source).1 = .ok value := by
  obtain ⟨steps, cost_eq⟩ := ENat.ne_top_iff_exists.1 (ne_top_of_lt lt)
  rw [← cost_eq] at lt
  have steps_lt : steps < 2 ^ 64 := by exact_mod_cast lt
  let settings : Settings := { expansionLimit := 0xFFFFFFFFFFFFFFFF }
  obtain ⟨source, ended, work_eq⟩ : ∃ source : Source,
      (q.tree.trace m.alphabet settings.repeatCap source).outcome = .ok () ∧
      (q.tree.trace m.alphabet settings.repeatCap source).work = steps :=
    Tree.exists_trace_quickest checked drawable cost_eq.symm
  have within : (q.tree.trace m.alphabet settings.repeatCap source).work ≤
      settings.expansionLimit.toNat := by
    have greatest : settings.expansionLimit.toNat = 2 ^ 64 - 1 := by decide
    rw [work_eq, greatest]
    omega
  have generated := Tree.generate_eq_ok within ended
  exact ⟨settings, source, _, generateWith_eq_ok_iff.2 ⟨_, generated, rfl⟩⟩

/-- A compiled tree passes the check, and its alternations are short enough to be drawn from. -/
theorem everywhere_of_compile (in_memory : (m.symbols p).length < 2 ^ 63)
    (compiled : compile m p = .ok q) :
    q.tree.Everywhere (CheckedNode m) ∧ q.tree.Everywhere Tree.DrawableNode := by
  obtain ⟨normal, short⟩ := Notation.everywhere_of_parse (compile_eq_ok_iff.1 compiled)
  refine ⟨checkTree_eq_ok_iff.1 (checkTree_of_normal normal), short.imp fun t short_node => ?_⟩
  cases t with
  | alternation branches =>
    have length_le : branches.length ≤ (m.symbols p).length + 1 := short_node
    show branches.length < 2 ^ 64
    omega
  | _ => trivial

/-- A failure that is not put down to the limit comes from a bracket that no symbol can be
    written for, and it need not last. Where no way leads past such brackets to a value, there is
    no value for any settings and any source, so that every configuration fails. But where some way
    does, and is not too long for every limit, there are settings and a stream of words that have a
    value.

    Which streams of words the seeds lead to is not said here, nor what becomes of a way that is too
    long for every limit. -/
theorem failure_lasts_without_way (in_memory : (m.symbols p).length < 2 ^ 63)
    (compiled : compile m p = .ok q) {σ : Type} [WordSource σ] {settings : Settings} {source : σ}
    {failure : Failure} (failed : (q.generateWith settings source).1 = .error failure)
    (lasting : failure.recoverable = false) :
    (failure = .noSymbol "a character class" ∨
      failure = .noSymbol "a negated character class") ∧
    ¬ q.tree.Everywhere (Tree.OffersSymbol m.alphabet) ∧
    (q.tree.wholeCost (.quickest m.alphabet) = ⊤ →
      (∀ {τ : Type} [WordSource τ] settings (source : τ) value,
        (q.generateWith settings source).1 ≠ .ok value) ∧
      ∀ settings fresh value, q.generate settings fresh ≠ .ok value) ∧
    (q.tree.wholeCost (.quickest m.alphabet) < 2 ^ 64 →
      ∃ settings, ∃ source : Source, ∃ value,
        (q.generateWith settings source).1 = .ok value) := by
  obtain ⟨checked, drawable⟩ := everywhere_of_compile in_memory compiled
  have fruitless : q.tree.Fruitless m.alphabet failure := by
    rcases Tree.of_generate_eq_error (generateWith_eq_error_iff.1 failed) with limited | ended
    · rw [limited] at lasting
      cases lasting
    · exact (Tree.confined_whole checked).expected _ failure ended
  refine ⟨fruitless.1, fruitless.2, fun no_way => ?_, exists_value_of_wholeCost_lt checked drawable⟩
  have no_value {τ : Type} [WordSource τ] (settings : Settings) (source : τ) (value : m.Value) :
      (q.generateWith settings source).1 ≠ .ok value := fun generated =>
    absurd no_way (wholeCost_lt_top_of_value checked generated).ne
  exact ⟨no_value, fun settings fresh => no_value settings (settings.seeding.source fresh)⟩

end

/-- The bracket `[^\x00-\xff]` over bytes can be written as no symbol, so that its failure lasts:
    no configuration of the pattern has a value. -/
theorem failure_lasts_no_byte :
    let p : Mode.bytes.Value := [0x5B, 0x5E, 0x00, 0x2D, 0xFF, 0x5D]
    let q : Pattern .bytes := ⟨.bracket ⟨[⟨0x00, 0xFF⟩]⟩ true⟩
    let source : Source := ⟨fun _ => 0, 0⟩
    compile .bytes p = .ok q ∧
      (q.generateWith {} source).1 = .error (.noSymbol "a negated character class") ∧
      ∀ settings fresh value, q.generate settings fresh ≠ .ok value := by
  intro p q source
  have content : Tree.NormalContent Mode.bytes.alphabet ⟨[⟨0x00, 0xFF⟩]⟩ :=
    ⟨by decide, by decide, by decide⟩
  have written : q.tree.pattern .bytes = p := by decide +kernel
  have compiled : compile .bytes p = .ok q := by
    rw [← written]
    exact compile_pattern content
  have failed : (q.generateWith {} source).1 =
      .error (.noSymbol "a negated character class") := by
    decide +kernel
  have in_memory : (Mode.bytes.symbols p).length < 2 ^ 63 := by decide +kernel
  obtain ⟨-, no_symbol_everywhere, lasts, -⟩ :=
    failure_lasts_without_way in_memory compiled failed rfl
  have no_way : q.tree.wholeCost (.quickest Mode.bytes.alphabet) = ⊤ := by
    have no_symbol : ¬ q.tree.OffersSymbol Mode.bytes.alphabet := no_symbol_everywhere
    have whole : q.tree.wholeCost (.quickest Mode.bytes.alphabet) =
        (Pricing.quickest Mode.bytes.alphabet).bracket ⟨[⟨0x00, 0xFF⟩]⟩ true := add_zero _
    rw [whole]
    exact if_neg no_symbol
  exact ⟨compiled, failed, (lasts no_way).2⟩

/-- The pattern `a|[^\x00-\xff]` over bytes fails for lack of a symbol with one seed, and gives
    a value with another. -/
theorem failure_ends_with_another_seed :
    let p : Mode.bytes.Value := [0x61, 0x7C, 0x5B, 0x5E, 0x00, 0x2D, 0xFF, 0x5D]
    let q : Pattern .bytes := ⟨.alternation [.literal 0x61, .bracket ⟨[⟨0x00, 0xFF⟩]⟩ true]⟩
    let failure : Failure := .noSymbol "a negated character class"
    compile .bytes p = .ok q ∧ failure.recoverable = false ∧
      q.generate (.seeded 0) (.seeded 0) = .error failure ∧
      q.generate (.seeded 2) (.seeded 0) = .ok [0x61] := by
  intro p q failure
  have content : Tree.NormalContent Mode.bytes.alphabet ⟨[⟨0x00, 0xFF⟩]⟩ :=
    ⟨by decide, by decide, by decide⟩
  have normal : q.tree.Normal Mode.bytes.alphabet := by
    have letter : (0x61 : Symbol) ∈ Mode.bytes.alphabet.full := by decide
    simp [q, Tree.Normal, Tree.Everywhere, Tree.EverywhereIn, Tree.NormalNode, Tree.IsBranch,
      content, letter]
  have written : q.tree.pattern .bytes = p := by decide +kernel
  have compiled : compile .bytes p = .ok q := by
    rw [← written]
    exact compile_pattern normal
  exact ⟨compiled, rfl, by decide +kernel, by decide +kernel⟩

end Pattern

end PatternSampler
