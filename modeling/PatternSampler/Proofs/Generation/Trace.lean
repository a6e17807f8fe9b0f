import Mathlib.Data.List.Basic
import PatternSampler.Generation.Run
import PatternSampler.Proofs.Random.Draws
import PatternSampler.Proofs.SymbolSet.Algebra

/-! # Traces

  What performing a script does when nothing limits its steps, as a function of the random
  source alone: how it ends, which symbols it writes, how many turns of repetitions it
  begins and which source it leaves. The work of a trace is the number of its symbols and
  turns.

  The main statement, `follows_perform`, says that a run with or without a limit does what
  the trace says:

  - as long as the work stays within the limit, the run ends as the trace ends, and its state
    has grown by exactly what the trace tells;
  - as soon as the work goes past the limit, the run fails for that and for nothing else.

  It is proved for each small action and carried over to scripts by one rule for sequences,
  `Follows.bind`.
-/

namespace PatternSampler

/-- What a part of a run does when nothing limits its steps. -/
structure Trace (σ α : Type) where
  /-- The value, or why there is none. -/
  outcome : Except Failure α
  /-- The source after the draws that were made. -/
  source : σ
  /-- The symbols written, in order, up to the end or to the failure. -/
  symbols : List Symbol
  /-- The turns of repetitions begun, up to the end or to the failure. -/
  turns : Nat

/-- The steps of a trace: one for each symbol and one for each turn. -/
def Trace.work {σ α : Type} (t : Trace σ α) : Nat := t.symbols.length + t.turns

/-- A part of a run as a function of the source it starts from. -/
def Tracing (σ α : Type) : Type := σ → Trace σ α

namespace Tracing

variable {σ α β : Type}

/-! ## Small parts -/

/-- Nothing but a value. -/
protected def pure (value : α) : Tracing σ α := fun source => ⟨.ok value, source, [], 0⟩

/-- One part after another. A part that fails is the last one. -/
protected def bind (first : Tracing σ α) (next : α → Tracing σ β) : Tracing σ β := fun source =>
  let t := first source
  match t.outcome with
  | .error failure => ⟨.error failure, t.source, t.symbols, t.turns⟩
  | .ok value =>
    let u := next value t.source
    ⟨u.outcome, u.source, t.symbols ++ u.symbols, t.turns + u.turns⟩

instance : Monad (Tracing σ) where
  pure := Tracing.pure
  bind := Tracing.bind

/-- A failure. -/
def fail (failure : Failure) : Tracing σ α := fun source => ⟨.error failure, source, [], 0⟩

/-- A draw from the source. -/
def drawing (draw : σ → α × σ) : Tracing σ α := fun source =>
  ⟨.ok (draw source).1, (draw source).2, [], 0⟩

/-- One symbol. -/
def write (symbol : Symbol) : Tracing σ Unit := fun source => ⟨.ok (), source, [symbol], 0⟩

/-- The beginning of a turn. -/
def turn : Tracing σ Unit := fun source => ⟨.ok (), source, [], 1⟩

/-- The choice of a symbol of a set. -/
def pick [WordSource σ] (set : SymbolSet) (context : String) : Tracing σ Symbol :=
  if set.size = 0 then fail (.noSymbol context)
  else do
    let index ← drawing (WordSource.between · .double 0 (set.size - 1))
    match set.nth? index with
    | some symbol => pure symbol
    | none => fail (.noSymbol (context ++ " (symbol index " ++ toString index ++ " of " ++
        toString set.size ++ ")"))

/-- The choice of a number of repetitions. -/
def pickCount [WordSource σ] (least most : UInt32) : Tracing σ UInt32 :=
  if most < least then
    fail (.malformed 0 ("repeat minimum " ++ toString least ++ " exceeds maximum " ++
      toString most))
  else drawing (WordSource.between32 · least most)

/-- A part done a number of times. -/
def replicate : Nat → Tracing σ Unit → Tracing σ Unit
  | 0, _ => pure ()
  | n + 1, part => do
    part
    replicate n part

/-! ## How parts end -/

@[simp] theorem pure_apply (value : α) (source : σ) :
    (pure value : Tracing σ α) source = ⟨.ok value, source, [], 0⟩ := rfl

theorem bind_of_error {first : Tracing σ α} {next : α → Tracing σ β} {source : σ}
    {failure : Failure} (h : (first source).outcome = .error failure) :
    (first >>= next) source =
      ⟨.error failure, (first source).source, (first source).symbols, (first source).turns⟩ := by
  show Tracing.bind first next source = _
  simp only [Tracing.bind, h]

theorem bind_of_ok {first : Tracing σ α} {next : α → Tracing σ β} {source : σ} {value : α}
    (h : (first source).outcome = .ok value) :
    (first >>= next) source =
      ⟨(next value (first source).source).outcome, (next value (first source).source).source,
        (first source).symbols ++ (next value (first source).source).symbols,
        (first source).turns + (next value (first source).source).turns⟩ := by
  show Tracing.bind first next source = _
  simp only [Tracing.bind, h]

/-- A sequence that ends well has two parts that do, and writes what they write. -/
theorem ok_of_bind {first : Tracing σ α} {next : α → Tracing σ β} {source : σ} {result : β}
    (h : ((first >>= next) source).outcome = .ok result) :
    ∃ value, (first source).outcome = .ok value ∧
      (next value (first source).source).outcome = .ok result ∧
      ((first >>= next) source).symbols =
        (first source).symbols ++ (next value (first source).source).symbols := by
  cases ended : (first source).outcome with
  | error failure =>
    rw [bind_of_error ended] at h
    cases h
  | ok value =>
    rw [bind_of_ok ended] at h
    exact ⟨value, rfl, h, by rw [bind_of_ok ended]⟩

/-- A symbol that is chosen is in the set, and choosing writes nothing. -/
theorem pick_ok [WordSource σ] {set : SymbolSet} {context : String} {s : Symbol}
    {source : σ} (h : (pick set context source).outcome = .ok s) :
    s ∈ set ∧ (pick set context source).symbols = [] := by
  unfold pick at h ⊢
  by_cases empty : set.size = 0
  · simp only [empty, if_true] at h
    cases h
  · simp only [empty, if_false] at h ⊢
    obtain ⟨index, -, found, symbols_eq⟩ := ok_of_bind h
    rw [symbols_eq]
    cases nth_eq : set.nth? index with
    | none =>
      simp only [nth_eq] at found
      cases found
    | some symbol =>
      simp only [nth_eq] at found
      cases found
      exact ⟨SymbolSet.mem_of_nth? nth_eq, rfl⟩

/-- A number of repetitions that is chosen lies between the bounds, and choosing writes
    nothing. -/
theorem pickCount_ok [WordSource σ] {least most count : UInt32} {source : σ}
    (h : (pickCount least most source).outcome = .ok count) :
    least.toNat ≤ count.toNat ∧ count.toNat ≤ most.toNat ∧
      (pickCount least most source).symbols = [] := by
  unfold pickCount at h ⊢
  by_cases reversed : most < least
  · simp only [reversed, if_true] at h
    cases h
  · simp only [reversed, if_false] at h ⊢
    have in_order : least ≤ most := by
      rw [UInt32.lt_iff_toNat_lt] at reversed
      rw [UInt32.le_iff_toNat_le]
      omega
    have bounds := WordSource.between32_bounds source in_order
    cases h
    exact ⟨bounds.1, bounds.2, rfl⟩

end Tracing

/-! ## Traces of scripts -/

namespace Script

variable {σ : Type} [WordSource σ]

mutual

/-- What performing a script does without a limit. -/
def trace : Script → Tracing σ Unit
  | symbol s => Tracing.write s
  | choice set context => do
    let s ← Tracing.pick set context
    Tracing.write s
  | sequence parts => traceAll parts
  | branches scripts => do
    let chosen ← Tracing.drawing (WordSource.index · (max scripts.length 1))
    traceNth scripts chosen
  | repetition least most body => do
    let count ← Tracing.pickCount least most
    Tracing.replicate count.toNat do
      Tracing.turn
      trace body

/-- The scripts of a list, one after the other. -/
def traceAll : List Script → Tracing σ Unit
  | [] => pure ()
  | part :: rest => do
    trace part
    traceAll rest

/-- The script at an index of a list, and nothing if there is none. -/
def traceNth : List Script → Nat → Tracing σ Unit
  | [], _ => pure ()
  | script :: _, 0 => trace script
  | _ :: rest, n + 1 => traceNth rest n

end

end Script

/-- What generating from a tree does without a limit. -/
def Tree.trace {σ : Type} [WordSource σ] (t : Tree SymbolSet) (a : Alphabet) (cap : UInt32) :
    Tracing σ Unit :=
  (t.wholeScript a cap).trace

/-! ## Runs that follow a trace -/

namespace Trace

variable {σ α : Type}

/-- The state of a run to which a trace was added. -/
def extend (t : Trace σ α) (run : Run σ) : Run σ :=
  ⟨t.source, run.steps + t.work, run.written ++ t.symbols.toArray⟩

@[simp] theorem extend_source (t : Trace σ α) (run : Run σ) :
    (t.extend run).source = t.source := rfl

@[simp] theorem extend_steps (t : Trace σ α) (run : Run σ) :
    (t.extend run).steps = run.steps + t.work := rfl

/-- The end of a part of a run that did what a trace says. -/
def after (t : Trace σ α) (run : Run σ) : EStateM.Result Failure (Run σ) α :=
  match t.outcome with
  | .ok value => .ok value (t.extend run)
  | .error failure => .error failure (t.extend run)

end Trace

namespace Action

variable {σ α β : Type} {first : Action σ α} {next : α → Action σ β} {run middle : Run σ}

theorem bind_of_error {failure : Failure} (h : first run = .error failure middle) :
    (first >>= next) run = .error failure middle := by
  show EStateM.bind first next run = _
  simp only [EStateM.bind, h]

theorem bind_of_ok {value : α} (h : first run = .ok value middle) :
    (first >>= next) run = next value middle := by
  show EStateM.bind first next run = _
  simp only [EStateM.bind, h]

end Action

namespace Trace

variable {σ α β : Type}

theorem after_of_error {t : Trace σ α} {run : Run σ} {failure : Failure}
    (h : t.outcome = .error failure) : t.after run = .error failure (t.extend run) := by
  simp only [after, h]

theorem after_of_ok {t : Trace σ α} {run : Run σ} {value : α}
    (h : t.outcome = .ok value) : t.after run = .ok value (t.extend run) := by
  simp only [after, h]

/-- The steps of a sequence are those of its parts. -/
theorem work_bind {part : Tracing σ α} {next : α → Tracing σ β} {source : σ} {value : α}
    (h : (part source).outcome = .ok value) :
    ((part >>= next) source).work =
      (part source).work + (next value (part source).source).work := by
  rw [Tracing.bind_of_ok h]
  simp only [work, List.length_append]
  omega

/-- Adding a sequence to a run is adding its parts. -/
theorem after_bind {part : Tracing σ α} {next : α → Tracing σ β} {run : Run σ} {value : α}
    (h : (part run.source).outcome = .ok value) :
    ((part >>= next) run.source).after run =
      (next value (part run.source).source).after ((part run.source).extend run) := by
  have same_state : ((part >>= next) run.source).extend run =
      (next value (part run.source).source).extend ((part run.source).extend run) := by
    simp only [extend, work_bind h, Nat.add_assoc]
    rw [Tracing.bind_of_ok h]
    simp only [Array.append_assoc, List.append_toArray]
  unfold after
  rw [same_state, Tracing.bind_of_ok h]

end Trace

/-- A number of steps is allowed: there is no limit, or it is not exceeded. -/
def Allowed (limit : Option Nat) (steps : Nat) : Prop := ∀ most, limit = some most → steps ≤ most

theorem Allowed.of_le {limit : Option Nat} {fewer steps : Nat} (allowed : Allowed limit steps)
    (le : fewer ≤ steps) : Allowed limit fewer :=
  fun most h => Nat.le_trans le (allowed most h)

/-- An action does what a trace says as long as the limit allows it, and fails for the limit
    otherwise. -/
structure Follows {σ α : Type} (limit : Option Nat) (action : Action σ α) (part : Tracing σ α) :
    Prop where
  /-- Within the limit the action ends as the trace does. -/
  within : ∀ run : Run σ, Allowed limit (run.steps + (part run.source).work) →
    action run = (part run.source).after run
  /-- Past the limit it fails for that. -/
  beyond : ∀ (run : Run σ) (most : Nat), limit = some most → run.steps ≤ most →
    most < run.steps + (part run.source).work →
    ∃ stopped, action run = .error (.limitExceeded most) stopped

namespace Follows

variable {σ α β : Type} {limit : Option Nat}

/-- An action that makes no step follows the trace it ends like. -/
theorem of_idle {action : Action σ α} {part : Tracing σ α}
    (idle : ∀ source, (part source).work = 0)
    (same : ∀ run : Run σ, action run = (part run.source).after run) :
    Follows limit action part where
  within run _ := same run
  beyond run most _ below past := by
    rw [idle run.source] at past
    omega

/-- One action after another follows one trace after another. -/
theorem bind {first : Action σ α} {next : α → Action σ β} {part : Tracing σ α}
    {nextPart : α → Tracing σ β} (follows_first : Follows limit first part)
    (follows_next : ∀ value, Follows limit (next value) (nextPart value)) :
    Follows limit (first >>= next) (part >>= nextPart) := by
  constructor
  · intro run allowed
    cases ended : (part run.source).outcome with
    | error failure =>
      -- the second part has no share in the work
      rw [Tracing.bind_of_error ended] at allowed ⊢
      have first_eq := follows_first.within run allowed
      rw [Trace.after_of_error ended] at first_eq
      rw [Action.bind_of_error first_eq]
      rfl
    | ok value =>
      -- each part has its share, and both shares are allowed
      rw [Trace.work_bind ended] at allowed
      have first_eq := follows_first.within run (allowed.of_le (by omega))
      rw [Trace.after_of_ok ended] at first_eq
      rw [Action.bind_of_ok first_eq, Trace.after_bind ended]
      apply (follows_next value).within
      rw [Trace.extend_source, Trace.extend_steps, Nat.add_assoc]
      exact allowed
  · intro run most limited below past
    -- the limit is passed either by the first action or by the second
    by_cases first_past : most < run.steps + (part run.source).work
    · obtain ⟨stopped, first_eq⟩ := follows_first.beyond run most limited below first_past
      exact ⟨stopped, Action.bind_of_error first_eq⟩
    · have first_eq := follows_first.within run (by
        intro most' limited'
        rw [limited] at limited'
        cases limited'
        omega)
      cases ended : (part run.source).outcome with
      | error failure =>
        -- all of the work is that of the first part
        rw [Tracing.bind_of_error ended] at past
        exact absurd past first_past
      | ok value =>
        rw [Trace.work_bind ended] at past
        rw [Trace.after_of_ok ended] at first_eq
        rw [Action.bind_of_ok first_eq]
        apply (follows_next value).beyond _ most limited
        · rw [Trace.extend_steps]
          omega
        · rw [Trace.extend_source, Trace.extend_steps]
          omega

theorem pure (value : α) : Follows limit (pure value : Action σ α) (Pure.pure value) :=
  of_idle (fun _ => rfl) fun run => by
    show EStateM.Result.ok value run = .ok value _
    simp [Trace.extend, Trace.work]

theorem fail (failure : Failure) :
    Follows limit (throw failure : Action σ α) (Tracing.fail failure) :=
  of_idle (fun _ => rfl) fun run => by
    show EStateM.Result.error failure run = .error failure _
    simp [Trace.extend, Trace.work, Tracing.fail]

theorem drawing (draw : σ → α × σ) :
    Follows limit (Action.drawing draw) (Tracing.drawing draw) :=
  of_idle (fun _ => rfl) fun run => by
    show EStateM.Result.ok _ _ = .ok _ _
    simp [Trace.extend, Trace.work, Tracing.drawing]

/-- A step of its own is the beginning of a turn. -/
theorem step : Follows limit (Action.step limit) (Tracing.turn : Tracing σ Unit) := by
  constructor
  · intro run allowed
    have steps_le : Allowed limit (run.steps + 1) := allowed
    unfold Action.step
    cases limit with
    | none => simp [Trace.after, Trace.extend, Trace.work, Tracing.turn]
    | some most =>
      have not_past : ¬ most < run.steps + 1 := Nat.not_lt.2 (steps_le most rfl)
      simp [Trace.after, Trace.extend, Trace.work, Tracing.turn, not_past]
  · intro run most limited below past
    have steps_past : most < run.steps + 1 := past
    subst limited
    refine ⟨{ run with steps := run.steps + 1 }, ?_⟩
    simp only [Action.step, steps_past, if_true]

/-- A symbol is written after its step, so that a run that stops there does not write it. -/
theorem write (symbol : Symbol) :
    Follows limit (Action.write limit symbol) (Tracing.write symbol : Tracing σ Unit) := by
  constructor
  · intro run allowed
    have step_eq := (step : Follows limit (Action.step limit) _).within run allowed
    unfold Action.write
    rw [Action.bind_of_ok step_eq]
    show EStateM.Result.ok () _ = .ok () _
    simp [Trace.extend, Trace.work, Tracing.turn, Tracing.write]
  · intro run most limited below past
    obtain ⟨stopped, step_eq⟩ := step.beyond run most limited below past
    exact ⟨stopped, Action.bind_of_error step_eq⟩

theorem pick [WordSource σ] (set : SymbolSet) (context : String) :
    Follows limit (Action.pick set context) (Tracing.pick set context : Tracing σ Symbol) := by
  unfold Action.pick Tracing.pick
  by_cases empty : set.size = 0
  · simp only [empty, if_true]
    exact fail _
  · simp only [empty, if_false]
    apply bind (drawing _)
    intro index
    cases set.nth? index with
    | none => exact fail _
    | some symbol => exact pure symbol

theorem pickCount [WordSource σ] (least most : UInt32) :
    Follows limit (Action.pickCount least most)
      (Tracing.pickCount least most : Tracing σ UInt32) := by
  unfold Action.pickCount Tracing.pickCount
  by_cases reversed : most < least
  · simp only [reversed, if_true]
    exact fail _
  · simp only [reversed, if_false]
    exact drawing _

theorem replicate {action : Action σ Unit} {part : Tracing σ Unit}
    (follows : Follows limit action part) (n : Nat) :
    Follows limit (Action.replicate n action) (Tracing.replicate n part) := by
  induction n with
  | zero => exact pure ()
  | succ n ih => exact bind follows fun _ => ih

end Follows

/-! ## Performing a script -/

namespace Script

variable {σ : Type} [WordSource σ] {limit : Option Nat}

mutual

/-- Performing a script follows its trace: one case for each kind of script. -/
theorem follows_perform : (script : Script) →
    Follows limit (script.perform limit) (script.trace : Tracing σ Unit)
  | symbol s => by
    unfold perform trace
    exact Follows.write s
  | choice set context => by
    unfold perform trace
    exact (Follows.pick set context).bind fun s => Follows.write s
  | sequence parts => by
    unfold perform trace
    exact follows_performAll parts
  | branches scripts => by
    unfold perform trace
    exact (Follows.drawing _).bind fun chosen => follows_performNth scripts chosen
  | repetition least most body => by
    unfold perform trace
    refine (Follows.pickCount least most).bind fun count => ?_
    exact (Follows.step.bind fun _ => follows_perform body).replicate count.toNat

theorem follows_performAll :
    (parts : List Script) →
      Follows limit (performAll limit parts) (traceAll parts : Tracing σ Unit)
  | [] => by
    unfold performAll traceAll
    exact Follows.pure ()
  | part :: rest => by
    unfold performAll traceAll
    exact (follows_perform part).bind fun _ => follows_performAll rest

theorem follows_performNth : (scripts : List Script) → (index : Nat) →
    Follows limit (performNth limit scripts index) (traceNth scripts index : Tracing σ Unit)
  | [], _ => by
    unfold performNth traceNth
    exact Follows.pure ()
  | script :: _, 0 => by
    unfold performNth traceNth
    exact follows_perform script
  | _ :: rest, n + 1 => by
    unfold performNth traceNth
    exact follows_performNth rest n

end

end Script

/-! ## Generating a value -/

/-- What a whole trace gives: the symbols it wrote, or why it failed, and its source. -/
def Trace.result {σ : Type} (t : Trace σ Unit) : Except Failure (List Symbol) × σ :=
  (t.outcome.map fun _ => t.symbols, t.source)

namespace Script

variable {σ : Type} [WordSource σ] {script : Script} {limit : Option Nat} {source : σ}

/-- A generation within its limit gives what the trace gives. -/
theorem generate_of_allowed (allowed : Allowed limit (script.trace source).work) :
    script.generate limit source = (script.trace source).result := by
  have perform_eq : script.perform limit (.start source) = _ :=
    (follows_perform script).within (.start source) (by simpa [Run.start] using allowed)
  unfold generate Trace.result
  rw [perform_eq]
  simp only [Run.start, Trace.after]
  cases (script.trace source).outcome with
  | error failure => rfl
  | ok value => simp [Trace.extend, Except.map]

/-- A generation past its limit fails for that. -/
theorem generate_of_past {most : Nat} (past : most < (script.trace source).work) :
    (script.generate (some most) source).1 = .error (.limitExceeded most) := by
  obtain ⟨stopped, perform_eq⟩ := (follows_perform script).beyond (.start source) most rfl
    (Nat.zero_le most) (by simpa [Run.start] using past)
  unfold generate
  rw [perform_eq]

/-- A generation that succeeds has stayed within its limit and gives the symbols of the
    trace. -/
theorem trace_of_generate_ok {most : Nat} {out : List Symbol}
    (h : (script.generate (some most) source).1 = .ok out) :
    (script.trace source).outcome = .ok () ∧ (script.trace source).symbols = out ∧
      (script.trace source).work ≤ most := by
  by_cases past : most < (script.trace source).work
  · rw [generate_of_past past] at h
    cases h
  · have allowed : Allowed (some most) (script.trace source).work := by
      intro limit limited
      cases limited
      exact Nat.le_of_not_lt past
    rw [generate_of_allowed allowed] at h
    cases ended : (script.trace source).outcome with
    | error failure =>
      simp only [Trace.result, ended, Except.map] at h
      cases h
    | ok value =>
      simp only [Trace.result, ended, Except.map, Except.ok.injEq] at h
      exact ⟨rfl, h, Nat.le_of_not_lt past⟩

end Script

end PatternSampler
