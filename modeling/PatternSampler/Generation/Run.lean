import PatternSampler.Failure
import PatternSampler.Generation.Script
import PatternSampler.Settings.Basic

/-! # Generating a value

  A run performs a script from left to right and writes symbols, making every choice with a
  draw from a random source:

  - a symbol of a set, by its index in the set;
  - a branch, by its index, even if there is only one or none;
  - a number of repetitions, from the least to the greatest.

  Each symbol and each turn of a repetition is one step, and a run may have a limit on its
  steps. The state is kept when a run fails, because the draws it made are spent.
-/

namespace PatternSampler

/-- The state of a run. -/
structure Run (σ : Type) where
  /-- The random source. -/
  source : σ
  /-- How many steps have been made. -/
  steps : Nat
  /-- The symbols written so far. -/
  written : Array Symbol

/-- The state of a run that has done nothing. -/
def Run.start {σ : Type} (source : σ) : Run σ := ⟨source, 0, #[]⟩

/-- A part of a run, which may fail. -/
abbrev Action (σ : Type) := EStateM Failure (Run σ)

namespace Action

variable {σ : Type}

/-! ## Small actions -/

/-- A draw from the source. -/
def drawing {α : Type} (draw : σ → α × σ) : Action σ α := fun run =>
  let (value, source) := draw run.source
  .ok value { run with source := source }

/-- One step, which fails if it goes past the limit. Without a limit it never fails. -/
def step (limit : Option Nat) : Action σ Unit := fun run =>
  let run := { run with steps := run.steps + 1 }
  match limit with
  | some limit => if limit < run.steps then .error (.limitExceeded limit) run else .ok () run
  | none => .ok () run

/-- Writes a symbol, which is a step. -/
def write (limit : Option Nat) (symbol : Symbol) : Action σ Unit := do
  step limit
  modify fun run => { run with written := run.written.push symbol }

/-- Draws a symbol of a set, all with the same chance. An empty set fails without a draw, in
    the given context. -/
def pick [WordSource σ] (set : SymbolSet) (context : String) : Action σ Symbol := do
  let total := set.size
  if total = 0 then throw (.noSymbol context)
  let index ← drawing (WordSource.between · .double 0 (total - 1))
  match set.nth? index with
  | some symbol => return symbol
  | none =>
    throw (.noSymbol (context ++ " (symbol index " ++ toString index ++ " of " ++
      toString total ++ ")"))

/-- Draws a number of repetitions. Reversed bounds are a fault of the pattern. -/
def pickCount [WordSource σ] (least most : UInt32) : Action σ UInt32 := do
  if most < least then
    throw (.malformed 0 ("repeat minimum " ++ toString least ++ " exceeds maximum " ++
      toString most))
  drawing (WordSource.between32 · least most)

/-- Does an action a number of times. -/
def replicate : Nat → Action σ Unit → Action σ Unit
  | 0, _ => pure ()
  | n + 1, action => do
    action
    replicate n action

end Action

/-! ## Scripts -/

namespace Script

variable {σ : Type} [WordSource σ]

mutual

/-- Writes what a script says. -/
def perform (limit : Option Nat) : Script → Action σ Unit
  | symbol s => Action.write limit s
  | choice set context => do
    -- the symbol is drawn before the step is counted
    let s ← Action.pick set context
    Action.write limit s
  | sequence parts => performAll limit parts
  | branches scripts => do
    let chosen ← Action.drawing (WordSource.index · (max scripts.length 1))
    performNth limit scripts chosen
  | repetition least most body => do
    let count ← Action.pickCount least most
    Action.replicate count.toNat do
      Action.step limit
      perform limit body

/-- Writes what all scripts of a list say, one after the other. -/
def performAll (limit : Option Nat) : List Script → Action σ Unit
  | [] => pure ()
  | part :: rest => do
    perform limit part
    performAll limit rest

/-- Writes what the script at an index of a list says, and nothing if there is none. -/
def performNth (limit : Option Nat) : List Script → Nat → Action σ Unit
  | [], _ => pure ()
  | script :: _, 0 => perform limit script
  | _ :: rest, n + 1 => performNth limit rest n

end

/-- Performs a script: the symbols it wrote, or why it failed, and the source after the draws
    that were made. -/
def generate (script : Script) (limit : Option Nat) (source : σ) :
    Except Failure (List Symbol) × σ :=
  match script.perform limit (.start source) with
  | .ok () run => (.ok run.written.toList, run.source)
  | .error failure run => (.error failure, run.source)

end Script

/-- Generates a value of a tree over an alphabet. The seeding of the settings plays no part. -/
def Tree.generate {σ : Type} [WordSource σ] (t : Tree SymbolSet) (a : Alphabet)
    (settings : Settings) (source : σ) : Except Failure (List Symbol) × σ :=
  (t.wholeScript a settings.repeatCap).generate (some settings.expansionLimit.toNat) source

end PatternSampler
