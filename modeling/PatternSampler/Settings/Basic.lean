import PatternSampler.Random.Source

/-! # Settings of a generation call

  How the random source is seeded, how far unbounded repetitions go, and how much work a call
  may do.
-/

namespace PatternSampler

/-- How the random source of a call is seeded. -/
inductive Seeding where
  /-- Anew for each call. -/
  | random
  /-- With a given seed, which makes the call reproducible. -/
  | fixed (seed : UInt64)
deriving DecidableEq, Repr

namespace Seeding

/-- A given seed fixes the source; without one it is random. -/
def ofSeed? : Option UInt64 → Seeding
  | some seed => fixed seed
  | none => random

/-- The seed, if there is one. -/
def seed? : Seeding → Option UInt64
  | random => none
  | fixed seed => some seed

@[simp] theorem ofSeed?_seed? (s : Seeding) : ofSeed? s.seed? = s := by
  cases s <;> rfl

/-- The source of a call; `fresh` is the one to use when none is fixed. -/
def source (fresh : Source) : Seeding → Source
  | random => fresh
  | fixed seed => .seeded seed

end Seeding

/-- Why settings are refused. -/
inductive SettingsError where
  /-- An expansion limit of zero, which would forbid every symbol. -/
  | zeroLimit
deriving DecidableEq, Repr

/-- The error in words. -/
def SettingsError.message : SettingsError → String
  | zeroLimit => "Expansion limit must be greater than 0"

/-- The parameters of a generation call. -/
structure Settings where
  /-- How the random source is seeded. -/
  seeding : Seeding := .random
  /-- How many repetitions beyond the least number an unbounded repetition may make. -/
  repeatCap : UInt32 := 10
  /-- How many symbols and repetitions, counted together, a call may make. -/
  expansionLimit : UInt64 := 65536
deriving DecidableEq, Repr

namespace Settings

/-- The default settings with a fixed seed. -/
def seeded (seed : UInt64) : Settings := { seeding := .fixed seed }

/-- The settings with another seeding. -/
def withSeeding (s : Settings) (seeding : Seeding) : Settings := { s with seeding := seeding }

/-- The settings with another repeat cap. With a cap of zero an unbounded repetition makes
    exactly its least number of repetitions. -/
def withRepeatCap (s : Settings) (cap : UInt32) : Settings := { s with repeatCap := cap }

/-- The settings with another expansion limit, which has to be positive. -/
def withExpansionLimit (s : Settings) (limit : UInt64) : Except SettingsError Settings :=
  if limit = 0 then .error .zeroLimit else .ok { s with expansionLimit := limit }

end Settings

end PatternSampler
