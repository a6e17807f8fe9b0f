import PatternSampler.Settings.Basic
import PatternSampler.Stored.Primitive

/-! # Stored settings

  Settings are stored as their seeding (a tag, and the seed if there is one), the repeat cap
  and the expansion limit.
-/

namespace PatternSampler.Stored

/-- A seeding. -/
def putSeeding : Seeding → List UInt8
  | .random => putNumber 0
  | .fixed seed => putNumber 1 ++ putLong seed

/-- The seeding at the front. -/
def readSeeding : Decoder Seeding := do
  match ← readNumber .word with
  | 0 => return .random
  | 1 => return .fixed (← readLong)
  | _ => throw .badTag

/-- Settings. -/
def putSettings (s : Settings) : List UInt8 :=
  putSeeding s.seeding ++ putWord s.repeatCap ++ putLong s.expansionLimit

/-- The settings at the front. A limit of zero is taken as it stands. -/
def readSettings : Decoder Settings :=
  return ⟨← readSeeding, ← readWord, ← readLong⟩

end PatternSampler.Stored

namespace PatternSampler.Settings

/-- The stored form of settings. -/
def toBytes (s : Settings) : List UInt8 := Stored.putSettings s

/-- The settings in stored bytes; what follows them is ignored. -/
def ofBytes (bytes : List UInt8) : Except Stored.DecodeError Settings :=
  Stored.readSettings.run' bytes

end PatternSampler.Settings
