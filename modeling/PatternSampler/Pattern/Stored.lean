import PatternSampler.Pattern.Basic
import PatternSampler.Stored.Corruption
import PatternSampler.Stored.Tree

/-! # Stored patterns

  A pattern is stored as its mode and its tree. Loading reads the whole of it before it
  judges it: bytes that cannot be read, then a pattern of the other mode, then a tree that no
  pattern of the mode may have.
-/

namespace PatternSampler

namespace Stored

/-- The number of a mode. -/
def modeTag : Mode → Nat
  | .text => 0
  | .bytes => 1

/-- The mode at the front. -/
def readMode : Decoder Mode := readTag [.text, .bytes]

/-- Why a stored pattern is refused. -/
inductive LoadError where
  /-- The bytes cannot be read. -/
  | undecodable (error : DecodeError)
  /-- The pattern is of another mode. -/
  | wrongMode (stored expected : Mode)
  /-- No pattern has such a tree. -/
  | corrupt (corruption : Corruption)
deriving DecidableEq, Repr

/-- The error in words. -/
def LoadError.message : LoadError → String
  | undecodable error => error.message
  | wrongMode stored expected =>
    "Domain mismatch: stored=" ++ stored.name ++ ", expected=" ++ expected.name
  | corrupt corruption => "Corrupt pattern: " ++ corruption.message

/-- The mode and the tree of a stored pattern. -/
def readPattern : Decoder (Mode × Tree SymbolSet) := return (← readMode, ← readTree)

end Stored

namespace Pattern

variable {m : Mode}

/-- The stored form of a pattern. -/
def toBytes (p : Pattern m) : List UInt8 :=
  Stored.putNumber (Stored.modeTag m) ++ Stored.putTree p.tree

/-- The pattern of a mode in stored bytes; what follows it is ignored. -/
def ofBytes [UnicodeClasses] (m : Mode) (bytes : List UInt8) :
    Except Stored.LoadError (Pattern m) :=
  match Stored.readPattern bytes with
  | .error error => .error (.undecodable error)
  | .ok ((stored, tree), _) =>
    if stored = m then
      match Stored.checkTree m tree with
      | .ok () => .ok ⟨tree⟩
      | .error corruption => .error (.corrupt corruption)
    else .error (.wrongMode stored m)

end Pattern

end PatternSampler
