import PatternSampler.Generation.Run
import PatternSampler.Mode
import PatternSampler.Notation.Nesting

/-! # Compiled patterns

  A pattern is compiled once and can then generate any number of values. It holds its tree
  and nothing about any run, so equal calls with equal sources give equal values.
-/

namespace PatternSampler

/-- A compiled pattern. -/
structure Pattern (m : Mode) where
  /-- The tree of the pattern over the mode's alphabet. -/
  tree : Tree SymbolSet

namespace Pattern

variable [UnicodeClasses] {m : Mode}

/-- Compiles a pattern. -/
def compile (m : Mode) (pattern : m.Value) : Except Failure (Pattern m) :=
  match Notation.parse m.alphabet (m.symbols pattern) with
  | .ok tree => .ok ⟨tree⟩
  | .error misreading => .error misreading.failure

/-- Generates a value with draws from a source of any kind. The seeding of the settings plays no
    part. -/
def generateWith {σ : Type} [WordSource σ] (p : Pattern m) (settings : Settings) (source : σ) :
    Except Failure m.Value × σ :=
  let (symbols, source) := p.tree.generate m.alphabet settings source
  (symbols.map m.encode, source)

/-- Generates a value with the source that the settings ask for; `fresh` is the source to use
    if they do not fix one. -/
def generate (p : Pattern m) (settings : Settings) (fresh : Source) : Except Failure m.Value :=
  (p.generateWith settings (settings.seeding.source fresh)).1

end Pattern

end PatternSampler
