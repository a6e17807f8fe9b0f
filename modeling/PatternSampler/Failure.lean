/-! # Failures

  What a call that reads a pattern or generates a value can fail with. A failed call yields
  nothing else: no part of a tree and no part of a value.
-/

namespace PatternSampler

/-- Why no tree or no value can be given. -/
inductive Failure where
  /-- The pattern breaks the rules of the notation. The position is the number of symbols
      before the place where it does. -/
  | malformed (position : Nat) (reason : String)
  /-- The pattern uses a construct that is recognised and not supported. -/
  | unsupported (position : Nat) (construct : String)
  /-- A place in the pattern leaves no symbol to choose from. -/
  | noSymbol (context : String)
  /-- A value took more steps than the expansion limit allows. -/
  | limitExceeded (limit : Nat)
deriving DecidableEq, Repr

namespace Failure

/-- Whether another configuration may succeed: a limit can be raised, while everything else
    is put down to the pattern. -/
def recoverable : Failure → Bool
  | limitExceeded _ => true
  | _ => false

/-- The failure in words. -/
def message : Failure → String
  | malformed position reason =>
    "pattern syntax error at position " ++ toString position ++ ": " ++ reason
  | unsupported position construct =>
    "unsupported construct at position " ++ toString position ++ ": " ++ construct
  | noSymbol context => "no symbol can satisfy " ++ context
  | limitExceeded limit => "generation exceeded the expansion limit of " ++ toString limit

end Failure

end PatternSampler
