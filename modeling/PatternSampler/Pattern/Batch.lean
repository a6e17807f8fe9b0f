import PatternSampler.Pattern.Basic

/-! # Batches

  A batch generates many values of one pattern. The items are cut into chunks, one for each
  worker; each worker goes through its chunk on its own and stops at its first failure, and
  the chunks are put together by where they start, whatever order they come back in.

  With a fixed seed each item has a source of its own, that of the seed plus the item's
  number. What the batch gives then depends neither on the number of workers nor on who
  finishes first.

  A batch may be asked for any number of values that fits into 64 bits, but it is not always
  up to it. The end of a chunk is computed with 64 bits, and room for all values is reserved
  before it is known whether there are any. Where either goes wrong the whole call is given up
  with a `Panic`. Memory that runs out in earnest is not part of the model, and neither is a
  call that is built without a check of its sums, in which a sum that is too large would begin
  again at zero.
-/

namespace PatternSampler

/-- Why a call is given up, without a result and without a failure. -/
inductive Panic where
  /-- A sum does not fit into 64 bits. -/
  | additionOverflow
  /-- More room is asked for than a row of values can have. -/
  | capacityOverflow
deriving DecidableEq, Repr

/-- The panic in words. -/
def Panic.message : Panic → String
  | additionOverflow => "attempt to add with overflow"
  | capacityOverflow => "capacity overflow"

/-- A row of consecutive items. -/
structure Chunk where
  /-- The first item. -/
  first : Nat
  /-- The number of items. -/
  count : Nat
deriving DecidableEq, Repr

namespace Chunk

/-- The items from `first` up to `stop`, cut into chunks of `size`, the last of which may be
    shorter. There are no chunks of size zero. -/
def cut (size stop first : Nat) : Except Panic (List Chunk) :=
  if size = 0 then .ok []
  else if first < stop then
    -- the sum is computed before it is compared with `stop`
    if UInt64.size ≤ first + size then .error .additionOverflow
    else
      let last := min (first + size) stop
      (cut size stop last).map (⟨first, last - first⟩ :: ·)
  else .ok []
termination_by stop - first

/-- The chunks of `count` items for a number of workers: of equal size, as small as it can
    be. -/
def share (count workers : Nat) : Except Panic (List Chunk) :=
  cut ((count + workers - 1) / workers) count 0

end Chunk

/-- What a worker sends back: the values of a chunk, or the first failure in it. -/
structure Delivery (α : Type) where
  /-- The first item of the chunk. -/
  first : Nat
  /-- What became of the chunk. -/
  outcome : Except Failure (List α)

namespace Delivery

variable {α : Type}

/-- Puts deliveries together by where their chunks start: all values in the order of the
    items, or the first failure in that order. -/
def join (deliveries : List (Delivery α)) : Except Failure (List α) :=
  ((deliveries.mergeSort fun d e => d.first ≤ e.first).mapM outcome).map List.flatten

/-- The greatest number of values that room can be reserved for: a row has fewer than `2 ^ 63`
    bytes, and a value takes 24 of them in either mode, for the place of its contents, their length
    and the room they have. -/
def capacity : Nat := (UInt64.size / 2 - 1) / 24

/-- The result of a batch of `count` items. Room for all values is reserved first, whether or
    not an item has failed. -/
def collect (count : Nat) (deliveries : List (Delivery α)) :
    Except Panic (Except Failure (List α)) :=
  if capacity < count then .error .capacityOverflow else .ok (join deliveries)

end Delivery

namespace Pattern

variable [UnicodeClasses] {m : Mode}

/-- Generates item `index` of a batch. With a fixed seed the item has a source of its own and
    the worker's source is left as it is; otherwise it draws from the worker's source. -/
def generateItem (p : Pattern m) (settings : Settings) (index : Nat) (source : Source) :
    Except Failure m.Value × Source :=
  match settings.seeding with
  | .fixed seed =>
    ((p.generateWith settings (Source.seeded (seed + UInt64.ofNat index))).1, source)
  | .random => p.generateWith settings source

/-- Generates `count` items from `first` on, up to the first failure. -/
def generateItems (p : Pattern m) (settings : Settings) :
    (first count : Nat) → Source → Except Failure (List m.Value)
  | _, 0, _ => .ok []
  | first, count + 1, source =>
    match p.generateItem settings first source with
    | (.error failure, _) => .error failure
    | (.ok value, source) =>
      (p.generateItems settings (first + 1) count source).map (value :: ·)

/-- A worker's delivery for a chunk. The worker has a fresh source of its own. -/
def deliver (p : Pattern m) (settings : Settings) (fresh : Nat → Source) (chunk : Chunk) :
    Delivery m.Value where
  first := chunk.first
  outcome := p.generateItems settings chunk.first chunk.count (fresh chunk.first)

/-- Generates `count` values with a number of workers. -/
def generateBatch (p : Pattern m) (settings : Settings) (workers : Nat) (fresh : Nat → Source)
    (count : UInt64) : Except Panic (Except Failure (List m.Value)) :=
  if count = 0 then .ok (.ok [])
  else do
    let chunks ← Chunk.share count.toNat (max workers 1)
    Delivery.collect count.toNat (chunks.map (p.deliver settings fresh))

end Pattern

end PatternSampler
