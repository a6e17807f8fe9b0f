import PatternSampler.Pattern.Batch

/-! # The workers of a batch at work

  The workers of a batch run side by side and send their deliveries over a channel. A `Pool` is
  the state of a batch under way: the workers that have not delivered, and the deliveries that
  have arrived, in the order of their arrival. In a step one worker, no matter which, does its
  next item or, if it has nothing left to do, delivers and leaves. So a run of the pool is any
  interleaving of the workers, and the deliveries may arrive in any order.
-/

namespace PatternSampler

/-! ### State -/

/-- A worker that has not delivered. -/
structure Worker (m : Mode) where
  /-- The first item of its chunk. -/
  first : Nat
  /-- The next item. -/
  next : Nat
  /-- How many items are left, the next one included. -/
  left : Nat
  /-- The worker's source. -/
  source : Source
  /-- The values so far, in the order of the items, or the failure that ended the work. -/
  outcome : Except Failure (List m.Value)

/-- The state of a batch under way. -/
structure Pool (m : Mode) where
  /-- The workers that have not delivered. -/
  working : List (Worker m)
  /-- The deliveries that have arrived, the oldest first. -/
  arrived : List (Delivery m.Value)

/-! ### Workers -/

namespace Worker

variable {m : Mode}

/-- The worker of a chunk, with a fresh source of its own. -/
def start (fresh : Nat → Source) (chunk : Chunk) : Worker m where
  first := chunk.first
  next := chunk.first
  left := chunk.count
  source := fresh chunk.first
  outcome := .ok []

/-- The worker after its next item; none if no item is left or one has failed. -/
def advance [UnicodeClasses] (p : Pattern m) (settings : Settings) (w : Worker m) :
    Option (Worker m) :=
  match w.outcome, w.left with
  | .ok values, left + 1 =>
    match p.generateItem settings w.next w.source with
    | (.ok value, source) =>
      some { w with next := w.next + 1, left, source, outcome := .ok (values ++ [value]) }
    | (.error failure, source) => some { w with source, outcome := .error failure }
  | _, _ => none

/-- What a worker that has nothing left to do delivers. -/
def delivery (w : Worker m) : Delivery m.Value := ⟨w.first, w.outcome⟩

end Worker

/-! ### Steps -/

namespace Pool

variable {m : Mode}

/-- All workers of a batch at the start. -/
def start (fresh : Nat → Source) (chunks : List Chunk) : Pool m :=
  ⟨chunks.map (Worker.start fresh), []⟩

/-- One worker does its next item, or delivers. -/
inductive Step [UnicodeClasses] (p : Pattern m) (settings : Settings) : Pool m → Pool m → Prop where
  /-- A worker does an item. -/
  | item {before after : List (Worker m)} {w w' : Worker m} {arrived : List (Delivery m.Value)}
      (advanced : w.advance p settings = some w') :
      Step p settings ⟨before ++ w :: after, arrived⟩ ⟨before ++ w' :: after, arrived⟩
  /-- A worker delivers. -/
  | delivery {before after : List (Worker m)} {w : Worker m} {arrived : List (Delivery m.Value)}
      (done : w.advance p settings = none) :
      Step p settings ⟨before ++ w :: after, arrived⟩ ⟨before ++ after, arrived ++ [w.delivery]⟩

end Pool

end PatternSampler
