import TraitIndex.Table

/-! Handing batches to a consumer.

    A relay stands between contributors and one consumer. Batches that come before a consumer does
    are kept in a backlog and handed over in order, one call at a time, when one attaches; while
    this flush lasts, every new batch joins the backlog. Otherwise a batch goes to the consumer at
    once. Attaching again replaces the consumer, in the middle of a flush too.

    A consumer may do anything, use the relay included, so no operation here runs one: an operation
    that starts a call returns it as a `Call`, and `finish` continues when the call has ended. -/

namespace TraitIndex

/-- A call of a consumer with a batch, directly or out of the backlog. -/
structure Call (κ : Type) where
  consumer : κ
  batch : Batch
  fromBacklog : Bool
  deriving DecidableEq

/-- The state of a relay; consumers are told apart by the values of `κ`. -/
structure Relay (κ : Type) where
  consumer : Option κ := none
  backlog : List Batch := []
  /-- The backlog is being handed over. -/
  flushing : Bool := false
  /-- How many calls were started since the relay was last closed. -/
  delivered : Nat := 0
  deriving DecidableEq

namespace Relay

variable {κ : Type}

instance : Inhabited (Relay κ) := ⟨{}⟩

/-- The next call of a flush, or the end of the flush when there is no batch or no consumer. -/
def flushNext (r : Relay κ) : Relay κ × Option (Call κ) :=
  match r.consumer, r.backlog with
  | some c, b :: rest =>
    ({ r with backlog := rest, delivered := r.delivered + 1 }, some ⟨c, b, true⟩)
  | _, _ => ({ r with flushing := false }, none)

/-- A consumer attaches: the backlog is flushed to it, or a running flush goes on with it. -/
def attach (r : Relay κ) (c : κ) : Relay κ × Option (Call κ) :=
  if r.flushing then ({ r with consumer := some c }, none)
  else flushNext { r with consumer := some c, flushing := true }

/-- A batch comes: it joins the backlog, or goes to the consumer at once. -/
def deliver (r : Relay κ) (b : Batch) : Relay κ × Option (Call κ) :=
  match r.consumer with
  | some c =>
    if r.flushing then ({ r with backlog := r.backlog ++ [b] }, none)
    else ({ r with delivered := r.delivered + 1 }, some ⟨c, b, false⟩)
  | none => ({ r with backlog := r.backlog ++ [b] }, none)

/-- Consumer and backlog are dropped and the count starts anew. A running flush is not ended by
    this; it ends when its call does. -/
def close (r : Relay κ) : Relay κ := { r with consumer := none, backlog := [], delivered := 0 }

/-- A call has ended: a flush goes on, and a direct call leaves nothing to do. -/
def finish (r : Relay κ) (call : Call κ) : Relay κ × Option (Call κ) :=
  if call.fromBacklog then r.flushNext else (r, none)

/-- The word for the state of a relay. -/
def stateName (r : Relay κ) : Text :=
  if r.consumer.isSome then "consumer-attached" else "awaiting-consumer"

end Relay
end TraitIndex
