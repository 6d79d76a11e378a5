import TraitIndex.Table

/-! Feeds for polling renderers.

    A feed is a consumer that keeps every batch it is called with under the next number. A poller
    asks for what came after the number it has seen. The numbers go on after the feed is cleared,
    so an old number never stands for a new delivery. -/

namespace TraitIndex

/-- A batch with its number. -/
structure Delivery where
  seq : Nat
  batch : Batch
  deriving DecidableEq

/-- Deliveries in order, and the number last given. -/
structure Feed where
  deliveries : List Delivery := []
  latest : Nat := 0
  deriving DecidableEq

namespace Feed

instance : Inhabited Feed := ⟨{}⟩

/-- The feed is called with a batch. -/
def record (f : Feed) (b : Batch) : Feed :=
  { deliveries := f.deliveries ++ [⟨f.latest + 1, b⟩], latest := f.latest + 1 }

/-- The deliveries after a number. -/
def since (f : Feed) (n : Int) : List Delivery := f.deliveries.filter fun d => n < d.seq

/-- Deliveries are forgotten; their numbers are not given again. -/
def clear (f : Feed) : Feed := { f with deliveries := [] }

end Feed

/-- The delivery as a JSON object. -/
def Delivery.toJson (d : Delivery) : Json :=
  .object [("seq", .int d.seq), ("batch", d.batch.toJson)]

end TraitIndex
