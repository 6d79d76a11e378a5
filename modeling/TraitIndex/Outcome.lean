import TraitIndex.Notice

/-! Results with a log.

    An `Outcome` is what a computation came to, a result or a fault, together with the notices it
    wrote on the way; a fault keeps the notices before it. -/

namespace TraitIndex

/-- A result or a fault, and the notices written before it. -/
structure Outcome (α : Type) where
  result : Except Fault α
  notices : List Notice := []

namespace Outcome

/-- A result without notices. -/
def done {α : Type} (a : α) : Outcome α := ⟨.ok a, []⟩

/-- A fault without notices. -/
def fail {α : Type} (f : Fault) : Outcome α := ⟨.error f, []⟩

/-- Notices without anything else. -/
def note (ns : List Notice) : Outcome Unit := ⟨.ok (), ns⟩

/-- A computation that writes no notices. -/
def ofExcept {α : Type} (r : Except Fault α) : Outcome α := ⟨r, []⟩

/-- One computation after another; a fault ends both. -/
def andThen {α β : Type} (x : Outcome α) (f : α → Outcome β) : Outcome β :=
  match x.result with
  | .ok a => ⟨(f a).result, x.notices ++ (f a).notices⟩
  | .error e => ⟨.error e, x.notices⟩

instance : Monad Outcome where
  pure := done
  bind := andThen

end Outcome
end TraitIndex
