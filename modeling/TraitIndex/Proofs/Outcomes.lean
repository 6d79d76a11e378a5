import TraitIndex.Outcome

/-! Results one after another.

    What two computations come to, one after the other: with the notices of both if the first has a
    result, and with the fault of the first if it has none. -/

namespace TraitIndex

namespace Outcome

variable {α β : Type}

theorem pure_eq (a : α) : (pure a : Outcome α) = ⟨.ok a, []⟩ := rfl

theorem ok_bind (a : α) (ns : List Notice) (f : α → Outcome β) :
    (⟨.ok a, ns⟩ >>= f : Outcome β) = ⟨(f a).result, ns ++ (f a).notices⟩ := rfl

theorem bind_of_error {x : Outcome α} {why : Fault} (h : x.result = .error why)
    (f : α → Outcome β) : (x >>= f).result = .error why := by
  rcases x with ⟨result, ns⟩
  obtain rfl : result = .error why := h
  rfl

/-- Two computations come to a result if the first does and then the second does. -/
theorem ok_of_bind_ok {x : Outcome α} {f : α → Outcome β} {b : β}
    (h : (x >>= f).result = .ok b) : ∃ a, x.result = .ok a ∧ (f a).result = .ok b := by
  rcases x with ⟨_ | a, ns⟩
  · exact absurd h (by simp [bind, andThen])
  · exact ⟨a, rfl, h⟩

theorem note_bind (ns : List Notice) (f : Unit → Outcome β) :
    (note ns >>= f : Outcome β) = ⟨(f ()).result, ns ++ (f ()).notices⟩ := rfl

end Outcome

/-! ### Faults -/

theorem error_of_map_error {α β : Type} {x : Except Fault α} {f : α → β} {why : Fault}
    (h : x.map f = .error why) : x = .error why := by
  rcases x with e | a
  · exact congrArg Except.error (Except.error.inj h)
  · exact absurd h (by simp [Except.map])

theorem error_of_bind_error {α β : Type} {x : Except Fault α} {f : α → Except Fault β}
    {why : Fault} (h : x >>= f = .error why) :
    x = .error why ∨ ∃ a, x = .ok a ∧ f a = .error why := by
  rcases x with e | a
  · exact .inl (congrArg Except.error (Except.error.inj h))
  · exact .inr ⟨a, rfl, h⟩

theorem ok_of_bind_ok {ε α β : Type} {x : Except ε α} {f : α → Except ε β} {b : β}
    (h : x >>= f = .ok b) : ∃ a, x = .ok a ∧ f a = .ok b := by
  rcases x with e | a
  · exact absurd h (by simp [bind, Except.bind])
  · exact ⟨a, rfl, h⟩

theorem ok_of_map_ok {α β : Type} {x : Except Fault α} {f : α → β} {b : β}
    (h : x.map f = .ok b) : ∃ a, x = .ok a ∧ f a = b := by
  rcases x with e | a
  · exact absurd h (by simp [Except.map])
  · exact ⟨a, rfl, Except.ok.inj h⟩

end TraitIndex
