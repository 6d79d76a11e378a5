/-! Fixed starts and ends of texts.

    `afterStart? p s` is what follows `p` at the start of `s`; `beforeEnd? p s` is what comes before
    `p` at its end. -/

namespace TraitIndex.Text

variable {α : Type} [DecidableEq α]

/-- What follows a fixed start. -/
def afterStart? : List α → List α → Option (List α)
  | [], s => some s
  | _ :: _, [] => none
  | p :: ps, c :: cs => if p = c then afterStart? ps cs else none

/-- What comes before a fixed end. -/
def beforeEnd? (p s : List α) : Option (List α) :=
  (afterStart? p.reverse s.reverse).map List.reverse

/-- A fixed start is put back in front of what follows it. -/
theorem afterStart?_eq_some_iff {p s rest : List α} :
    afterStart? p s = some rest ↔ s = p ++ rest := by
  induction p generalizing s with
  | nil => simp [afterStart?]
  | cons a p ih =>
    cases s with
    | nil => simp [afterStart?]
    | cons c s =>
      by_cases h : a = c
      · simp [afterStart?, h, ih]
      · have h' : ¬ c = a := fun e => h e.symm
        simp [afterStart?, h, h']

/-- A fixed end is put back behind what comes before it. -/
theorem beforeEnd?_eq_some_iff {p s front : List α} :
    beforeEnd? p s = some front ↔ s = front ++ p := by
  rw [beforeEnd?, Option.map_eq_some_iff]
  constructor
  · rintro ⟨rest, hrest, rfl⟩
    rw [← List.reverse_reverse s, afterStart?_eq_some_iff.1 hrest, List.reverse_append,
      List.reverse_reverse]
  · rintro rfl
    exact ⟨front.reverse, afterStart?_eq_some_iff.2 List.reverse_append, List.reverse_reverse _⟩

end TraitIndex.Text
