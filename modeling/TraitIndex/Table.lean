import TraitIndex.Implementor

/-! Tables of implementors.

    A table lists traits with their implementors; no trait is listed twice. A trait keeps the place
    of its first appearance, and what comes later is appended to what it already has. A batch is a
    table as well: what one contributor hands in at a time. -/

namespace TraitIndex

/-- The rows of a table after more records for one trait. -/
def appendRow (trait : Text) (records : List Implementor) :
    List (Text × List Implementor) → List (Text × List Implementor)
  | [] => [(trait, records)]
  | (t, rs) :: rest =>
    if t = trait then (t, rs ++ records) :: rest else (t, rs) :: appendRow trait records rest

/-- A trait that is listed keeps its place, one that is not goes to the end. -/
theorem traits_appendRow (trait : Text) (records : List Implementor)
    (rows : List (Text × List Implementor)) :
    (appendRow trait records rows).map Prod.fst =
      if trait ∈ rows.map Prod.fst then rows.map Prod.fst else rows.map Prod.fst ++ [trait] := by
  induction rows with
  | nil => rfl
  | cons row rest ih =>
    obtain ⟨t, rs⟩ := row
    by_cases h : t = trait
    · simp [appendRow, h]
    · have h' : ¬ trait = t := fun e => h e.symm
      simp only [appendRow, h, if_false, List.map_cons, ih, List.mem_cons, h', false_or]
      split <;> rfl

/-- No trait is listed twice after more records for one trait. -/
theorem nodup_appendRow (trait : Text) (records : List Implementor)
    {rows : List (Text × List Implementor)} (h : (rows.map Prod.fst).Nodup) :
    ((appendRow trait records rows).map Prod.fst).Nodup := by
  rw [traits_appendRow]
  split
  · exact h
  · rename_i hn
    refine List.nodup_append.2 ⟨h, by simp, fun a ha b hb => ?_⟩
    simp only [List.mem_singleton] at hb
    exact fun e => hn (hb ▸ e ▸ ha)

/-- Traits with their implementors, each trait once. -/
structure Table where
  rows : List (Text × List Implementor) := []
  distinct : (rows.map Prod.fst).Nodup := by simp
  deriving DecidableEq

/-- What one contributor hands in at a time. -/
abbrev Batch := Table

namespace Table

/-- The table without traits. -/
def empty : Table := {}

instance : Inhabited Table := ⟨empty⟩

/-- The table after more records for one trait. -/
def append (t : Table) (trait : Text) (records : List Implementor) : Table :=
  ⟨appendRow trait records t.rows, nodup_appendRow trait records t.distinct⟩

/-- The table after a batch, trait by trait. -/
def merge (t : Table) (batch : Batch) : Table :=
  batch.rows.foldl (fun t row => t.append row.1 row.2) t

/-- A table of one trait. -/
def single (trait : Text) (records : List Implementor) : Table :=
  ⟨[(trait, records)], by simp⟩

/-- The traits in the order of their first appearance. -/
def traits (t : Table) : List Text := t.rows.map Prod.fst

/-- The records of a trait, in the order they came; none for an unknown trait. -/
def get (t : Table) (trait : Text) : List Implementor :=
  ((t.rows.find? (·.1 = trait)).map (·.2)).getD []

/-- The trait is listed. -/
def contains (t : Table) (trait : Text) : Bool := t.rows.any (·.1 = trait)

/-- How many records there are in all. -/
def recordCount (t : Table) : Nat := t.rows.foldr (fun row n => row.2.length + n) 0

/-- The table with the records of a property only; every trait stays listed. -/
def filterRows (keep : Implementor → Bool) (t : Table) : List (Text × List Implementor) :=
  t.rows.map fun row => (row.1, row.2.filter keep)

/-- Rows as a JSON object. -/
def rowsToJson (rows : List (Text × List Implementor)) : Json :=
  .object (rows.map fun row => (row.1, .list (row.2.map Implementor.toJson)))

/-- The table as a JSON object. -/
def toJson (t : Table) : Json := rowsToJson t.rows

end Table
end TraitIndex
