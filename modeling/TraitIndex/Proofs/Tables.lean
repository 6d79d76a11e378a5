import Mathlib.Data.List.Induction
import TraitIndex.Table

/-! Laws of tables.

    Appending to a trait and merging a batch are told by what `get` finds afterwards and by which
    traits are listed. A batch lists no trait twice, so merging it appends to each trait once.
    Traits in their order and what `get` finds are all there is to a table, so lists that are
    gathered into a batch before it is merged do the same as one by one. -/

namespace TraitIndex.Table

/-! ### One trait -/

theorem get_append (t : Table) (trait : Text) (records : List Implementor) (x : Text) :
    (t.append trait records).get x = t.get x ++ if trait = x then records else [] := by
  obtain ⟨rows, _⟩ := t
  simp only [get, append]
  induction rows with
  | nil => by_cases h : trait = x <;> simp [appendRow, h]
  | cons row rest ih =>
    obtain ⟨s, rs⟩ := row
    have hr := ih (List.nodup_cons.1 ‹_›).2
    by_cases hs : s = trait
    · subst hs
      by_cases hx : s = x <;> simp [appendRow, hx]
    · by_cases hx : s = x
      · subst hx
        simp [appendRow, hs, Ne.symm hs]
      · simpa [appendRow, hs, hx] using hr

/-- A trait listed after others, unless it is listed already. -/
def listed (traits : List Text) (trait : Text) : List Text :=
  if trait ∈ traits then traits else traits ++ [trait]

theorem mem_listed (traits : List Text) (trait x : Text) :
    x ∈ listed traits trait ↔ x ∈ traits ∨ x = trait := by
  unfold listed
  split
  · rename_i h
    exact ⟨.inl, fun hx => hx.elim id fun e => e ▸ h⟩
  · rw [List.mem_append, List.mem_singleton]

theorem traits_append (t : Table) (trait : Text) (records : List Implementor) :
    (t.append trait records).traits = listed t.traits trait :=
  traits_appendRow trait records t.rows

/-! ### Lists one after another -/

/-- The table after more lists, one after another. -/
def appendAll (t : Table) (rows : List (Text × List Implementor)) : Table :=
  rows.foldl (fun t row => t.append row.1 row.2) t

theorem appendAll_cons (t : Table) (row : Text × List Implementor)
    (rest : List (Text × List Implementor)) :
    t.appendAll (row :: rest) = (t.append row.1 row.2).appendAll rest := rfl

theorem appendAll_append (t : Table) (rows rows' : List (Text × List Implementor)) :
    t.appendAll (rows ++ rows') = (t.appendAll rows).appendAll rows' :=
  List.foldl_append

/-- The records that rows have for a trait, row after row. -/
theorem get_appendAll (rows : List (Text × List Implementor)) (t : Table) (x : Text) :
    (t.appendAll rows).get x =
      t.get x ++ rows.flatMap fun row => if row.1 = x then row.2 else [] := by
  induction rows generalizing t with
  | nil => exact (List.append_nil _).symm
  | cons row rest ih =>
    rw [appendAll_cons, ih, get_append, List.flatMap_cons, List.append_assoc]

theorem flatMap_eq_filter (rows : List (Text × List Implementor)) (x : Text) :
    (rows.flatMap fun row => if row.1 = x then row.2 else []) =
      (rows.filter (·.1 = x)).flatMap (·.2) := by
  induction rows with
  | nil => rfl
  | cons row rest ih => by_cases h : row.1 = x <;> simp [h, ih]

theorem traits_appendAll (rows : List (Text × List Implementor)) (t : Table) :
    (t.appendAll rows).traits =
      (rows.map Prod.fst).foldl listed t.traits := by
  induction rows generalizing t with
  | nil => rfl
  | cons row rest ih => rw [appendAll_cons, ih, traits_append, List.map_cons, List.foldl_cons]

theorem mem_foldl_listed (traits before : List Text) (x : Text) :
    x ∈ traits.foldl listed before ↔ x ∈ before ∨ x ∈ traits := by
  induction traits generalizing before with
  | nil => simp
  | cons trait rest ih => rw [List.foldl_cons, ih, mem_listed, List.mem_cons, or_assoc]

theorem mem_traits_appendAll (rows : List (Text × List Implementor)) (t : Table) (x : Text) :
    x ∈ (t.appendAll rows).traits ↔
      x ∈ t.traits ∨ x ∈ rows.map Prod.fst := by
  rw [traits_appendAll, mem_foldl_listed]

/-! ### A batch -/

/-- A batch is merged list by list. -/
theorem merge_eq (t : Table) (b : Batch) : t.merge b = t.appendAll b.rows := rfl

/-- Where no trait is listed twice, the rows of a trait are the row that is found. -/
theorem flatMap_rows_eq_get (t : Table) (x : Text) :
    (t.rows.flatMap fun row => if row.1 = x then row.2 else []) = t.get x := by
  obtain ⟨rows, hd⟩ := t
  simp only [get]
  induction rows with
  | nil => rfl
  | cons row rest ih =>
    rw [List.map_cons, List.nodup_cons] at hd
    obtain ⟨hnot, hrest⟩ := hd
    rw [List.flatMap_cons]
    by_cases hx : row.1 = x
    · have hnone : ∀ r ∈ rest, (if r.1 = x then r.2 else []) = [] := by
        intro r hr
        rw [if_neg]
        intro hrx
        exact hnot (hx.trans hrx.symm ▸ List.mem_map_of_mem hr)
      rw [if_pos hx, List.flatMap_eq_nil_iff.2 hnone, List.append_nil]
      simp [hx]
    · rw [if_neg hx, List.nil_append, ih hrest]
      simp [hx]

/-- After a batch a trait has what it had and then what the batch has for it. -/
theorem get_merge (t : Table) (b : Batch) (x : Text) :
    (t.merge b).get x = t.get x ++ b.get x := by
  rw [merge_eq, get_appendAll, flatMap_rows_eq_get]

/-- After a batch the traits are those listed before and those of the batch. -/
theorem mem_traits_merge (t : Table) (b : Batch) (x : Text) :
    x ∈ (t.merge b).traits ↔ x ∈ t.traits ∨ x ∈ b.traits :=
  mem_traits_appendAll b.rows t x

/-- Only a trait that is listed has records. -/
theorem mem_traits_of_mem_get {t : Table} {x : Text} {r : Implementor} (hr : r ∈ t.get x) :
    x ∈ t.traits := by
  rw [← t.flatMap_rows_eq_get x] at hr
  obtain ⟨row, hrow, hmem⟩ := List.mem_flatMap.1 hr
  by_cases hx : row.1 = x
  · exact hx ▸ List.mem_map_of_mem hrow
  · rw [if_neg hx] at hmem
    exact absurd hmem List.not_mem_nil

/-! ### Lists gathered first -/

theorem rows_eq_map (t : Table) : t.rows = t.traits.map fun x => (x, t.get x) := by
  obtain ⟨rows, hd⟩ := t
  simp only [traits, get, List.map_map]
  induction rows with
  | nil => rfl
  | cons row rest ih =>
    rw [List.map_cons, List.nodup_cons] at hd
    obtain ⟨hnot, hrest⟩ := hd
    rw [List.map_cons]
    refine congrArg₂ List.cons (by simp) ((ih hrest).trans (List.map_congr_left fun r hr => ?_))
    have hne : ¬ row.1 = r.1 := fun e => hnot (e ▸ List.mem_map_of_mem hr)
    simp [hne]

/-- Two tables are the same if they list the same traits in the same order and find the same
    records for each of them. -/
theorem eq_of_get {t t' : Table} (htraits : t.traits = t'.traits)
    (hget : ∀ x, t.get x = t'.get x) : t = t' := by
  have hrows : t.rows = t'.rows := by
    rw [rows_eq_map, rows_eq_map, htraits]
    exact List.map_congr_left fun x _ => by rw [hget]
  obtain ⟨rows, _⟩ := t
  obtain ⟨rows', _⟩ := t'
  obtain rfl : rows = rows' := hrows
  rfl

/-- Listing traits that were listed elsewhere first is listing them one by one. -/
theorem foldl_listed_foldl (traits before : List Text) :
    (traits.foldl listed []).foldl listed before = traits.foldl listed before := by
  induction traits using List.reverseRecOn with
  | nil => rfl
  | append_singleton traits trait ih =>
    simp only [List.foldl_append, List.foldl_cons, List.foldl_nil, listed]
    split
    · rename_i h
      have hmem : trait ∈ traits.foldl listed before :=
        (mem_foldl_listed traits before trait).2
          (.inr (((mem_foldl_listed traits [] trait).1 h).resolve_left (by simp)))
      rw [ih, if_pos hmem]
    · rw [List.foldl_append, ih]
      rfl

/-- Lists that are gathered into a batch come to the same table as one by one. -/
theorem merge_appendAll (rows : List (Text × List Implementor)) (t : Table) :
    t.merge (empty.appendAll rows) = t.appendAll rows := by
  have htraits : (empty.appendAll rows).rows.map Prod.fst =
      (rows.map Prod.fst).foldl listed [] := traits_appendAll rows empty
  apply eq_of_get
  · rw [merge_eq, traits_appendAll, traits_appendAll, htraits, foldl_listed_foldl]
  · intro x
    rw [get_merge, get_appendAll, get_appendAll]
    rfl

/-! ### The number of records -/

theorem recordCount_append (t : Table) (trait : Text) (records : List Implementor) :
    (t.append trait records).recordCount = t.recordCount + records.length := by
  obtain ⟨rows, hd⟩ := t
  simp only [recordCount, append]
  clear hd
  induction rows with
  | nil => simp [appendRow]
  | cons row rest ih =>
    by_cases h : row.1 = trait
    · simp only [appendRow, h, if_true, List.foldr_cons, List.length_append]
      omega
    · simp only [appendRow, h, if_false, List.foldr_cons, ih]
      omega

/-- Every list that is appended counts with all its records. -/
theorem recordCount_appendAll (rows : List (Text × List Implementor)) (t : Table) :
    (t.appendAll rows).recordCount =
      t.recordCount + (rows.flatMap (·.2)).length := by
  induction rows generalizing t with
  | nil => rfl
  | cons row rest ih =>
    rw [appendAll_cons, ih, recordCount_append, List.flatMap_cons, List.length_append,
      Nat.add_assoc]

theorem recordCount_eq (t : Table) : t.recordCount = (t.rows.flatMap (·.2)).length := by
  obtain ⟨rows, hd⟩ := t
  simp only [recordCount]
  clear hd
  induction rows with
  | nil => rfl
  | cons row rest ih => rw [List.foldr_cons, ih, List.flatMap_cons, List.length_append]

/-- How many records batches have in all. -/
def recordsOf (bs : List Batch) : Nat := bs.foldr (fun b n => b.recordCount + n) 0

theorem recordsOf_cons (b : Batch) (bs : List Batch) :
    recordsOf (b :: bs) = b.recordCount + recordsOf bs := rfl

/-- Merged batches count with all their records. -/
theorem recordCount_foldl_merge (bs : List Batch) (t : Table) :
    (bs.foldl merge t).recordCount = t.recordCount + recordsOf bs := by
  induction bs generalizing t with
  | nil => rfl
  | cons b rest ih =>
    have hb : (t.merge b).recordCount = t.recordCount + b.recordCount := by
      rw [recordCount_eq b]
      exact recordCount_appendAll b.rows t
    rw [List.foldl_cons, ih, hb, recordsOf_cons, Nat.add_assoc]

/-! ### Batches one after another -/

/-- The table of some batches, merged one after another. -/
def ofBatches (bs : List Batch) : Table := bs.foldl merge .empty

theorem ofBatches_concat (bs : List Batch) (b : Batch) :
    ofBatches (bs ++ [b]) = (ofBatches bs).merge b := by
  rw [ofBatches, List.foldl_append]
  rfl

theorem get_foldl_merge (bs : List Batch) (t : Table) (x : Text) :
    (bs.foldl merge t).get x = t.get x ++ bs.flatMap (·.get x) := by
  induction bs generalizing t with
  | nil => simp
  | cons b rest ih => rw [List.foldl_cons, ih, get_merge, List.flatMap_cons, List.append_assoc]

/-- Merged batches give each trait its records of all of them, batch after batch. -/
theorem get_ofBatches (bs : List Batch) (x : Text) :
    (ofBatches bs).get x = bs.flatMap (·.get x) :=
  get_foldl_merge bs .empty x

theorem mem_traits_foldl_merge (bs : List Batch) (t : Table) (x : Text) :
    x ∈ (bs.foldl merge t).traits ↔ x ∈ t.traits ∨ ∃ b ∈ bs, x ∈ b.traits := by
  induction bs generalizing t with
  | nil => simp
  | cons b rest ih =>
    rw [List.foldl_cons, ih, mem_traits_merge, or_assoc]
    simp

/-- Merged batches list the traits of all of them. -/
theorem mem_traits_ofBatches (bs : List Batch) (x : Text) :
    x ∈ (ofBatches bs).traits ↔ ∃ b ∈ bs, x ∈ b.traits := by
  rw [ofBatches, mem_traits_foldl_merge]
  simp [empty, traits]

/-- What a merged batch has for a trait stands in the table as one piece. -/
theorem get_infix_ofBatches {b : Batch} {bs : List Batch} (hb : b ∈ bs) (x : Text) :
    b.get x <:+: (ofBatches bs).get x := by
  obtain ⟨before, rest, rfl⟩ := List.append_of_mem hb
  rw [get_ofBatches, List.flatMap_append, List.flatMap_cons]
  exact ⟨before.flatMap (·.get x), rest.flatMap (·.get x), by simp⟩

end TraitIndex.Table
