import Mathlib.Data.List.Nodup
import TraitIndex.Intake
import TraitIndex.Proofs.Outcomes
import TraitIndex.Proofs.Tables

/-! What a batch comes to.

    Of a pair only two things count: the text of its key, and the records of its entries if those
    are a list. So batches whose pairs agree on them come to the same table. A record, and a table,
    that is written as a document and taken in again is as it was. -/

namespace TraitIndex

namespace Intake

/-! ### Pairs -/

/-- What a pair has for a batch: the trait, and its records unless its entries are no list. -/
def row (pair : Value × Value) : Text × Option (List Implementor) :=
  (pair.1.asText, pair.2.items?.map (·.map (entry "")))

/-- A table after what a pair has for it. -/
def addRow (t : Table) (r : Text × Option (List Implementor)) : Table :=
  (r.2.map (t.append r.1)).getD t

theorem text_of_writable {v : Value} (h : v.isWritable = true) : text v = .ok v.asText := if_pos h

/-- What has to be repaired in a pair. -/
def pairNotices (pair : Value × Value) : List Notice :=
  match pair.2.items? with
  | some items => items.flatMap entryNotices
  | none => [.implementorsNotList pair.1.asText]

theorem addPair_eq (t : Table) {key : Value} (h : key.isWritable = true) (entries : Value) :
    addPair t key entries = ⟨.ok (addRow t (row (key, entries))), pairNotices (key, entries)⟩ := by
  have hbind : ∀ f : Text → Outcome Table,
      Outcome.ofExcept (text key) >>= f = f key.asText := by
    intro f
    rw [text_of_writable h]
    rfl
  rw [addPair, hbind]
  cases hitems : entries.items? with
  | none => simp [addRow, row, pairNotices, hitems, Outcome.note_bind, Outcome.pure_eq]
  | some items => simp [addRow, row, pairNotices, hitems, Outcome.note_bind, Outcome.pure_eq]

theorem addPairs_eq (t : Table) {pairs : List (Value × Value)}
    (h : ∀ p ∈ pairs, p.1.isWritable = true) :
    addPairs t pairs = ⟨.ok ((pairs.map row).foldl addRow t), pairs.flatMap pairNotices⟩ := by
  induction pairs generalizing t with
  | nil => rfl
  | cons p rest ih =>
    obtain ⟨hp, hrest⟩ := List.forall_mem_cons.1 h
    rw [addPairs, addPair_eq t hp, Outcome.ok_bind, ih _ hrest]
    rfl

/-- The batch of a mapping whose keys can be written. -/
theorem batch_map_eq {pairs : List (Value × Value)} (h : ∀ p ∈ pairs, p.1.isWritable = true) :
    batch (.map pairs) = ⟨.ok ((pairs.map row).foldl addRow .empty), pairs.flatMap pairNotices⟩ :=
  addPairs_eq .empty h

theorem batch_map {pairs : List (Value × Value)} (h : ∀ p ∈ pairs, p.1.isWritable = true) :
    (batch (.map pairs)).result = .ok ((pairs.map row).foldl addRow .empty) :=
  congrArg Outcome.result (batch_map_eq h)

end Intake

/-! ### Written and taken in -/

theorem appendRow_of_not_mem {trait : Text} (records : List Implementor)
    {rows : List (Text × List Implementor)} (h : trait ∉ rows.map Prod.fst) :
    appendRow trait records rows = rows ++ [(trait, records)] := by
  induction rows with
  | nil => rfl
  | cons row rest ih =>
    rw [List.map_cons, List.mem_cons, not_or] at h
    rw [appendRow, if_neg (Ne.symm h.1), ih h.2]
    rfl

theorem Table.rows_appendAll (t : Table) {rows : List (Text × List Implementor)}
    (h : ((t.rows ++ rows).map Prod.fst).Nodup) : (t.appendAll rows).rows = t.rows ++ rows := by
  induction rows generalizing t with
  | nil => exact (List.append_nil _).symm
  | cons row rest ih =>
    have hnot : row.1 ∉ t.rows.map Prod.fst := by
      rw [List.map_append, List.nodup_append] at h
      intro hmem
      exact h.2.2 _ hmem _ (List.mem_cons_self ..) rfl
    have hrows : (t.append row.1 row.2).rows = t.rows ++ [row] := appendRow_of_not_mem row.2 hnot
    rw [Table.appendAll_cons, ih, hrows, List.append_assoc]
    · rfl
    · rw [hrows, List.append_assoc]
      exact h

/-- The rows of a table, appended one by one, are the table again. -/
theorem Table.appendAll_rows (t : Table) : Table.empty.appendAll t.rows = t := by
  obtain ⟨rows, hd⟩ := t
  have h : _ = rows := Table.rows_appendAll .empty hd
  rcases hall : Table.empty.appendAll rows with ⟨rows', hd'⟩
  rw [hall] at h
  obtain rfl : rows' = rows := h
  rfl

namespace Intake

/-- A record is read from its document. -/
theorem entry_toJson (r : Implementor) : entry "" (.ofJson r.toJson) = r := by
  obtain ⟨displayText, isSynthetic, typePath, crate⟩ := r
  have hcrate : (if crate = "" then "" else crate : Text) = crate := by
    split
    · rename_i h
      exact h.symm
    · rfl
  simp [entry, Implementor.toJson, Value.ofJson, Value.ofFields, Intake.displayText?,
    Intake.isSynthetic, Intake.typePath, crateOr, firstPresent?, displayTextNames, syntheticNames,
    typePathNames, Value.lookup, hcrate]

theorem ofItems_eq_map (items : List Json) : Value.ofItems items = items.map Value.ofJson := by
  induction items with
  | nil => rfl
  | cons x rest ih => rw [Value.ofItems, ih, List.map_cons]

theorem ofFields_eq_map (fields : List (Text × Json)) :
    Value.ofFields fields = fields.map fun p => (.text p.1, .ofJson p.2) := by
  induction fields with
  | nil => rfl
  | cons p rest ih => rw [Value.ofFields, ih, List.map_cons]

theorem entryNotices_toJson (r : Implementor) : entryNotices (.ofJson r.toJson) = [] := by
  simp [entryNotices, Implementor.toJson, Value.ofJson, Value.ofFields, firstPresent?,
    displayTextNames, Value.lookup]

/-- A batch as a mapping, its records written in some way. -/
def written (write : Implementor → Value) (b : Batch) : Value :=
  .map (b.rows.map fun r => (.text r.1, .list (r.2.map write)))

/-- If records are read as they were written, and nothing in them has to be repaired, a batch is
    too. -/
theorem batch_written {write : Implementor → Value} (hentry : ∀ r, entry "" (write r) = r)
    (hnotices : ∀ r, entryNotices (write r) = []) (b : Batch) :
    batch (written write b) = ⟨.ok b, []⟩ := by
  have hrow : ∀ r : Text × List Implementor,
      row (.text r.1, .list (r.2.map write)) = (r.1, some r.2) := by
    intro r
    simp [row, Value.items?, Value.asText, Function.comp_def, hentry]
  have hpair : ∀ r : Text × List Implementor,
      pairNotices (.text r.1, .list (r.2.map write)) = [] := by
    intro r
    simp [pairNotices, Value.items?, hnotices]
  rw [written, batch_map_eq]
  · rw [List.map_map, List.foldl_map, List.flatMap_map]
    simp only [Function.comp_apply, hrow, hpair]
    exact congrArg₂ Outcome.mk (congrArg Except.ok b.appendAll_rows)
      (List.flatMap_eq_nil_iff.2 fun _ _ => rfl)
  · intro p hp
    obtain ⟨r, -, rfl⟩ := List.mem_map.1 hp
    rfl

theorem ofJson_toJson (b : Batch) :
    Value.ofJson b.toJson = written (fun r => .ofJson r.toJson) b := by
  simp [Table.toJson, Table.rowsToJson, Value.ofJson, ofFields_eq_map, ofItems_eq_map, written,
    Function.comp_def]

/-- A table is read from its document, and nothing in it has to be repaired. -/
theorem batch_toJson (b : Batch) : batch (.ofJson b.toJson) = ⟨.ok b, []⟩ := by
  rw [ofJson_toJson]
  exact batch_written entry_toJson entryNotices_toJson b

end Intake
end TraitIndex
