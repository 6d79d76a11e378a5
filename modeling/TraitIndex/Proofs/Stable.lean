import TraitIndex.Proofs.SentBatch

/-! Taking in again.

    A batch is taken in at every layer that it passes: where a file is loaded, by a client, by the
    page, by the server. In between it is handed on with its records as they are, as a document or
    as the body that a client sends; these are written in three places, and the names of the fields
    in all of them are names under which the fields are read. So what was taken in once is taken in
    as it is, without a notice, however often and in whatever form it is handed on. -/

namespace TraitIndex.Intake

/-- How a batch is handed on to the next layer. -/
inductive Form where
  /-- With its records as they are. -/
  | records
  | document
  /-- What a client sends of it. -/
  | body
  deriving DecidableEq, Repr

/-- The value that is handed on. -/
def Form.write (b : Batch) : Form → Except Fault Value
  | .records => .ok (written .record b)
  | .document => .ok (.ofJson b.toJson)
  | .body => (Client.batchBody (written .record b)).map Client.mapping

/-- The next layer takes it in. -/
def Form.takeIn (form : Form) (b : Batch) : Outcome Batch :=
  Outcome.ofExcept (form.write b) >>= batch

theorem batch_records (b : Batch) : batch (written .record b) = ⟨.ok b, []⟩ :=
  batch_written (fun _ => rfl) (fun _ => rfl) b

/-- A client sends of a batch its document. -/
theorem write_body (b : Batch) : Form.body.write b = Form.document.write b := by
  have hkeys : ∀ p ∈ b.rows.map fun r => (Value.text r.1, Value.list (r.2.map .record)),
      p.1.isWritable = true := by
    intro p hp
    obtain ⟨r, -, rfl⟩ := List.mem_map.1 hp
    rfl
  have hnodup : ((b.rows.map fun r => (r.1, Value.list (r.2.map .record))).map Prod.fst).Nodup := by
    rw [List.map_map]
    exact b.distinct
  have hbyText : Client.byText (b.rows.map fun r => (.text r.1, .list (r.2.map .record))) =
      b.rows.map fun r => (r.1, .list (r.2.map .record)) := by
    rw [Client.byText, List.map_map]
    exact Fields.ofPairs_of_nodup hnodup
  rw [Form.write, Form.write, written, Client.batchBody_eq hkeys, hbyText, ofJson_toJson, written]
  simp [Except.map, Client.mapping, Client.plainEntries, Value.items?, Client.plainEntry,
    Function.comp_def]

/-- A batch is taken in as it is, whatever the form, and nothing has to be repaired. -/
theorem takeIn_eq (form : Form) (b : Batch) : form.takeIn b = ⟨.ok b, []⟩ := by
  have hwrite : ∀ v, form.write b = .ok v → form.takeIn b = batch v := by
    intro v hv
    rw [Form.takeIn, hv]
    rfl
  cases form with
  | records => rw [hwrite _ rfl, batch_records]
  | document => rw [hwrite _ rfl, batch_toJson]
  | body => rw [hwrite _ (write_body b), batch_toJson]

theorem bind_takeIn (o : Outcome Batch) (form : Form) : o >>= form.takeIn = o := by
  rcases o with ⟨why | b, notices⟩
  · rfl
  · rw [Outcome.ok_bind, takeIn_eq, List.append_nil]

/-- A batch, whatever value it came of, is taken in again as it is, without a notice. Taking a value
    in at one layer after another, in whatever forms it is handed on, is taking it in once: the same
    batch and the same notices, or the same fault. -/
theorem taking_in_is_stable :
    (∀ (form : Form) (b : Batch), form.takeIn b = ⟨.ok b, []⟩) ∧
      ∀ (x : Value) (forms : List Form),
        forms.foldl (fun o form => o >>= form.takeIn) (batch x) = batch x := by
  refine ⟨takeIn_eq, fun x forms => ?_⟩
  induction forms with
  | nil => rfl
  | cons form rest ih => rw [List.foldl_cons, bind_takeIn, ih]

end TraitIndex.Intake
