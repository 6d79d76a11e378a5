import TraitIndex.Client
import TraitIndex.Proofs.SentValue

/-! Batches that are sent.

    A client sends a batch under the texts of its keys, records as documents. The server takes in
    what the same batch under the same texts comes to where nothing is sent. Of two keys with one
    text only the later is sent, and where no two keys have one text it is the batch itself. -/

namespace TraitIndex

namespace Value

/-! ### Entries -/

/-- An entry that a client can send: a record, or what JSON can express. -/
def SendableEntry (v : Value) : Prop :=
  (∃ r : Implementor, v = .record r ∧ r.toJson.isWhole = true) ∨ v.Expressible

/-- The implementors of a trait that a client can send: entries, or no list at all. -/
def SendableEntries (v : Value) : Prop :=
  match v.items? with
  | some items => ∀ x ∈ items, x.SendableEntry
  | none => v.Expressible

theorem allExpressible_iff {items : List Value} :
    AllExpressible items ↔ ∀ v ∈ items, v.Expressible := by
  induction items with
  | nil => simp [AllExpressible]
  | cons v rest ih => simp [AllExpressible, ih]

theorem entriesExpressible_iff {entries : List (Value × Value)} :
    EntriesExpressible entries ↔ ∀ p ∈ entries, p.1.Nameable ∧ p.2.Expressible := by
  induction entries with
  | nil => simp [EntriesExpressible]
  | cons p rest ih => simp [EntriesExpressible, ih, and_assoc]

theorem expressible_record {r : Implementor} (h : r.toJson.isWhole = true) :
    (ofJson r.toJson).Expressible := by
  have hkeys : ([("displayText" : Text), "isSynthetic", "typePath", "crate"]).Nodup := by decide
  have hfields := Json.fieldsWhole_iff.1 h
  simp only [List.forall_mem_cons] at hfields
  obtain ⟨hdisplay, -, hpath, hcrate, -⟩ := hfields
  exact ⟨hkeys, rfl, hdisplay.2, rfl, trivial, rfl, hpath.2, rfl, hcrate.2, trivial⟩

theorem SendableEntry.expressible {v : Value} (h : v.SendableEntry) :
    (Client.plainEntry v).Expressible := by
  obtain ⟨r, rfl, hwhole⟩ | h := h
  · exact expressible_record hwhole
  · cases v with
    | record => exact h.elim
    | _ => exact h

theorem entry_plainEntry (v : Value) :
    Intake.entry "" (Client.plainEntry v) = Intake.entry "" v := by
  cases v with
  | record r => exact Intake.entry_toJson r
  | _ => rfl

theorem plainEntries_of_items {v : Value} {items : List Value} (h : v.items? = some items) :
    Client.plainEntries v = .list (items.map Client.plainEntry) := by
  rw [Client.plainEntries, h]
  rfl

theorem plainEntries_of_none {v : Value} (h : v.items? = none) : Client.plainEntries v = v := by
  rw [Client.plainEntries, h]
  rfl

theorem SendableEntries.expressible {v : Value} (h : v.SendableEntries) :
    (Client.plainEntries v).Expressible := by
  unfold SendableEntries at h
  split at h
  · rename_i items hitems
    rw [plainEntries_of_items hitems]
    refine allExpressible_iff.2 fun x hx => ?_
    obtain ⟨y, hy, rfl⟩ := List.mem_map.1 hx
    exact (h y hy).expressible
  · rename_i hitems
    rw [plainEntries_of_none hitems]
    exact h

theorem entries_forall₂ {items arrived : List Value} (hitems : ∀ x ∈ items, x.SendableEntry)
    (h : List.Forall₂ Sent (items.map Client.plainEntry) arrived) :
    arrived.map (Intake.entry "") = items.map (Intake.entry "") := by
  induction items generalizing arrived with
  | nil =>
    cases h
    rfl
  | cons x rest ih =>
    rw [List.map_cons] at h
    obtain ⟨hx, hrest⟩ := List.forall_mem_cons.1 hitems
    cases h with
    | cons hsent hmore =>
      rw [List.map_cons, List.map_cons, ih hrest hmore, entry_sent hx.expressible hsent,
        entry_plainEntry]

/-- The records of a trait are the same before and after its implementors were sent. -/
theorem entries_sent {v w : Value} (hv : v.SendableEntries) (h : Sent (Client.plainEntries v) w) :
    w.items?.map (·.map (Intake.entry "")) = v.items?.map (·.map (Intake.entry "")) := by
  have hrel := h.rel_items
  unfold SendableEntries at hv
  split at hv
  · rename_i items hitems
    rw [plainEntries_of_items hitems] at hrel
    generalize w.items? = arrived at hrel ⊢
    obtain ⟨harrived⟩ := hrel
    rw [hitems, Option.map_some, Option.map_some, entries_forall₂ hv harrived]
  · rename_i hitems
    rw [plainEntries_of_none hitems, hitems] at hrel
    generalize w.items? = arrived at hrel ⊢
    cases hrel
    rw [hitems]

/-- A value is sent as the compact text of its document. -/
theorem sentText_of_document {v : Value} {j : Json} {text : String} (hj : v.document = .ok j)
    (htext : j.compact = text) : v.sentText = .ok text := by
  rw [sentText, hj]
  show j.compact.sent = _
  rw [htext, Text.sent_ofString]

end Value

/-! ### Batches -/

namespace Client

open Value Intake

/-- A batch that a client can send: its keys have texts that can be sent, and so can its traits. -/
def SendableBatch (pairs : List (Value × Value)) : Prop :=
  ∀ p ∈ pairs, p.1.isWritable = true ∧ p.1.asText.isWhole = true ∧ p.2.SendableEntries

/-- The batch under the texts of its keys: of two with one text only the later. -/
def byText (pairs : List (Value × Value)) : Fields Value :=
  Fields.ofPairs (pairs.map fun p => (p.1.asText, p.2))

variable {pairs : List (Value × Value)}

theorem bodyMembers_eq (h : ∀ p ∈ pairs, p.1.isWritable = true) :
    bodyMembers pairs = .ok (pairs.map fun p => (p.1.asText, plainEntries p.2)) := by
  induction pairs with
  | nil => rfl
  | cons p rest ih =>
    obtain ⟨hp, hrest⟩ := List.forall_mem_cons.1 h
    rw [bodyMembers, text_of_writable hp, ih hrest]
    rfl

theorem batchBody_eq (h : ∀ p ∈ pairs, p.1.isWritable = true) :
    batchBody (.map pairs) = .ok ((byText pairs).map fun p => (p.1, plainEntries p.2)) := by
  rw [batchBody, bodyMembers_eq h, byText, ← Fields.ofPairs_map, List.map_map]
  rfl

theorem SendableBatch.byText (h : SendableBatch pairs) {p : Text × Value}
    (hp : p ∈ byText pairs) : p.1.isWhole = true ∧ p.2.SendableEntries := by
  obtain ⟨q, hq, rfl⟩ := List.mem_map.1 (Fields.mem_of_mem_ofPairs hp)
  exact (h q hq).2

/-- What arrives has the same records under the same texts. -/
theorem rows_sent : ∀ {fs : Fields Value} {js read : List (Text × Json)},
    (∀ p ∈ fs, p.2.SendableEntries) →
    Value.members (fs.map fun p => (.text p.1, plainEntries p.2)) = .ok js →
    Json.FieldsReadAs js read →
    (ofFields read).map row = fs.map (fun p => row (.text p.1, p.2)) ∧
      read.map Prod.fst = fs.map Prod.fst
  | [], _, _, _, hjs, hread => by
    obtain rfl := Except.ok.inj hjs
    obtain rfl := hread
    exact ⟨rfl, rfl⟩
  | p :: rest, _, _, hfs, hjs, hread => by
    obtain ⟨hp, hrest⟩ := List.forall_mem_cons.1 hfs
    rw [List.map_cons, Value.members] at hjs
    obtain ⟨name, hname, hmore⟩ := ok_of_bind_ok hjs
    obtain rfl := Except.ok.inj hname
    obtain ⟨j, hj, hmore⟩ := ok_of_bind_ok hmore
    obtain ⟨js, hjs', hcons⟩ := ok_of_bind_ok hmore
    obtain rfl := Except.ok.inj hcons
    obtain ⟨y, ys, rfl, hy, hys⟩ := hread
    obtain ⟨hrows, hnames⟩ := rows_sent hrest hjs' hys
    have hrow : row (.text p.1, ofJson y) = row (.text p.1, p.2) :=
      congrArg (Prod.mk p.1) (entries_sent hp ⟨j, y, hj, hy, rfl⟩)
    exact ⟨by rw [ofFields, List.map_cons, List.map_cons, hrows, hrow],
      by rw [List.map_cons, List.map_cons, hnames]⟩

/-- The mapping that is sent can be sent. -/
theorem SendableBatch.expressible (h : SendableBatch pairs) :
    (mapping ((Client.byText pairs).map fun p => (p.1, plainEntries p.2))).Expressible := by
  have hkeys : ((((Client.byText pairs).map fun p => (p.1, plainEntries p.2)).map fun p =>
      (Value.text p.1, p.2)).filterMap fun entry => entry.1.text?) =
      (Client.byText pairs).map Prod.fst := by
    rw [List.map_map, List.filterMap_map, ← List.filterMap_eq_map]
    rfl
  refine ⟨?_, entriesExpressible_iff.2 fun p hp => ?_⟩
  · rw [hkeys]
    exact Fields.nodup_ofPairs _
  · rw [List.map_map] at hp
    obtain ⟨q, hq, rfl⟩ := List.mem_map.1 hp
    exact ⟨(h.byText hq).1, (h.byText hq).2.expressible⟩

/-- A batch that can be sent is sent, and where it arrives it comes to what the batch under the
    texts of its keys comes to. -/
theorem batch_sent (h : SendableBatch pairs) :
    ∃ body fields,
      (Call.contribute (.map pairs)).request =
        .ok { method := "POST", path := "/api/batches", body } ∧
      Json.parseSent body.toUTF8 = .ok (.object fields) ∧
      (batch (.map (ofFields fields))).result = (batch (mapping (Client.byText pairs))).result := by
  obtain ⟨j, hj, hsendable, hwhole⟩ := document_of_expressible h.expressible
  have hmembers := hj
  rw [mapping, List.map_map, document] at hmembers
  obtain ⟨js, hjs, hobject⟩ := ok_of_bind_ok hmembers
  obtain rfl := Except.ok.inj hobject
  obtain ⟨body, read, hbody, hparse, hread⟩ := Json.parseSent_object hsendable hwhole
  obtain ⟨hrows, hnames⟩ := rows_sent (fun p hp => (h.byText hp).2) hjs hread
  have hnodup : (read.map Prod.fst).Nodup := hnames ▸ Fields.nodup_ofPairs _
  rw [Fields.ofPairs_of_nodup hnodup] at hparse
  refine ⟨body, read, ?_, hparse, ?_⟩
  · rw [Call.request, batchBody_eq fun p hp => (h p hp).1]
    show (Value.sentText _ >>= fun body => _) = _
    rw [sentText_of_document hj hbody]
    rfl
  · rw [mapping, batch_map, batch_map, hrows, List.map_map]
    · rfl
    · intro p hp
      obtain ⟨q, -, rfl⟩ := List.mem_map.1 hp
      rfl
    · rw [ofFields_eq_map]
      intro p hp
      obtain ⟨q, -, rfl⟩ := List.mem_map.1 hp
      rfl

theorem mem_traits_foldl_addRow {rows : List (Text × Option (List Implementor))} {t : Table}
    {x : Text} (hx : x ∈ (rows.foldl addRow t).traits) : x ∈ t.traits ∨ x ∈ rows.map Prod.fst := by
  induction rows generalizing t with
  | nil => exact .inl hx
  | cons r rest ih =>
    rw [List.map_cons, List.mem_cons]
    rcases ih hx with hrow | hrest
    · obtain ⟨name, _ | records⟩ := r
      · exact .inl hrow
      · have hlisted : x ∈ (t.append name records).traits := hrow
        rw [Table.traits_append, Table.mem_listed] at hlisted
        exact hlisted.imp id .inl
    · exact .inr (.inr hrest)

/-- A batch has no traits but the texts of its keys. -/
theorem exists_key_of_mem_traits {b : Batch} (h : ∀ p ∈ pairs, p.1.isWritable = true)
    (hb : (batch (.map pairs)).result = .ok b) {x : Text} (hx : x ∈ b.traits) :
    ∃ p ∈ pairs, p.1.asText = x := by
  rw [batch_map h] at hb
  obtain rfl := Except.ok.inj hb
  obtain habsurd | hmem := mem_traits_foldl_addRow hx
  · exact absurd habsurd List.not_mem_nil
  · rw [List.map_map] at hmem
    exact List.mem_map.1 hmem

/-- Where no two keys have one text the batch under the texts of its keys is the batch. -/
theorem batch_byText (h : ∀ p ∈ pairs, p.1.isWritable = true)
    (hnodup : (pairs.map fun p => p.1.asText).Nodup) :
    (batch (mapping (byText pairs))).result = (batch (.map pairs)).result := by
  have htexts : byText pairs = pairs.map fun p => (p.1.asText, p.2) := by
    refine Fields.ofPairs_of_nodup ?_
    rw [List.map_map]
    exact hnodup
  rw [htexts, mapping, List.map_map, batch_map, batch_map h, List.map_map]
  · rfl
  · intro p hp
    obtain ⟨q, -, rfl⟩ := List.mem_map.1 hp
    rfl

end Client
end TraitIndex
