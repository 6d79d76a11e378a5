import TraitIndex.Json.Document
import TraitIndex.Proofs.Tables
import TraitIndex.Proofs.WrittenDocument

/-! Documents that are sent and read.

    A document without halves of pairs is sent as the bytes of its compact text. Such a text begins
    with ASCII, which shows that the bytes are UTF-8, and so what was written is what is read. -/

namespace TraitIndex

/-- A text without halves of pairs is sent as the string that it is. -/
theorem Text.sent_ofString (s : String) : (ofString s).sent = .ok s := by
  rw [sent, string?_ofString]
  rfl

/-- A text with half of a pair is not sent. -/
theorem Text.sent_of_not_isWhole {t : Text} (h : t.isWhole = false) :
    t.sent = .error .unwritableText := by
  rw [sent, string?_eq_none h]
  rfl

namespace Json

/-! ### Bytes -/

theorem toList_loop (bs : ByteArray) (i : Nat) (r : List UInt8) :
    ByteArray.toList.loop bs i r = r.reverse ++ bs.data.toList.drop i := by
  unfold ByteArray.toList.loop
  split
  · rename_i h
    have hget : bs.data.toList.drop i = bs.get! i :: bs.data.toList.drop (i + 1) := by
      rw [List.drop_eq_getElem_cons h]
      congr 1
      exact (getElem!_pos bs.data i h).symm
    rw [toList_loop bs (i + 1), hget, List.reverse_cons, List.append_assoc]
    rfl
  · rename_i h
    rw [List.drop_eq_nil_of_le (Nat.le_of_not_lt h), List.append_nil]
termination_by bs.size - i

/-- The bytes of a text are those of its characters. -/
theorem bytes_toUTF8 (s : List Char) :
    (String.ofList s).toUTF8.toList.map UInt8.toNat = Text.bytesOf s := by
  have h : (String.ofList s).toUTF8.toList = s.flatMap String.utf8EncodeChar := by
    rw [String.toUTF8_eq_toByteArray, ← String.utf8Encode_toList, String.toList_ofList,
      ByteArray.toList, toList_loop, List.utf8Encode, List.toList_data_toByteArray]
    rfl
  rw [h, Text.bytesOf, List.map_flatMap]

/-- Bytes that begin with two ASCII characters other than the null character are UTF-8. -/
theorem unmarked_ascii {a b : Nat} (ha : 0 < a ∧ a < 0x80) (hb : 0 < b) (t : List Nat) :
    unmarked (a :: b :: t) = (.utf8, a :: b :: t) := by
  have hzeros : encodingByZeros (a :: b :: t) = .utf8 := by
    unfold encodingByZeros
    split
    all_goals simp_all
  unfold unmarked
  split
  all_goals simp_all

/-- A text that begins with two ASCII characters other than the null character is read as it
    was written. -/
theorem parseSent_ascii {c d : Char} (hc : 0 < c.toNat ∧ c.toNat < 0x80)
    (hd : 0 < d.toNat ∧ d.toNat < 0x80) (s : List Char) :
    parseSent (String.ofList (c :: d :: s)).toUTF8 = parse {} ((c :: d :: s).map .char) := by
  have hbyte : ∀ {e : Char}, e.toNat < 0x80 → String.utf8EncodeChar e = [UInt8.ofNat e.toNat] := by
    intro e he
    unfold String.utf8EncodeChar
    exact if_pos (Nat.le_of_lt_succ he)
  have hnat : ∀ {n : Nat}, n < 0x80 → (UInt8.ofNat n).toNat = n := fun hn =>
    Nat.mod_eq_of_lt (Nat.lt_trans hn (by decide))
  have hbytes : Text.bytesOf (c :: d :: s) = c.toNat :: d.toNat :: Text.bytesOf s := by
    simp only [Text.bytesOf, List.flatMap_cons, hbyte hc.2, hbyte hd.2, List.map_cons, List.map_nil,
      hnat hc.2, hnat hd.2]
    rfl
  have hdecode := Text.decode_bytesOf (c :: d :: s)
  rw [hbytes] at hdecode
  rw [parseSent, bytes_toUTF8, hbytes, unmarked_ascii hc hd.1]
  simp only [hdecode]

/-- The compact text of an object begins with its bracket and the next quote or bracket. -/
theorem exists_compact_object (fields : List (Text × Json)) :
    ∃ d s, compactWith escaped (.object fields) = .char '{' :: .char d :: s ∧
      0 < d.toNat ∧ d.toNat < 0x80 := by
  cases fields with
  | nil => exact ⟨'}', [], rfl, by decide⟩
  | cons p rest =>
    obtain ⟨name, x⟩ := p
    obtain ⟨s, hs⟩ : ∃ s, separated [','] (compactFields escaped ((name, x) :: rest)) =
        .char '"' :: s := by
      rw [compactFields]
      cases compactFields escaped rest with
      | nil => exact ⟨_, rfl⟩
      | cons _ _ => exact ⟨_, rfl⟩
    exact ⟨'"', s ++ [.char '}'], by rw [compactWith, hs]; rfl, by decide⟩

/-- The text of an object is sent, and the members of the object are read from its bytes. -/
theorem parseSent_object {fields : List (Text × Json)} (h : FieldsSendable fields)
    (hwhole : fieldsWhole fields = true) :
    ∃ (text : String) (read : List (Text × Json)), compact (.object fields) = text ∧
      parseSent text.toUTF8 = .ok (.object (Fields.ofPairs read)) ∧ FieldsReadAs fields read := by
  obtain ⟨y, hy, read, rfl, hread⟩ := parse_compact (x := .object fields) h
  obtain ⟨text, htext⟩ :=
    Text.isWhole_iff.1 ((isWhole_compact (.object fields)).trans hwhole)
  refine ⟨text, read, htext, ?_, hread⟩
  obtain ⟨d, s, hstart, hd⟩ := exists_compact_object fields
  have hchars : text.toList.map .char = compactWith escaped (.object fields) := by
    rw [← Text.toList_ofString, ← htext]
    rfl
  rw [← hchars] at hy hstart
  obtain ⟨c, rest, hlist, hc, hrest⟩ := List.map_eq_cons_iff.1 hstart
  obtain ⟨e, rest, rfl, he, -⟩ := List.map_eq_cons_iff.1 hrest
  obtain rfl := CodePoint.char.inj hc
  obtain rfl := CodePoint.char.inj he
  rw [← hy, hlist, ← parseSent_ascii (by decide) hd, ← hlist, String.ofList_toList]

/-- A plain object is read as it is. -/
theorem parseSent_plain {fields : List (Text × Json)} (h : FieldsSendable fields)
    (hplain : Plain (.object fields)) (hwhole : fieldsWhole fields = true) :
    ∃ text : String, compact (.object fields) = text ∧
      parseSent text.toUTF8 = .ok (.object fields) := by
  obtain ⟨text, read, htext, hparse, hread⟩ := parseSent_object h hwhole
  exact ⟨text, htext, by rw [hparse, eq_of_readAs hplain ⟨read, rfl, hread⟩]⟩

/-- The document of a table can be sent and read. -/
theorem sendable_table (t : Table) : Sendable t.toJson := by
  refine fieldsSendable_iff.2 fun p hp => ?_
  obtain ⟨row, -, rfl⟩ := List.mem_map.1 hp
  refine allSendable_iff.2 fun x hx => ?_
  obtain ⟨r, -, rfl⟩ := List.mem_map.1 hx
  exact ⟨trivial, trivial, trivial, trivial, trivial⟩

theorem plain_table (t : Table) : Plain t.toJson := by
  refine ⟨?_, fieldsPlain_iff.2 fun p hp => ?_⟩
  · rw [List.map_map]
    exact t.distinct
  · obtain ⟨row, -, rfl⟩ := List.mem_map.1 hp
    refine allPlain_iff.2 fun x hx => ?_
    obtain ⟨r, -, rfl⟩ := List.mem_map.1 hx
    have hnames : ([("displayText" : Text), "isSynthetic", "typePath", "crate"]).Nodup := by decide
    exact ⟨hnames, trivial, trivial, trivial, trivial, trivial⟩

/-- The document of rows has no half of a pair if their traits and records have none. -/
theorem isWhole_rowsToJson {rows : List (Text × List Implementor)} :
    isWhole (Table.rowsToJson rows) = true ↔
      ∀ row ∈ rows, row.1.isWhole = true ∧ ∀ r ∈ row.2, isWhole r.toJson = true := by
  rw [Table.rowsToJson, isWhole, fieldsWhole_iff, List.forall_mem_map]
  simp only [isWhole, allWhole_iff, List.forall_mem_map]

theorem isWhole_table_iff {t : Table} : isWhole t.toJson = true ↔
    ∀ x ∈ t.traits, x.isWhole = true ∧ ∀ r ∈ t.get x, isWhole r.toJson = true := by
  rw [Table.toJson, isWhole_rowsToJson, t.rows_eq_map, List.forall_mem_map]

/-- Tables without halves of pairs are merged to such a one. -/
theorem isWhole_ofBatches {bs : List Batch} (h : ∀ b ∈ bs, isWhole b.toJson = true) :
    isWhole (Table.ofBatches bs).toJson = true := by
  refine isWhole_table_iff.2 fun x hx => ⟨?_, fun r hr => ?_⟩
  · obtain ⟨b, hb, hx⟩ := (Table.mem_traits_ofBatches bs x).1 hx
    exact (isWhole_table_iff.1 (h b hb) x hx).1
  · rw [Table.get_ofBatches] at hr
    obtain ⟨b, hb, hr⟩ := List.mem_flatMap.1 hr
    exact (isWhole_table_iff.1 (h b hb) x (Table.mem_traits_of_mem_get hr)).2 r hr

end Json
end TraitIndex
