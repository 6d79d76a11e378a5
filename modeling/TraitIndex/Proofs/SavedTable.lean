import TraitIndex.Proofs.Files
import TraitIndex.Proofs.TakingIn
import TraitIndex.Proofs.Transport

/-! Tables in files.

    A table that is written on several lines is ASCII: whatever its texts hold, on paper there are
    printed characters and line feeds only. So the bytes of a file keep it as it is, no line end is
    replaced when the file is read, and the document and then the batch that are read are the table
    again. -/

namespace TraitIndex

namespace Json

open Literal (bounds_of_isBare isBare_decimal isBare_of_isNameChar)

/-! ### Printed text -/

/-- Line feeds and the printed characters of ASCII. -/
def isPrinted (c : CodePoint) : Bool := c = '\n' || (0x20 ≤ c.toNat && c.toNat < 0x7f)

theorem isPrinted_of_bounds {c : CodePoint} (h : 0x20 ≤ c.toNat ∧ c.toNat < 0x7f) :
    isPrinted c = true := by
  simp [isPrinted, h]

theorem isPrinted_of_isBare {c : CodePoint} (h : Literal.isBare c = true) : isPrinted c = true := by
  obtain ⟨hlow, hhigh⟩ := bounds_of_isBare h
  exact isPrinted_of_bounds ⟨Nat.le_of_lt hlow, hhigh⟩

theorem isPrinted_hexDigit : ∀ d, d < 16 → isPrinted (Text.hexDigit d) = true := by decide

theorem isPrinted_hexDigits (width n : Nat) : ∀ c ∈ Text.hexDigits width n, isPrinted c = true := by
  induction width generalizing n with
  | zero => simp [Text.hexDigits]
  | succ w ih =>
    rw [Text.hexDigits, List.forall_mem_append]
    refine ⟨ih _, fun c hc => ?_⟩
    obtain rfl := List.mem_singleton.1 hc
    exact isPrinted_hexDigit _ (Nat.mod_lt _ (by decide))

theorem isPrinted_unitEscape (n : Nat) : ∀ c ∈ unitEscape n, isPrinted c = true :=
  List.forall_mem_cons.2 ⟨by decide, List.forall_mem_cons.2 ⟨by decide, isPrinted_hexDigits 4 n⟩⟩

theorem isPrinted_of_shortEscape? {c e : CodePoint} (h : shortEscape? c = some e) :
    isPrinted e = true := by
  unfold shortEscape? at h
  split at h
  case h_8 => exact absurd h (by simp)
  all_goals
    rw [← Option.some.inj h]
    decide

theorem isPrinted_escapedCharAscii (c : CodePoint) :
    ∀ d ∈ escapedCharAscii c, isPrinted d = true := by
  unfold escapedCharAscii
  rcases he : shortEscape? c with _ | e
  · by_cases hplain : 0x20 ≤ c.toNat ∧ c.toNat < 0x7f
    · simp only [hplain, and_self, if_true]
      intro d hd
      obtain rfl := List.mem_singleton.1 hd
      exact isPrinted_of_bounds hplain
    · simp only [hplain, if_false]
      split
      · exact isPrinted_unitEscape _
      · exact List.forall_mem_append.2 ⟨isPrinted_unitEscape _, isPrinted_unitEscape _⟩
  · exact List.forall_mem_cons.2 ⟨by decide, by simpa using isPrinted_of_shortEscape? he⟩

theorem isPrinted_escapedAscii (s : List CodePoint) : ∀ c ∈ escapedAscii s, isPrinted c = true := by
  refine List.forall_mem_append.2 ⟨List.forall_mem_cons.2 ⟨by decide, fun c hc => ?_⟩,
    List.all_eq_true.1 rfl⟩
  obtain ⟨d, -, hc⟩ := List.mem_flatMap.1 hc
  exact isPrinted_escapedCharAscii d c hc

theorem isPrinted_decimal (negative : Bool) (d : Decimal) :
    ∀ c ∈ (if negative then [.char '-'] else []) ++ d.chars, isPrinted c = true := by
  refine List.forall_mem_append.2 ⟨?_, fun c hc => isPrinted_of_isBare (isBare_decimal d c hc)⟩
  cases negative <;> exact List.all_eq_true.1 rfl

theorem isPrinted_newLine (depth : Nat) : ∀ c ∈ newLine depth, isPrinted c = true := by
  refine List.forall_mem_cons.2 ⟨by decide, fun c hc => ?_⟩
  rw [List.eq_of_mem_replicate hc]
  decide

theorem isPrinted_separated {separator : List CodePoint} (hs : ∀ c ∈ separator, isPrinted c = true)
    {lines : List (List CodePoint)} (h : ∀ line ∈ lines, ∀ c ∈ line, isPrinted c = true) :
    ∀ c ∈ separated separator lines, isPrinted c = true := by
  fun_induction separated separator lines with
  | case1 => simp
  | case2 x => exact h x (List.mem_singleton_self x)
  | case3 x y rest ih =>
    rw [List.forall_mem_cons] at h
    exact List.forall_mem_append.2 ⟨List.forall_mem_append.2 ⟨h.1, hs⟩, ih h.2⟩

theorem isPrinted_block {opening closing : CodePoint} (ho : isPrinted opening = true)
    (hc : isPrinted closing = true) (depth : Nat) {lines : List (List CodePoint)}
    (h : ∀ line ∈ lines, ∀ c ∈ line, isPrinted c = true) :
    ∀ c ∈ block opening closing depth lines, isPrinted c = true := by
  have hcomma : ∀ c ∈ .char ',' :: newLine (depth + 1), isPrinted c = true :=
    List.forall_mem_cons.2 ⟨by decide, isPrinted_newLine _⟩
  have hclosing : ∀ c ∈ [closing], isPrinted c = true := by simpa using hc
  unfold block
  split
  · exact List.forall_mem_cons.2 ⟨ho, hclosing⟩
  · simp only [List.forall_mem_append, List.forall_mem_cons]
    exact ⟨⟨⟨⟨ho, isPrinted_newLine _⟩, isPrinted_separated hcomma h⟩, isPrinted_newLine _⟩,
      by simpa using hc⟩

mutual

/-- A document on lines of its own is printed text. -/
theorem isPrinted_indentedAt (depth : Nat) : ∀ x : Json, Sendable x →
    ∀ c ∈ indentedAt depth x, isPrinted c = true
  | .null, _ => List.all_eq_true.1 rfl
  | .bool true, _ => List.all_eq_true.1 rfl
  | .bool false, _ => List.all_eq_true.1 rfl
  | .int n, _ => by
    have h := isPrinted_decimal (decide (n < 0)) (.ofNat n.natAbs)
    simp only [decide_eq_true_eq, ← toString_int] at h
    exact h
  | .float _, ⟨negative, m, q, hx⟩ => by
    obtain ⟨d, hd, -⟩ := Binary64.toText_finite negative m q
    have htext : indentedAt depth (.float (.finite negative m q)) =
        (if negative then [.char '-'] else []) ++ d.chars := hd
    rw [hx, htext]
    exact isPrinted_decimal negative d
  | .text s, _ => isPrinted_escapedAscii s.toList
  | .list items, hx =>
    isPrinted_block (by decide) (by decide) depth (isPrinted_indentedItems (depth + 1) items hx)
  | .object fields, hx =>
    isPrinted_block (by decide) (by decide) depth (isPrinted_indentedFields (depth + 1) fields hx)

theorem isPrinted_indentedItems (depth : Nat) : ∀ xs : List Json, AllSendable xs →
    ∀ line ∈ indentedItems depth xs, ∀ c ∈ line, isPrinted c = true
  | [], _ => by simp [indentedItems]
  | x :: xs, hx => List.forall_mem_cons.2
      ⟨isPrinted_indentedAt depth x hx.1, isPrinted_indentedItems depth xs hx.2⟩

theorem isPrinted_indentedFields (depth : Nat) : ∀ ps : List (Text × Json), FieldsSendable ps →
    ∀ line ∈ indentedFields depth ps, ∀ c ∈ line, isPrinted c = true
  | [], _ => by simp [indentedFields]
  | (name, x) :: ps, hx => by
    refine List.forall_mem_cons.2 ⟨List.forall_mem_append.2 ⟨isPrinted_escapedAscii _, ?_⟩,
      isPrinted_indentedFields depth ps hx.2⟩
    exact List.forall_mem_cons.2 ⟨by decide, List.forall_mem_cons.2 ⟨by decide,
      isPrinted_indentedAt depth x hx.1⟩⟩

end

end Json

namespace Table

/-! ### The text of a table -/

/-- The text of the table: its document on lines of its own, the last of which is ended too. -/
def text (t : Table) : Text := t.toJson.indented ++ "\n"

theorem toList_text (t : Table) : t.text.toList = Json.indentedAt 0 t.toJson ++ [.char '\n'] := by
  rw [text, Json.indented, Text.toList_append, Text.toList_ofList]
  rfl

theorem isPrinted_text (t : Table) : ∀ c ∈ t.text.toList, Json.isPrinted c = true := by
  rw [toList_text]
  exact List.forall_mem_append.2
    ⟨Json.isPrinted_indentedAt 0 _ (Json.sendable_table t), List.all_eq_true.1 rfl⟩

/-- The text of a table is one that can be written. -/
theorem exists_string_text (t : Table) : ∃ text : String, t.text = text := by
  refine Text.isWhole_iff.1 (List.all_eq_true.2 fun c hc => CodePoint.isChar_of_toNat_lt ?_)
  have hprinted := t.isPrinted_text c hc
  simp only [Json.isPrinted, Bool.or_eq_true, Bool.and_eq_true, decide_eq_true_eq] at hprinted
  rcases hprinted with rfl | h
  · decide
  · omega

/-- The text of a table that has no half of a pair is read as its document. -/
theorem parse_text (t : Table) (hwhole : t.toJson.isWhole = true) :
    Json.parse {} t.text.toList = .ok t.toJson := by
  obtain ⟨y, hy, hread⟩ :=
    (Json.spelled_indented 0 _ (Json.sendable_table t) hwhole).parse .none (Json.lineGap 0)
  rw [Json.eq_of_readAs (Json.plain_table t) hread] at hy
  rw [toList_text]
  exact hy

end Table

namespace Disk

/-! ### Files -/

/-- The path leads to a JSON file of which all bytes are those of a text. -/
structure Holds (d : Disk) (p : Path) (text : String) : Prop where
  found : d.find p = .ok (.file text.toUTF8)
  named : ∀ name ∈ p.names, .char '\x00' ∉ name.toList
  json : p.isJson = true

variable {d : Disk} {p : Path} {text : String}

theorem Holds.readText (h : d.Holds p text) (hreturn : '\r' ∉ text.toList) :
    d.readText p = .ok text :=
  readText_of_string h.named h.found hreturn

theorem Holds.isDirectory (h : d.Holds p text) : d.isDirectory p = false := by
  rw [Disk.isDirectory, h.found]

end Disk

namespace Loading

variable {d : Disk} {p : Path} {t : Table} {text : String}

/-- A table that was saved is loaded as it was, and nothing is told. -/
theorem jsonBatch_saved (hwhole : t.toJson.isWhole = true) (htext : t.text = text)
    (h : d.Holds p text) : jsonBatch d p = ⟨.ok t, []⟩ := by
  have hreturn : '\r' ∉ text.toList := by
    intro hmem
    have hmem : .char '\r' ∈ t.text.toList := by
      rw [htext]
      exact List.mem_map_of_mem hmem
    exact absurd (t.isPrinted_text _ hmem) (by decide)
  have hsource : Outcome.ofExcept (d.readText p) = ⟨.ok text, []⟩ := by
    rw [h.readText hreturn]
    rfl
  have hdocument : Outcome.ofExcept (Json.parse {} (text : Text).toList) = ⟨.ok t.toJson, []⟩ := by
    rw [← htext, t.parse_text hwhole]
    rfl
  rw [jsonBatch, hsource, Outcome.ok_bind, hdocument, Outcome.ok_bind, Intake.batch_toJson]
  rfl

theorem batches_saved (hwhole : t.toJson.isWhole = true) (htext : t.text = text)
    (h : d.Holds p text) : batches d p = ⟨.ok [t], []⟩ := by
  rw [batches, h.isDirectory, if_neg (by decide), if_pos h.json,
    jsonBatch_saved hwhole htext h, Outcome.ok_bind]
  rfl

end Loading
end TraitIndex
