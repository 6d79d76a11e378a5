import TraitIndex.Json.Writer
import TraitIndex.Proofs.FragmentOutcome

/-! Generated fragments.

    A generator writes one line for each crate, with the list of its entries, between a fixed
    beginning and a fixed end; every text stands in double quotes and is escaped in any of the ways
    of JSON. Each line is an assignment of the pattern, and what is read of it alone are the records
    of its entries. -/

namespace TraitIndex

namespace Fragment

/-- An entry of a list: the signature, the synthetic mark and the paths of the type. -/
structure Entry where
  text : Json.Written
  synthetic : Bool
  types : List Json.Written

/-- A crate with the entries of its list. -/
structure CrateList where
  name : Json.Written
  entries : List Entry

/-! ### The text -/

/-- The entry as it is written. -/
def Entry.chars (e : Entry) : List CodePoint :=
  ("\x7btext:" : Text).toList ++ (e.text.quoted ++ ((",synthetic:" : Text).toList ++
    ((if e.synthetic then "true" else "false" : Text).toList ++ ((",types:[" : Text).toList ++
      (Json.separated [.char ','] (e.types.map Json.Written.quoted) ++ ("]\x7d" : Text).toList)))))

/-- The entries with a comma behind each, and the closing bracket. -/
def entriesChars : List Entry → List CodePoint
  | [] => [']']
  | e :: es => e.chars ++ .char ',' :: entriesChars es

/-- The line of a crate behind its equals sign. -/
def CrateList.listLine (c : CrateList) : List CodePoint :=
  .char '[' :: (entriesChars c.entries ++ [.char ';', .char '\n'])

/-- The line of a crate. -/
def CrateList.line (c : CrateList) : List CodePoint :=
  Assignment.opening ++ (c.name.quoted ++ (("] = " : Text).toList ++ c.listLine))

/-- The first line of a fragment. -/
def prologue : List CodePoint := ("(function() \x7bvar implementors = \x7b\x7d;\n" : Text).toList

/-- The last lines of a fragment. -/
def lastLines : List Text :=
  ["\n", "            if (window.register_implementors) \x7b\n",
    "                window.register_implementors(implementors);\n",
    "            \x7d else \x7b\n",
    "                window.pending_implementors = implementors;\n",
    "            \x7d\n", "        \n", "\x7d)()\n"]

/-- What stands behind the lines of the crates. -/
def epilogue : List CodePoint := lastLines.flatMap Text.toList

/-- The lines of crates and all that follows them. -/
def lines (crates : List CrateList) : List CodePoint := crates.flatMap CrateList.line ++ epilogue

/-- The fragment that is generated for some crates. -/
def generated (crates : List CrateList) : List CodePoint := prologue ++ lines crates

/-! ### What it is meant to say -/

/-- The record of an entry in the list of a crate. -/
def Entry.record (crate : Text) (e : Entry) : Implementor :=
  { displayText := e.text.text
    isSynthetic := e.synthetic
    typePath := (e.types.head?.map Json.Written.text).getD ""
    crate }

/-- The records of a crate. -/
def CrateList.records (c : CrateList) : List Implementor := c.entries.map (Entry.record c.name.text)

/-- The assignments of the lines, one for each crate. -/
def assignments : List CrateList → List Assignment
  | [] => []
  | c :: cs => ⟨c.name.quoted, c.listLine ++ lines cs⟩ :: assignments cs

/-! ### The list of a crate as a literal -/

open Literal

/-- The paths of a type as the items of a list. -/
def typeItems : List Json.Written → Items
  | [] => .close .none
  | [w] => .last .none (.text (.ofWritten w)) .none
  | w :: v :: ws => .more .none (.text (.ofWritten w)) .none (typeItems (v :: ws))

/-- An entry as an object. -/
def Entry.tree (e : Entry) : Literal.Tree :=
  .object (.more .none textLabel (.text (.ofWritten e.text)) .none
    (.more .none syntheticLabel (.word (.bool e.synthetic)) .none
      (.last .none typesLabel (.list (typeItems e.types)) .none)))

/-- The entries of a crate as the items of a list, with a comma before the closing bracket. -/
def entryItems : List Entry → Items
  | [] => .close .none
  | e :: es => .more .none e.tree .none (entryItems es)

theorem typeItems_chars (ws : List Json.Written) :
    (typeItems ws).chars =
      Json.separated [.char ','] (ws.map Json.Written.quoted) ++ [.char ']'] := by
  induction ws with
  | nil => rfl
  | cons w ws ih =>
    rcases ws with _ | ⟨v, ws⟩
    · rfl
    · rw [typeItems, Items.chars, ih]
      simp only [Gap.none, Literal.Tree.chars, Quotation.chars, Quotation.ofWritten,
        Json.Written.quoted, Json.separated, List.map_cons, List.nil_append, List.append_assoc,
        List.cons_append]

theorem Entry.tree_chars (e : Entry) : e.tree.chars = e.chars := by
  unfold Entry.chars
  simp only [Entry.tree, Literal.Tree.chars, Members.chars, typeItems_chars, Label.chars, Key.chars,
    Quotation.chars, Gap.none, textLabel, syntheticLabel, typesLabel, label,
    Quotation.ofWritten, Json.Written.quoted]
  rcases e.synthetic with _ | _
  · simp [Word.chars]
  · simp [Word.chars]

theorem entryItems_chars (es : List Entry) : (entryItems es).chars = entriesChars es := by
  induction es with
  | nil => rfl
  | cons e es ih =>
    rw [entryItems, Items.chars, ih, Entry.tree_chars]
    rfl

/-! ### What is read of it -/

theorem ofItems_typeItems (ws : List Json.Written) :
    Value.ofItems (typeItems ws).values = ws.map fun w => Value.text w.text := by
  induction ws with
  | nil => rfl
  | cons w ws ih =>
    rcases ws with _ | ⟨v, ws⟩
    · rfl
    · rw [typeItems, Items.values, Value.ofItems, ih]
      rfl

/-- The value of an entry has its three members. -/
theorem Entry.ofJson_value (e : Entry) : Value.ofJson e.tree.value =
    .map [(.text "text", .text e.text.text), (.text "synthetic", .bool e.synthetic),
      (.text "types", .list (e.types.map fun w => Value.text w.text))] := by
  have hpairs : e.tree.value = .object [("text", .text e.text.text),
      ("synthetic", .bool e.synthetic), ("types", .list (typeItems e.types).values)] := rfl
  rw [hpairs, Value.ofJson, Value.ofFields, Value.ofFields, Value.ofFields, Value.ofFields,
    Value.ofJson, Value.ofJson, Value.ofJson, ofItems_typeItems]

theorem firstPath_texts (ws : List Json.Written) :
    Intake.firstPath (some (ws.map fun w => Value.text w.text)) =
      (ws.head?.map Json.Written.text).getD "" := by
  rcases ws with _ | ⟨w, ws⟩
  · rfl
  · rfl

/-- The record of an entry is what is made of its value, and nothing in it is repaired. -/
theorem Entry.intake (crate : Text) (e : Entry) :
    Intake.entry crate (Value.ofJson e.tree.value) = e.record crate ∧
      Intake.entryNotices (Value.ofJson e.tree.value) = [] := by
  rw [e.ofJson_value, Entry.record, ← firstPath_texts]
  exact ⟨rfl, rfl⟩

theorem ofItems_entryItems (crate : Text) (es : List Entry) :
    (Value.ofItems (entryItems es).values).map (Intake.entry crate) =
        es.map (Entry.record crate) ∧
      (Value.ofItems (entryItems es).values).flatMap Intake.entryNotices = [] := by
  induction es with
  | nil => exact ⟨rfl, rfl⟩
  | cons e es ih =>
    obtain ⟨hentry, hnotices⟩ := e.intake crate
    rw [entryItems, Items.values, Value.ofItems, List.map_cons, List.map_cons, List.flatMap_cons,
      hentry, hnotices, ih.1, ih.2]
    exact ⟨rfl, rfl⟩

namespace Assignment

/-- A key that is written as a text in quotes denotes that text, if control characters need not
    stand for themselves in it. -/
theorem crate_of_textForm {quote : CodePoint} {name : Text} {w j : List CodePoint}
    (hq : isQuote quote = true) (hw : Literal.TextForm quote name.toList w j)
    (hj : Json.TextForm false name.toList j) (rest : List CodePoint) :
    crate ⟨quote :: (w ++ [quote]), rest⟩ = .ok name := by
  have hquoted : Literal.quoted (quote :: (w ++ [quote])) =
      .ok (.char '"' :: (j ++ [.char '"']), []) := by
    rw [Literal.quoted, hw.body hq]
    rfl
  have hparse : Json.parse {} (.char '"' :: (j ++ [.char '"'])) = .ok (.text name) := parse_text hj
  rw [crate, hquoted]
  simp only [bind, Except.bind, hparse]
  rfl

theorem crate_of_quoted (w : Json.Written) (rest : List CodePoint) :
    crate ⟨w.quoted, rest⟩ = .ok w.text :=
  crate_of_textForm rfl (textForm_of_json w.form) w.form rest

end Assignment

theorem CrateList.listLine_eq (c : CrateList) (after : List CodePoint) :
    c.listLine ++ after =
      .char '[' :: ((entryItems c.entries).chars ++ (.char ';' :: .char '\n' :: after)) := by
  rw [entryItems_chars, CrateList.listLine, List.cons_append, List.append_assoc]
  rfl

open Assignment in
/-- The assignment of a line is read as the crate with its entries. -/
theorem CrateList.read? (c : CrateList) (after : List CodePoint) :
    read? ⟨c.name.quoted, c.listLine ++ after⟩ =
      some (c.name.text, (entryItems c.entries).values) :=
  read?_eq_some_iff.2 ⟨crate_of_quoted c.name _, entries_of_items (c.listLine_eq after) 0⟩

theorem read?_of_mem_assignments {crates : List CrateList} {a : Assignment}
    (h : a ∈ assignments crates) :
    ∃ c ∈ crates, a.read? = some (c.name.text, (entryItems c.entries).values) := by
  induction crates with
  | nil => exact absurd h (by simp [assignments])
  | cons c cs ih =>
    rcases List.mem_cons.1 h with rfl | h
    · exact ⟨c, List.mem_cons_self .., c.read? _⟩
    · obtain ⟨d, hd, hread⟩ := ih h
      exact ⟨d, List.mem_cons_of_mem c hd, hread⟩

/-- The assignments of the lines hold the records of the crates. -/
theorem kept_assignments (crates : List CrateList) :
    (assignments crates).flatMap Assignment.kept = crates.flatMap CrateList.records := by
  induction crates with
  | nil => rfl
  | cons c cs ih =>
    rw [assignments, List.flatMap_cons, List.flatMap_cons, ih, Assignment.kept, c.read?]
    exact congrArg (· ++ _) (ofItems_entryItems c.name.text c.entries).1

end Fragment
end TraitIndex
