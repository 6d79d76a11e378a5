import TraitIndex.Outcome
import TraitIndex.Table
import TraitIndex.Value

/-! Taking in loosely typed batches.

    Contributors are not trusted to hand in a well-formed batch. `entry` makes a record of any
    value: what is missing or of the wrong kind gets its default, so one bad entry never costs the
    others. `batch` makes a batch of any value, trait by trait; a trait whose implementors are no
    list contributes nothing, and two keys with the same text are one trait. What was repaired is
    told in notices. -/

namespace TraitIndex.Intake

/-- The names under which the text to display may stand, the first that is there counting. -/
def displayTextNames : List Text := ["displayText", "display_text", "text"]

/-- The names under which the synthetic mark may stand. -/
def syntheticNames : List Text := ["isSynthetic", "is_synthetic", "synthetic"]

/-- The names under which the type path may stand. -/
def typePathNames : List Text := ["typePath", "type_path", "types"]

/-- The first of several names that an entry has, with its value. -/
def firstPresent? (fields : List (Value × Value)) (names : List Text) :
    Option (Text × Value) :=
  names.findSome? fun name => (Value.lookup fields name).map (name, ·)

/-- The text to display, if it is a text. -/
def displayText? (fields : List (Value × Value)) : Option Text :=
  match firstPresent? fields displayTextNames with
  | some (_, .text s) => some s
  | _ => none

/-- The synthetic mark; anything but a truth value counts as no. -/
def isSynthetic (fields : List (Value × Value)) : Bool :=
  match firstPresent? fields syntheticNames with
  | some (_, .bool b) => b
  | _ => false

/-- The first of several paths, if it is a text. -/
def firstPath : Option (List Value) → Text
  | some (.text s :: _) => s
  | _ => ""

/-- The type path: a text, or the first of the list of paths that generated fragments have. -/
def typePath (fields : List (Value × Value)) : Text :=
  match firstPresent? fields typePathNames with
  | some (_, .text s) => s
  | some (name, v) => if name = "types" then firstPath v.items? else ""
  | none => ""

/-- The crate that the entry names, or else the one it was found in. -/
def crateOr (crate : Text) (fields : List (Value × Value)) : Text :=
  match Value.lookup fields "crate" with
  | some (.text s) => if s = "" then crate else s
  | _ => crate

/-- The record that a value stands for, found in a crate. -/
def entry (crate : Text) : Value → Implementor
  | .record r => r
  | .map fields =>
    { displayText := (displayText? fields).getD ""
      isSynthetic := isSynthetic fields
      typePath := typePath fields
      crate := crateOr crate fields }
  | _ => { crate }

/-- What had to be repaired in an entry. -/
def entryNotices : Value → List Notice
  | .record _ => []
  | .map fields =>
    match firstPresent? fields displayTextNames with
    | some (_, .text _) => []
    | some (name, _) => [.noUsableText name]
    | none => [.noUsableText "displayText"]
  | v => [.entryNotObject v.kindName]

/-- The text of a value, unless a number in it is too long to be written. -/
def text (v : Value) : Except Fault Text :=
  if v.isWritable then .ok v.asText else .error .digitLimit

/-- One pair of a batch added to what came before it. -/
def addPair (t : Table) (key entries : Value) : Outcome Table := do
  let trait ← Outcome.ofExcept (text key)
  match entries.items? with
  | some items =>
    Outcome.note (items.flatMap entryNotices)
    return t.append trait (items.map (entry ""))
  | none =>
    Outcome.note [.implementorsNotList trait]
    return t

/-- The pairs of a batch added one by one. -/
def addPairs (t : Table) : List (Value × Value) → Outcome Table
  | [] => return t
  | (key, entries) :: rest => do
    let t ← addPair t key entries
    addPairs t rest

/-- The batch that a value stands for. -/
def batch : Value → Outcome Batch
  | .map pairs => addPairs .empty pairs
  | v => do
    Outcome.note [.batchNotMapping v.kindName]
    return .empty

end TraitIndex.Intake
