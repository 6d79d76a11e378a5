import TraitIndex.Json.Writer
import TraitIndex.Value

/-! Values as documents to be sent.

    Most values are written as JSON: a tuple as a list, a mapping with the names that stand for its
    keys. What has no written form is a fault, and of several the one that is written first counts:
    a number that is not finite or has too many digits, a record, or a key that is none of text,
    number, truth value and null. -/

namespace TraitIndex.Value

/-- An integer that can be written. -/
def writable (n : Int) : Except Fault Int :=
  if Integer.isWritable n then .ok n else .error .digitLimit

/-- A number that can be written. -/
def finite (x : Binary64) : Except Fault Binary64 :=
  match x with
  | .finite .. => .ok x
  | _ => .error .notFinite

/-- The name that a key stands for. -/
def memberName : Value → Except Fault Text
  | .null => .ok "null"
  | .bool b => .ok (if b then "true" else "false")
  | .int n => (writable n).map fun n => toString n
  | .float x => (finite x).map fun x => Text.ofList x.toText
  | .text s => .ok s
  | _ => .error .wrongKind

mutual

/-- The document that a value is sent as. -/
def document : Value → Except Fault Json
  | .null => .ok .null
  | .bool b => .ok (.bool b)
  | .int n => (writable n).map Json.int
  | .float x => (finite x).map Json.float
  | .text s => .ok (.text s)
  | .list items => do return .list (← documents items)
  | .tuple items => do return .list (← documents items)
  | .map entries => do return .object (← members entries)
  | .record _ | .other _ => .error .wrongKind

/-- The documents that values are sent as. -/
def documents : List Value → Except Fault (List Json)
  | [] => .ok []
  | x :: rest => do
    let x ← document x
    return x :: (← documents rest)

/-- The members that entries are sent as. -/
def members : List (Value × Value) → Except Fault (List (Text × Json))
  | [] => .ok []
  | (k, v) :: rest => do
    let name ← memberName k
    let v ← document v
    return (name, v) :: (← members rest)

end

/-- The text that a value is sent as. -/
def sentText (v : Value) : Except Fault String := do (← document v).compact.sent

end TraitIndex.Value
