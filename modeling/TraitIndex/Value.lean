import TraitIndex.Fault
import TraitIndex.Implementor
import TraitIndex.Number.Integer
import TraitIndex.Text.Quoted

/-! Loosely typed values.

    What contributors hand in need not be a batch: it is any value, with lists and tuples apart,
    keys of any kind in a mapping, and finished records among them. `shown` writes a value the way
    it is displayed inside another and `asText` the way it stands alone, which differs for texts
    and values of other kinds. A number is written only within the limit on digits, so callers ask
    `isWritable` first. -/

namespace TraitIndex

/-- A value of a kind that is not told apart further, such as bytes or a set: what the name of its
    kind is, how it stands alone and inside another, whether it counts as true, and which whole
    number it stands for, if any. -/
structure Value.Other where
  kind : Text
  text : Text
  shown : Text
  isTruthy : Bool := true
  whole? : Option Int := none
  deriving DecidableEq, Repr

/-- A value of any kind. -/
inductive Value where
  | null
  | bool (b : Bool)
  | int (n : Int)
  | float (x : Binary64)
  | text (s : Text)
  | list (items : List Value)
  | tuple (items : List Value)
  | map (entries : List (Value × Value))
  | record (r : Implementor)
  | other (x : Value.Other)
  deriving Repr, Inhabited

namespace Value

/-- The name of a value's kind in messages. -/
def kindName : Value → Text
  | .null => "NoneType"
  | .bool _ => "bool"
  | .int _ => "int"
  | .float _ => "float"
  | .text _ => "str"
  | .list _ => "list"
  | .tuple _ => "tuple"
  | .map _ => "dict"
  | .record _ => "ImplementorRecord"
  | .other x => x.kind

/-- The members of a list or a tuple. -/
def items? : Value → Option (List Value)
  | .list items => some items
  | .tuple items => some items
  | _ => none

/-- The value under a text key. -/
def lookup (entries : List (Value × Value)) (name : Text) : Option Value :=
  match entries with
  | [] => none
  | (.text k, v) :: rest => if k = name then some v else lookup rest name
  | _ :: rest => lookup rest name

/-- A truth value as it is shown. -/
def shownBool (b : Bool) : Text := if b then "True" else "False"

/-- A record as it is shown. -/
def shownRecord (r : Implementor) : Text :=
  "ImplementorRecord(display_text=" ++ Text.quoted r.displayText ++ ", is_synthetic=" ++
    shownBool r.isSynthetic ++ ", type_path=" ++ Text.quoted r.typePath ++ ", crate=" ++
    Text.quoted r.crate ++ ")"

mutual

/-- A value as it is shown inside another. -/
def shown : Value → Text
  | .null => "None"
  | .bool b => shownBool b
  | .int n => toString n
  | .float x => Text.ofList x.toText
  | .text s => Text.quoted s
  | .list items => "[" ++ .intercalate ", " (shownItems items) ++ "]"
  | .tuple [x] => "(" ++ shown x ++ ",)"
  | .tuple items => "(" ++ .intercalate ", " (shownItems items) ++ ")"
  | .map entries => "\x7b" ++ .intercalate ", " (shownEntries entries) ++ "\x7d"
  | .record r => shownRecord r
  | .other x => x.shown

/-- The members of a list, each as it is shown. -/
def shownItems : List Value → List Text
  | [] => []
  | x :: rest => shown x :: shownItems rest

/-- The entries of a mapping, each as it is shown. -/
def shownEntries : List (Value × Value) → List Text
  | [] => []
  | (k, v) :: rest => (shown k ++ ": " ++ shown v) :: shownEntries rest

end

/-- A value as it stands alone. -/
def asText : Value → Text
  | .text s => s
  | .other x => x.text
  | v => v.shown

/-- A value as it stands in a query: truth values in small letters, and nothing for null. -/
def queryText : Value → Text
  | .null => ""
  | .bool b => if b then "true" else "false"
  | v => v.asText

mutual

/-- Every integer in the value can be written. -/
def isWritable : Value → Bool
  | .int n => Integer.isWritable n
  | .list items => areWritable items
  | .tuple items => areWritable items
  | .map entries => areWritableEntries entries
  | _ => true

/-- Every integer in the values can be written. -/
def areWritable : List Value → Bool
  | [] => true
  | x :: rest => isWritable x && areWritable rest

/-- Every integer in the entries can be written. -/
def areWritableEntries : List (Value × Value) → Bool
  | [] => true
  | (k, v) :: rest => isWritable k && isWritable v && areWritableEntries rest

end

/-- The whole number that a value stands for. -/
def integer : Value → Except Fault Int
  | .bool b => .ok (if b then 1 else 0)
  | .int n => .ok n
  | .float (.infinite _) => .error .infinite
  | .float x => (x.truncate?.map .ok).getD (.error .notInteger)
  | .text s => ((Integer.read? s.toList).map .ok).getD (.error .notInteger)
  | .other x => (x.whole?.map .ok).getD (.error .wrongKind)
  | _ => .error .wrongKind

/-- A value that counts as true: not null, not false, not zero and not empty. -/
def isTruthy : Value → Bool
  | .null => false
  | .bool b => b
  | .int n => n ≠ 0
  | .float x => !x.isZero
  | .text s => s ≠ ""
  | .list items => !items.isEmpty
  | .tuple items => !items.isEmpty
  | .map entries => !entries.isEmpty
  | .record _ => true
  | .other x => x.isTruthy

mutual

/-- A document as a value: objects become mappings with text keys. -/
def ofJson : Json → Value
  | .null => .null
  | .bool b => .bool b
  | .int n => .int n
  | .float x => .float x
  | .text s => .text s
  | .list items => .list (ofItems items)
  | .object fields => .map (ofFields fields)

/-- The elements of a list as values. -/
def ofItems : List Json → List Value
  | [] => []
  | x :: rest => ofJson x :: ofItems rest

/-- The members of an object as entries. -/
def ofFields : List (Text × Json) → List (Value × Value)
  | [] => []
  | (name, x) :: rest => (.text name, ofJson x) :: ofFields rest

end

end Value
end TraitIndex
