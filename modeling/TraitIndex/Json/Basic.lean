import TraitIndex.Number.Binary64

/-! JSON documents.

    An object is the list of its members in order. `Fields.put` gives a member a value: a name that
    is already there keeps its place and takes the new value, a new name goes to the end. So
    `Fields.ofPairs` turns written members, names repeated or not, into the members that count. -/

namespace TraitIndex

/-- A JSON document. -/
inductive Json where
  | null
  | bool (b : Bool)
  | int (n : Int)
  | float (x : Binary64)
  | text (s : Text)
  | list (items : List Json)
  | object (fields : List (Text × Json))
  deriving Repr, Inhabited

/-- Names with values, in order. -/
abbrev Fields (α : Type) := List (Text × α)

namespace Fields

/-- A value under a name: in the place of the name's old value, or at the end. -/
def put {α : Type} (name : Text) (a : α) : Fields α → Fields α
  | [] => [(name, a)]
  | (k, b) :: rest => if k = name then (k, a) :: rest else (k, b) :: put name a rest

/-- The members that count among written ones: each name at its first place with its last value. -/
def ofPairs {α : Type} (pairs : List (Text × α)) : Fields α :=
  pairs.foldl (fun fs p => put p.1 p.2 fs) []

/-- The value under a name. -/
def get? {α : Type} (fs : Fields α) (name : Text) : Option α :=
  (fs.find? (·.1 = name)).map (·.2)

end Fields

namespace Json

/-- The value of a member; only an object has members. -/
def member? : Json → Text → Option Json
  | .object fields, name => Fields.get? fields name
  | _, _ => none

/-- A document that counts as true: not null, not false, not zero and not empty. -/
def isTruthy : Json → Bool
  | .null => false
  | .bool b => b
  | .int n => n ≠ 0
  | .float x => !x.isZero
  | .text s => s ≠ ""
  | .list items => !items.isEmpty
  | .object fields => !fields.isEmpty

end Json
end TraitIndex
