import TraitIndex.Json.Basic
import TraitIndex.Json.Quoted

/-! Writing JSON.

    `compact` writes a document without white space and leaves characters beyond ASCII as they are,
    `compactAscii` escapes those; `indented` gives every element and member a line of its own, two
    spaces deeper than what holds it, and writes ASCII only. -/

namespace TraitIndex.Json

/-- Texts with a separator between neighbours. -/
def separated (separator : List CodePoint) : List (List CodePoint) → List CodePoint
  | [] => []
  | [x] => x
  | x :: y :: rest => x ++ separator ++ separated separator (y :: rest)

/-- A number that is no finite one by its word. -/
def floatText : Binary64 → List CodePoint
  | .nan => ['N', 'a', 'N']
  | .infinite negative =>
    let word : List CodePoint := ['I', 'n', 'f', 'i', 'n', 'i', 't', 'y']
    if negative then '-' :: word else word
  | x => x.toText

/-- A document that holds no other. -/
def scalarText (quote : List CodePoint → List CodePoint) : Json → List CodePoint
  | .null => ['n', 'u', 'l', 'l']
  | .bool true => ['t', 'r', 'u', 'e']
  | .bool false => ['f', 'a', 'l', 's', 'e']
  | .int n => (toString n : Text).toList
  | .float x => floatText x
  | .text s => quote s.toList
  | .list _ => ['[', ']']
  | .object _ => ['{', '}']

mutual

/-- A document without white space, its texts quoted in a given way. -/
def compactWith (quote : List CodePoint → List CodePoint) : Json → List CodePoint
  | .list items =>
    .char '[' :: separated [','] (compactItems quote items) ++ [.char ']']
  | .object fields =>
    .char '{' :: separated [','] (compactFields quote fields) ++ [.char '}']
  | x => scalarText quote x

/-- The elements of a list, one by one. -/
def compactItems (quote : List CodePoint → List CodePoint) : List Json → List (List CodePoint)
  | [] => []
  | x :: rest => compactWith quote x :: compactItems quote rest

/-- The members of an object, one by one. -/
def compactFields (quote : List CodePoint → List CodePoint) :
    List (Text × Json) → List (List CodePoint)
  | [] => []
  | (name, x) :: rest =>
    (quote name.toList ++ .char ':' :: compactWith quote x) :: compactFields quote rest

end

/-- The start of a line at a depth. -/
def newLine (depth : Nat) : List CodePoint := '\n' :: List.replicate (2 * depth) (.char ' ')

/-- Lines between two brackets, which stand alone if there is no line. -/
def block (opening closing : CodePoint) (depth : Nat) (lines : List (List CodePoint)) :
    List CodePoint :=
  if lines.isEmpty then [opening, closing]
  else opening :: newLine (depth + 1) ++ separated (',' :: newLine (depth + 1)) lines ++
    newLine depth ++ [closing]

mutual

/-- A document at a depth, on lines of its own. -/
def indentedAt (depth : Nat) : Json → List CodePoint
  | .list items => block '[' ']' depth (indentedItems (depth + 1) items)
  | .object fields => block '{' '}' depth (indentedFields (depth + 1) fields)
  | x => scalarText escapedAscii x

/-- The elements of a list at their depth. -/
def indentedItems (depth : Nat) : List Json → List (List CodePoint)
  | [] => []
  | x :: rest => indentedAt depth x :: indentedItems depth rest

/-- The members of an object at their depth. -/
def indentedFields (depth : Nat) : List (Text × Json) → List (List CodePoint)
  | [] => []
  | (name, x) :: rest =>
    (escapedAscii name.toList ++ .char ':' :: .char ' ' :: indentedAt depth x) ::
      indentedFields depth rest

end

/-- A document on lines of its own, in ASCII. -/
def indented (x : Json) : Text := Text.ofList (indentedAt 0 x)

/-- A document on one line, characters beyond ASCII as they are. -/
def compact (x : Json) : Text := Text.ofList (compactWith escaped x)

/-- A document on one line, in ASCII. -/
def compactAscii (x : Json) : Text := Text.ofList (compactWith escapedAscii x)

end TraitIndex.Json
