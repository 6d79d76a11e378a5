import TraitIndex.Text.LowerCase
import TraitIndex.Text.Split
import TraitIndex.Text.Start

/-! Paths.

    A path is an anchor, empty for a relative path, and the names on the way. Repeated slashes and
    names `.` do not count when a path is read, `..` does. From its place below a directory
    `implementors` the path of a fragment tells the trait: the names of the directories after the
    last such directory, then the file name without `trait.` before it and `.js` after it. -/

namespace TraitIndex

/-- A path by its names. -/
structure Path where
  /-- Empty, `/` or `//`. -/
  anchor : Text := ""
  names : List Text := []
  deriving DecidableEq, Repr

namespace Path

/-- The anchor of a written path: two slashes stay two, any other number of them is one. -/
def anchorOf : List CodePoint → Text
  | '/' :: '/' :: '/' :: _ => "/"
  | '/' :: '/' :: _ => "//"
  | '/' :: _ => "/"
  | _ => ""

/-- A part of a written path that is a name. -/
def isName (part : List CodePoint) : Bool := part ≠ [] && part ≠ [.char '.']

/-- The path that a text denotes. -/
def ofText (s : Text) : Path :=
  { anchor := anchorOf s.toList
    names := ((Text.splitAt (· == .char '/') s.toList).filter isName).map Text.ofList }

/-- The path as text; a path without names is the current directory. -/
def toText (p : Path) : Text :=
  if p.anchor = "" ∧ p.names = [] then "." else p.anchor ++ .intercalate "/" p.names

/-- The path of something below the path. -/
def below (p : Path) (names : List Text) : Path := { p with names := p.names ++ names }

/-- The last name; empty if there is none. -/
def fileName (p : Path) : Text := p.names.getLast?.getD ""

/-- The last point of a file name and what follows it, unless the name starts or ends with it. -/
def suffix (p : Path) : List CodePoint :=
  let backward := p.fileName.toList.reverse
  match backward.takeWhile (· ≠ .char '.'), backward.dropWhile (· ≠ .char '.') with
  | c :: ext, '.' :: _ :: _ => '.' :: (c :: ext).reverse
  | _, _ => []

/-- The file name says that the file is JSON, in letters of either case. -/
def isJson (p : Path) : Bool := Text.lower p.suffix = (".json" : Text).toList

/-- A file name that ends like a fragment's. -/
def isFragmentName (name : Text) : Bool :=
  (Text.beforeEnd? (".js" : Text).toList name.toList).isSome

/-- The names after the last occurrence of one; none if it does not occur. -/
def afterLast (name : Text) (names : List Text) : List Text :=
  if name ∈ names then (names.reverse.takeWhile (· ≠ name)).reverse else []

/-- The name of the trait in the file name of its fragment. -/
def traitName (p : Path) : List CodePoint :=
  let name := p.fileName.toList
  let name := (Text.beforeEnd? (".js" : Text).toList name).getD name
  (Text.afterStart? ("trait." : Text).toList name).getD name

/-- The modules of the trait: the directories after the last one named `implementors`. -/
def modules (p : Path) : List Text := afterLast "implementors" p.names.dropLast

/-- The trait whose fragment the path leads to; none if nothing is left of the file name. -/
def trait? (p : Path) : Option Text :=
  if p.traitName = [] then none
  else some (.intercalate "::" (p.modules ++ [Text.ofList p.traitName]))

/-- Paths in the order of their names, one by one from the first on. -/
def inOrder : List Text → List Text → Bool
  | [], _ => true
  | _ :: _, [] => false
  | a :: as, b :: bs => if a = b then inOrder as bs else decide (a < b)

end Path
end TraitIndex
