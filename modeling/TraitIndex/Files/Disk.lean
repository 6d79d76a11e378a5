import TraitIndex.Files.Tree

/-! The disk.

    A disk is the tree of all files and the directory that relative paths start from. `walk` follows
    names through the tree, `..` leading back to the directory above; above the root is the root.
    A path has a greatest length, and so has a name that is come to on the way.
    Texts are UTF-8, and a line may end in a carriage return with or without a line feed. -/

namespace TraitIndex

/-- All files, and where relative paths start. -/
structure Disk where
  root : Tree := default
  /-- The names that lead to the current directory. -/
  current : List Text := []
  deriving Inhabited

namespace Disk

/-- The most bytes of a name. -/
def nameLimit : Nat := 255

/-- The most bytes of a path. -/
def pathLimit : Nat := 4095

/-- What names lead to from a place below some directories, the nearest first. -/
def walk : (above : List Tree) → (here : Tree) → List Text → Except Fault Tree
  | _, here, [] => .ok here
  | _, .file _, _ :: _ => .error .notDirectory
  | above, .directory entries, name :: rest =>
    if name = ".." then
      match above with
      | [] => walk [] (.directory entries) rest
      | t :: above => walk above t rest
    else if nameLimit < (FileName.bytes name).length then .error .pathTooLong
    else
      match Tree.lookup entries name with
      | none => .error .missingFile
      | some t => walk (.directory entries :: above) t rest

/-- The names from the root on that a path stands for. -/
def wayOf (d : Disk) (p : Path) : List Text :=
  if p.anchor = "" then d.current ++ p.names else p.names

/-- What a path leads to. -/
def find (d : Disk) (p : Path) : Except Fault Tree :=
  if FileName.isWritable p.toText = false then .error .unwritableText
  else if pathLimit < (FileName.bytes p.toText).length then .error .pathTooLong
  else walk [] d.root (d.wayOf p)

/-- The path leads to a directory. -/
def isDirectory (d : Disk) (p : Path) : Bool :=
  match d.find p with
  | .ok (.directory _) => true
  | _ => false

/-- A text with line feeds as the only line ends. -/
def lineFeeds : List Char → List Char
  | [] => []
  | '\r' :: '\n' :: rest => '\n' :: lineFeeds rest
  | c :: rest => (if c = '\r' then '\n' else c) :: lineFeeds rest

/-- The text of the file that a path leads to. -/
def readText (d : Disk) (p : Path) : Except Fault String := do
  if FileName.isWritable p.toText = false then throw .unwritableText
  if p.names.any fun name => .char '\x00' ∈ name.toList then throw .nullInPath
  match ← d.find p with
  | .directory _ => .error .isDirectory
  | .file bytes =>
    match String.fromUTF8? bytes with
    | some s => return String.ofList (lineFeeds s.toList)
    | none => .error .invalidEncoding

/-- The ways to the places passed on following names from a place, that place first and each
    without `..`. -/
def passed (here : List Text) : List Text → List (List Text)
  | [] => [here]
  | name :: rest => here :: passed (if name = ".." then here.dropLast else here ++ [name]) rest

end Disk
end TraitIndex
