import TraitIndex.Fault
import TraitIndex.Files.Name
import TraitIndex.Files.Path

/-! Trees of files.

    A tree is a file with its bytes or a directory of named trees. A directory holds one thing under
    a name, the last that was put there. `files` lists every file with the names that lead to it. -/

namespace TraitIndex

/-- A file or a directory. -/
inductive Tree where
  | file (bytes : ByteArray)
  | directory (entries : List (Text × Tree))

namespace Tree

instance : Inhabited Tree := ⟨.directory []⟩

/-- What a directory holds under a name. -/
def lookup (entries : List (Text × Tree)) (name : Text) : Option Tree :=
  (entries.find? fun entry => FileName.same entry.1 name).map (·.2)

/-- The directory with something in it under a name. -/
def put (entries : List (Text × Tree)) (name : Text) (t : Tree) : List (Text × Tree) :=
  match entries with
  | [] => [(name, t)]
  | (k, old) :: rest =>
    if FileName.same k name then (k, t) :: rest else (k, old) :: put rest name t

/-- The tree with something added at the end of a way; missing directories are made. -/
def place (content : Tree) : List Text → Tree → Tree
  | [], _ => content
  | name :: rest, .directory entries =>
    .directory (put entries name (place content rest ((lookup entries name).getD default)))
  | name :: rest, .file _ => .directory [(name, place content rest default)]

mutual

/-- The ways to all files. -/
def files : Tree → List (List Text)
  | .file _ => [[]]
  | .directory entries => filesOf entries

/-- The ways to all files of a directory. -/
def filesOf : List (Text × Tree) → List (List Text)
  | [] => []
  | (name, t) :: rest => (files t).map (name :: ·) ++ filesOf rest

end

end Tree
end TraitIndex
