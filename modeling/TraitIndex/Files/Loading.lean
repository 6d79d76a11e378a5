import TraitIndex.Files.Disk
import TraitIndex.Fragment

/-! Loading batches from files.

    A file is a fragment of one trait or, by its name, a JSON batch; a directory stands for all
    fragments in it and below it, in the order of their paths. A fragment in a directory that is no
    UTF-8 text is skipped with a notice; every other fault ends the loading. -/

namespace TraitIndex.Loading

/-- The trait of a fragment by its path. -/
def traitOf (p : Path) (spelled : Text) : Except Fault Text :=
  match p.trait? with
  | some trait => .ok trait
  | none => .error (.unnamedTrait spelled)

/-- The fragment that a path leads to, of the trait given or else the one that its path tells. -/
def fragment (d : Disk) (p : Path) (trait : Option Value) : Outcome Batch := do
  let source ← Outcome.ofExcept (d.readText p)
  let trait ← Outcome.ofExcept (match trait with
    | some v => Intake.text v
    | none => traitOf p p.toText)
  Fragment.parse source trait

/-- The paths of all fragments below a directory, in order. -/
def fragmentPaths (d : Disk) (p : Path) : Except Fault (List Path) :=
  match d.find p with
  | .ok (.directory entries) =>
    let ways := (Tree.filesOf entries).filter fun way => way.getLast?.any Path.isFragmentName
    .ok ((ways.mergeSort Path.inOrder).map p.below)
  | .error .pathTooLong => .error .pathTooLong
  | _ => .error .missingFile

/-- The JSON batch that a path leads to. -/
def jsonBatch (d : Disk) (p : Path) : Outcome Batch := do
  let source ← Outcome.ofExcept (d.readText p)
  let document ← Outcome.ofExcept (Json.parse {} (source : Text).toList)
  Intake.batch (Value.ofJson document)

/-- Fragments one after another, the ones that are no text left out. -/
def fragments (d : Disk) : List Path → Outcome (List Batch)
  | [] => return []
  | p :: rest =>
    let first := fragment d p none
    match first.result with
    | .error .invalidEncoding => do
      Outcome.note (first.notices ++ [.fragmentSkipped p.toText .invalidEncoding])
      fragments d rest
    | _ => do
      let batch ← first
      let more ← fragments d rest
      return batch :: more

/-- The batches of whatever a path leads to. -/
def batches (d : Disk) (p : Path) : Outcome (List Batch) :=
  if d.isDirectory p then do
    let paths ← Outcome.ofExcept (fragmentPaths d p)
    fragments d paths
  else if p.isJson then do
    let batch ← jsonBatch d p
    return [batch]
  else do
    let batch ← fragment d p none
    return [batch]

end TraitIndex.Loading
