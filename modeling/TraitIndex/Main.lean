import TraitIndex.CommandLine

/-! The program on a machine.

    `CommandLine.run` decides everything on a disk that is at hand; here that disk is read, as far
    as the paths of the command line reach, and what has been decided is written out. A page that is
    to be served is announced by its URL; no port is taken for it. -/

namespace TraitIndex.Host

/-- What is at a place on the machine. Of a directory everything below is listed, but only the
    fragments are read; a link to a directory is left out. -/
partial def treeAt (place : String) : IO (Option Tree) := do
  let place := (← IO.currentDir) / place
  if ← place.isDir then
    let mut entries := []
    for e in ← place.readDir do
      let isDirectory := (← e.path.symlinkMetadata).type == .dir
      if isDirectory || (Path.isFragmentName e.fileName && !(← e.path.isDir)) then
        if let some t ← treeAt e.path.toString then
          entries := ((e.fileName : Text), t) :: entries
    return some (.directory entries.reverse)
  else
    try
      return some (.file (← IO.FS.readBinFile place))
    catch _ => return none

/-- A text as it is written out; half of a pair is shown as a replacement character. -/
def shown (t : Text) : String :=
  String.ofList (t.toList.map fun c => c.char?.getD '\ufffd')

/-- The place at the end of a way from the root. -/
def placeOf (way : List Text) : String := "/" ++ "/".intercalate (way.map shown)

/-- The disk with what is at the end of a way, if there is anything. -/
def add (disk : Disk) (way : List Text) : IO Disk := do
  match ← treeAt (placeOf way) with
  | some t => return { disk with root := Tree.place t way disk.root }
  | none => return disk

/-- The disk with what is passed on a way, as far as it is not there; nothing below it is read. -/
def pass (disk : Disk) (way : List Text) : IO Disk := do
  match disk.find { anchor := "/", names := way } with
  | .ok _ => return disk
  | .error _ =>
    let place := (← IO.currentDir) / placeOf way
    let isThere ← place.pathExists
    let shallow : Tree := if ← place.isDir then default else .file .empty
    return if isThere then { disk with root := Tree.place shallow way disk.root } else disk

/-- The disk as far as paths reach. What is at the end of a short way is put there before what is
    at the end of a longer one, so that nothing is lost. -/
def diskFor (paths : List Path) : IO Disk := do
  let disk : Disk := { current := (Path.ofText (← IO.currentDir).toString).names }
  let ways := paths.map fun p => Disk.passed [] (disk.wayOf p)
  let ends := (ways.filterMap List.getLast?).mergeSort fun a b => decide (a.length ≤ b.length)
  let disk ← ends.foldlM add disk
  ways.flatten.foldlM pass disk

/-- The end of a run is written out. -/
def conclude (e : CommandLine.Ending) : IO UInt32 := do
  IO.print (shown e.output)
  return e.code.toUInt32

end TraitIndex.Host

open TraitIndex in
/-- The program. -/
def main (arguments : List String) : IO UInt32 := do
  let environment ← IO.getEnv "IMPLINDEX_LOG_LEVEL"
  let paths := match CommandLine.parse arguments environment with
    | .ok o => o.paths.getD []
    | .error _ => []
  let disk ← Host.diskFor (paths.map fun (path : String) => Path.ofText path)
  let outcome := CommandLine.run disk environment false (fun _ => .ok ()) arguments
  for n in outcome.notices do
    IO.eprintln (Host.shown (n.severity.name ++ ": " ++ n.message))
  match outcome.result with
  | .ok (.ok e) => Host.conclude e
  | .ok (.error .help) =>
    IO.println CommandLine.usage
    return 0
  | .ok (.error .usage) =>
    IO.eprintln CommandLine.usage
    return 2
  | .error why =>
    IO.eprintln (Host.shown why.shown)
    return 1
