import TraitIndex.Files.Loading
import TraitIndex.Json.Writer
import TraitIndex.Page
import TraitIndex.Server
import TraitIndex.Text.UpperCase

/-! The command line.

    Arguments are options, which may be shortened as long as no other option starts alike, and
    paths, which stand together; `--` ends the options. What lies at the paths is contributed to a
    page in the order given. The page is then written as JSON, or served. The level of the log is
    set at first, unless lines of the log are dealt with already. -/

namespace TraitIndex.CommandLine

/-- The options. -/
inductive Flag where
  | help
  | host
  | port
  | noBrowser
  | dump
  | logLevel
  deriving DecidableEq, Repr

/-- The option needs a value. -/
def Flag.needsValue : Flag → Bool
  | .host | .port | .logLevel => true
  | _ => false

/-- The long names of the options. -/
def longNames : List (String × Flag) := [("--help", .help), ("--host", .host), ("--port", .port),
  ("--no-browser", .noBrowser), ("--dump", .dump), ("--log-level", .logLevel)]

/-- What arguments there are. -/
def usage : String :=
  "usage: implindex [-h] [--host HOST] [--port PORT] [--no-browser] [--dump] " ++
    "[--log-level LOG_LEVEL] [paths ...]"

/-- Why the arguments say nothing to do: they are wrong, or they ask for help. -/
inductive Refusal where
  | usage
  | help
  deriving DecidableEq, Repr

/-- One argument by its form. -/
inductive Token where
  /-- An option, perhaps with a value after an equals sign. -/
  | flag (f : Flag) (value : Option String)
  | unknown
  /-- The argument that ends the options. -/
  | terminator
  | plain (s : String)
  deriving DecidableEq, Repr

/-- The options whose long names start with a text. -/
def startingWith (s : List Char) : List Flag :=
  (longNames.filter fun p => s.isPrefixOf p.1.toList).map (·.2)

/-- A negative number: digits, or a point with digits after it. One line feed at the end does not
    count. -/
def isNegativeNumber (s : List Char) : Bool :=
  match (Text.beforeEnd? ['\n'] s).getD s with
  | '-' :: rest =>
    let isDigit (c : Char) : Bool := (Text.digitValue? c).isSome
    match rest.dropWhile isDigit with
    | [] => !rest.isEmpty
    | '.' :: places => !places.isEmpty && places.all isDigit
    | _ => false
  | _ => false

/-- What follows the short option `-h` in its argument: the option over again, perhaps after an
    equals sign, or a value that it does not take. -/
def helpToken (rest : List Char) : Token :=
  let isRepeated := match rest with
    | '=' :: again => !again.isEmpty && again.all (· == 'h')
    | again => again.all (· == 'h')
  .flag .help (if isRepeated then none else some (String.ofList rest))

/-- The form of an argument before the options end; a shortened name must not be ambiguous. -/
def token (s : String) : Except Refusal Token :=
  let cs := s.toList
  match cs with
  | '-' :: '-' :: [] => .ok .terminator
  | '-' :: '-' :: _ =>
    let (name, value) := Text.cutAt '=' cs
    let value := value.map String.ofList
    match longNames.find? (·.1.toList = name) with
    | some (_, f) => .ok (.flag f value)
    | none =>
      match startingWith name with
      | [f] => .ok (.flag f value)
      | _ :: _ => .error .usage
      | [] => .ok (if ' ' ∈ cs then .plain s else .unknown)
  | '-' :: 'h' :: rest => .ok (helpToken rest)
  | '-' :: _ :: _ => .ok (if isNegativeNumber cs || ' ' ∈ cs then .plain s else .unknown)
  | _ => .ok (.plain s)

/-- The forms of all arguments; after the terminator every argument is plain. -/
def tokens : List String → Except Refusal (List Token)
  | [] => .ok []
  | s :: rest => do
    match ← token s with
    | .terminator => return .terminator :: rest.map Token.plain
    | t => return t :: (← tokens rest)

/-- What the arguments ask for; a value may be left out. -/
structure Options where
  /-- The paths, once they have been met. -/
  paths : Option (List String) := none
  host : Option String := some "127.0.0.1"
  port : Option Int := some 8000
  noBrowser : Bool := false
  dump : Bool := false
  logLevel : Option String := some "warning"
  deriving DecidableEq, Repr

/-- The value in an argument behind its option; the word that ends the options leaves it out. -/
def givenValue (s : String) : Option String := if s = "--" then none else some s

/-- An option is set. -/
def Options.set (o : Options) (f : Flag) (value : Option String) : Except Refusal Options :=
  match f with
  | .help => .error .help
  | .host => .ok { o with host := value }
  | .port =>
    match value with
    | none => .ok { o with port := none }
    | some s =>
      match Integer.read? (s : Text).toList with
      | some n => .ok { o with port := some n }
      | none => .error .usage
  | .noBrowser => .ok { o with noBrowser := true }
  | .dump => .ok { o with dump := true }
  | .logLevel => .ok { o with logLevel := value }

/-- The argument is part of a group of paths. -/
def isPathToken : Token → Bool
  | .plain _ | .terminator => true
  | _ => false

/-- The text of a plain argument. -/
def plainText? : Token → Option String
  | .plain s => some s
  | _ => none

/-- Options and paths are read one after another; a second group of paths is wrong, as is an
    unknown option, once all that comes before them has been read. -/
def readTokens (o : Options) (sound : Bool) : List Token → Except Refusal Options
  | [] => if sound then .ok o else .error .usage
  | .unknown :: rest => readTokens o false rest
  | .flag f value :: rest =>
    if f.needsValue then
      match value, rest with
      | some v, rest => do readTokens (← o.set f (givenValue v)) sound rest
      | none, .plain v :: rest => do readTokens (← o.set f (some v)) sound rest
      | none, _ => .error .usage
    else
      match value with
      | some _ => .error .usage
      | none => do readTokens (← o.set f none) sound rest
  | t :: rest =>
    let group := (t :: rest).takeWhile isPathToken
    let after := rest.dropWhile isPathToken
    match o.paths with
    | none => readTokens { o with paths := some (group.filterMap plainText?) } sound after
    | some _ => readTokens o false after
termination_by ts => ts.length
decreasing_by
  all_goals try (simp only [List.length_cons]; omega)
  all_goals
    have := (List.dropWhile_suffix isPathToken (l := rest)).length_le
    simp only [List.length_cons]
    omega

/-- What the arguments ask for, the level of the log being given by the environment unless they
    say otherwise. -/
def parse (arguments : List String) (environment : Option String) : Except Refusal Options := do
  readTokens { logLevel := some (environment.getD "warning") } true (← tokens arguments)

/-- What goes wrong when the level of the log is set. Its name in capitals is looked for among other
    things: one is a text that names no level, and one is no level by its kind. A name that is not
    there stands for a level of its own. -/
def levelFault? (name : String) : Option Fault :=
  let name := Text.inCapitals name
  if name = "BASIC_FORMAT" then some .unknownLevel
  else if name = "_STYLES" then some .wrongKind
  else none

/-- The level of the log is set, unless the log is configured. -/
def Options.setLevel (o : Options) (configured : Bool) : Except Fault Unit :=
  match levelFault? (o.logLevel.getD Server.leftOut) with
  | some why => if configured then .ok () else .error why
  | none => .ok ()

/-- How a run of the program ends. -/
structure Ending where
  code : Nat
  output : Text := ""
  opened : List String := []
  served : Option Server.Started := none
  deriving DecidableEq, Repr

/-- The batches of all paths contributed to a page, or the code to end with when one cannot be
    loaded. -/
def contributeAll (disk : Disk) (page : Page Empty) :
    List String → Outcome (Except Nat (Page Empty))
  | [] => return .ok page
  | path :: rest =>
    let loaded := Loading.batches disk (Path.ofText path)
    match loaded.result with
    | .error why =>
      if why.isValueFault || why.isFileFault then do
        Outcome.note (loaded.notices ++ [.couldNotLoad path why])
        return .error 1
      else ⟨.error why, loaded.notices⟩
    | .ok batches => do
      Outcome.note loaded.notices
      contributeAll disk (batches.foldl (fun p b => (p.accept b).1) page) rest

/-- What is done once the page is filled. -/
def conclude (bind : Option String → Except Fault Unit) (o : Options) (page : Page Empty) :
    Except Fault Ending :=
  if o.dump then return { code := 0, output := page.table.toJson.indented ++ "\n" }
  else do
    let served ← Server.launch bind {
      host := o.host
      port := o.port
      logLevel := String.ofList (Text.lowerWords (o.logLevel.getD Server.leftOut).toList) }
    return {
      code := 0
      output := served.url ++ "\n"
      opened := if o.noBrowser then [] else [served.url]
      served := some served }

/-- The program: what the arguments come to on a disk. `environment` is the level of the log that is
    given there, `configured` says that lines of the log are dealt with already, and `bind` is what
    comes of asking the system for a free port at a host. -/
def run (disk : Disk) (environment : Option String) (configured : Bool)
    (bind : Option String → Except Fault Unit) (arguments : List String) :
    Outcome (Except Refusal Ending) :=
  match parse arguments environment with
  | .error why => return .error why
  | .ok o => do
    Outcome.ofExcept (o.setLevel configured)
    match ← contributeAll disk {} (o.paths.getD []) with
    | .error code => return .ok { code }
    | .ok page => return .ok (← Outcome.ofExcept (conclude bind o page))

end TraitIndex.CommandLine
