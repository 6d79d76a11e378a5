import TraitIndex.Fault
import TraitIndex.Number.Integer
import TraitIndex.Url.Host

/-! Addresses.

    An address has up to seven parts, of which a reference inside a server has only the last three.
    `ofString` brings the parts to one form, so that equal addresses have equal texts: scheme and
    host in lower case, no port that the scheme implies, no steps `.` and `..` in the path, and
    every character that is not plain ASCII percent-encoded. `extend` puts a reference behind a
    base, and `isLegible` tells of which addresses the answers are taken. -/

namespace TraitIndex

/-- An address by its parts. -/
structure Url where
  scheme : List Char := []
  userInfo : List Char := []
  host : List Char := []
  port : Option Int := none
  path : List Char := []
  query : Option (List Char) := none
  fragment : Option (List Char) := none
  deriving DecidableEq, Repr

namespace Url

/-! ### Safe characters -/

/-- ASCII that shows. -/
def isVisible (c : Char) : Bool := '!' ≤ c && c ≤ '~'

/-- A character that stands for itself in a fragment. -/
def isFragmentSafe (c : Char) : Bool := isVisible c && c ∉ ['"', '<', '>', '\x60']

/-- A character that stands for itself in a query. -/
def isQuerySafe (c : Char) : Bool := isVisible c && c ∉ ['"', '#', '<', '>']

/-- A character that stands for itself in a path. -/
def isPathSafe (c : Char) : Bool := isQuerySafe c && c ∉ ['?', '\x60', '{', '}']

/-- A character that stands for itself in the user's part. -/
def isUserInfoSafe (c : Char) : Bool :=
  isPathSafe c && c ∉ ['/', ';', '=', '@', '[', '\\', ']', '^', '|']

/-! ### Reading -/

/-- A character of a scheme. -/
def isSchemeChar (c : Char) : Bool := c.isAlphanum || c ∈ ['+', '-', '.']

/-- The scheme, which may be empty, before a colon, and what follows it. -/
def cutScheme (s : List Char) : List Char × List Char :=
  let word := s.takeWhile isSchemeChar
  match s.dropWhile isSchemeChar with
  | ':' :: rest => if word.head?.all Char.isAlpha then (word, rest) else ([], s)
  | _ => ([], s)

/-- What stands between two slashes and the path, and the path. -/
def cutAuthority (s : List Char) : List Char × List Char :=
  match s with
  | '/' :: '/' :: rest => (rest.takeWhile (· ≠ '/'), rest.dropWhile (· ≠ '/'))
  | _ => ([], s)

/-- A host and what follows it; a host in brackets ends with the last bracket, any other before a
    colon. -/
def cutHost (s : List Char) : List Char × List Char :=
  match s, Text.cutAtLast ']' s with
  | '[' :: _, (some front, rest) => (front ++ [']'], rest)
  | _, _ => (s.takeWhile (· ≠ ':'), s.dropWhile (· ≠ ':'))

/-- The port that a scheme implies. -/
def impliedPort? (scheme : List Char) : Option Int :=
  (([("ftp", 21), ("http", 80), ("https", 443), ("ws", 80), ("wss", 443)] :
    List (String × Int)).find? (·.1.toList = scheme)).map (·.2)

/-- A port, unless it is empty or implied. -/
def readPort (scheme s : List Char) : Except Fault (Option Int) :=
  let digits := if s.head? = some ':' then s.drop 1 else s
  if digits = [] then .ok none
  else
    match Integer.read? (digits.map .char) with
    | none => .error .invalidAddress
    | some n => .ok (if impliedPort? scheme = some n then none else some n)

/-- One more step of a path, the latest step standing first; a step back takes the latest away,
    but not the empty one before the first slash. -/
def walk (steps : List (List Char)) (step : List Char) : List (List Char) :=
  if step = ['.'] then steps
  else if step = ['.', '.'] then if steps = [[]] then steps else steps.tail
  else step :: steps

/-- A path without steps `.` and `..`. -/
def straight (path : List Char) : List Char :=
  ['/'].intercalate ((Text.splitAt (· == '/') path).foldl walk []).reverse

/-- The address names a place on the network. -/
def hasAuthority (u : Url) : Bool := u.userInfo ≠ [] || u.host ≠ [] || u.port.isSome

/-- The address names a server by scheme and host, so it needs no base. -/
def isAbsolute (u : Url) : Bool := u.scheme ≠ [] && u.host ≠ []

/-- The address with another path; inside a server alone its steps are left as they are. -/
def withPath (u : Url) (path : List Char) : Url :=
  let path := if u.scheme ≠ [] || u.hasAuthority then straight path else path
  { u with path := Percent.encode isPathSafe path }

/-- A character that no address has. -/
def isControl (c : Char) : Bool := c < ' ' || c == '\x7f'

/-- The most characters of an address. -/
def lengthLimit : Nat := 65536

/-- The address that a text denotes. -/
def ofString (text : String) : Except Fault Url := do
  let s := text.toList
  if s.any isControl || lengthLimit < s.length then throw .invalidAddress
  let (s, fragment) := Text.cutAt '#' s
  let (s, query) := Text.cutAt '?' s
  let (scheme, s) := cutScheme s
  let (authority, path) := cutAuthority s
  let (userInfo, place) := Text.cutAtLast '@' authority
  let (host, port) := cutHost place
  let scheme := scheme.map Char.toLower
  let some host := hostOf? host | throw .invalidAddress
  let port ← readPort scheme port
  let u : Url := {
    scheme, host, port
    userInfo := Percent.encode isUserInfoSafe (userInfo.getD [])
    query := query.map (Percent.encode isQuerySafe)
    fragment := fragment.map (Percent.encode isFragmentSafe) }
  if scheme = [] && !u.hasAuthority && (path.head? = some ':' || path.take 2 = ['/', '/']) then
    throw .invalidAddress
  return u.withPath path

/-! ### Writing and extending -/

/-- Path and query as they are asked for; an empty path is the root. -/
def route (u : Url) : List Char :=
  (if u.path = [] then ['/'] else u.path) ++ (u.query.map ('?' :: ·)).getD []

/-- The place on the network. -/
def authority (u : Url) : List Char :=
  (if u.userInfo = [] then [] else u.userInfo ++ ['@']) ++
    (if ':' ∈ u.host then '[' :: u.host ++ [']'] else u.host) ++
    (u.port.map fun n => ':' :: (toString n).toList).getD []

/-- The text of an address. -/
def toText (u : Url) : String :=
  String.ofList ((if u.scheme = [] then [] else u.scheme ++ [':']) ++
    (if u.hasAuthority then '/' :: '/' :: u.authority else []) ++ u.path ++
    (u.query.map ('?' :: ·)).getD [] ++ (u.fragment.map ('#' :: ·)).getD [])

/-- The address, if a request can be sent to it: its host is then ASCII, which the name of a network
    in a host need not be. -/
def sendable (u : Url) : Except Fault Url :=
  if u.host.all fun c => c.toNat < 0x80 then .ok u else .error .unwritableHost

/-- The text of the address can be read again as an address: something stands before its first colon
    or slash, which is a colon, and its authority has brackets of both kinds or of none. -/
def isLegible (u : Url) : Bool :=
  let isEnd (c : Char) : Bool := c = ':' || c = '/'
  let text := u.toText.toList
  let (_, place) := cutScheme (text.takeWhile fun c => c ≠ '?' && c ≠ '#')
  let (authority, _) := cutAuthority place
  !text.head?.all isEnd && text.find? isEnd = some ':' && authority.elem '[' = authority.elem ']'

example : isLegible { scheme := "http".toList, path := "/healthz".toList } = true := by decide

example : isLegible { host := "env.test".toList, path := "/healthz".toList } = false := by decide

/-- The address of something below a base. The reference goes behind whatever the base ends with,
    its query included, with one slash between them; the fragment is that of the base. -/
def extend (base reference : Url) : Url :=
  let front := base.route
  let front := if front.getLast? = some '/' then front else front ++ ['/']
  let (path, query) := Text.cutAt '?' (front ++ reference.route.dropWhile (· == '/'))
  { base with query }.withPath path

/-- The path as a server sees it, which decodes it twice. -/
def place (u : Url) : String :=
  String.ofList (Percent.decode (Percent.decode (if u.path = [] then ['/'] else u.path)))

/-- A name or a value in a query. -/
def decodeField (s : List Char) : String :=
  String.ofList (Percent.decode (s.map fun c => if c = '+' then ' ' else c))

/-- The fields of the query; a field without an equals sign has an empty value. -/
def fields (u : Url) : List (String × String) :=
  ((Text.splitAt (· == '&') (u.query.getD [])).filter (· ≠ [])).map fun field =>
    let (name, value) := Text.cutAt '=' field
    (decodeField name, decodeField (value.getD []))

end Url
end TraitIndex
