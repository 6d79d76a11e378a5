import TraitIndex.Json.Document
import TraitIndex.Page
import TraitIndex.Text.Blank
import TraitIndex.Url.Basic

/-! Attaching to a server or starting one.

    A page is served at an address. Before a server is started, the addresses where one may run
    already are asked whether they are well: the one in the environment first, then the one that
    was asked for. The first that is well is used; if none is, a new server starts on the page that
    was given, or on a new one. An address is asked in its normal form and given out as it was
    written. -/

namespace TraitIndex.Server

/-- The text holds another. -/
def holds (part : List Char) : List Char → Bool
  | [] => part = []
  | c :: rest => part.isPrefixOf (c :: rest) || holds part rest

/-- A base address as it may be given: `http` is taken for granted and slashes at the end do not
    count. -/
def normalize (url : String) : String :=
  let url := Text.trimString url
  if url = "" then ""
  else Text.trimSlashes (if holds "://".toList url.toList then url else "http://" ++ url)

/-- The text that stands for a value that was left out. -/
def leftOut : String := "[]"

/-- A port, or whichever the system finds free; the number of that is not known here, and
    `<port>` stands for it. -/
inductive Port where
  | fixed (n : Int)
  | free
  /-- The port was left out. -/
  | none
  deriving DecidableEq, Repr

/-- The port that an option asks for. -/
def Port.ofOption : Option Int → Port
  | some 0 => .free
  | some n => .fixed n
  | Option.none => .none

/-- The port in an address. -/
def Port.text : Port → String
  | .fixed n => toString n
  | .free => "<port>"
  | .none => leftOut

/-- How to run. -/
structure Options where
  /-- Perhaps left out. -/
  host : Option String := some "127.0.0.1"
  /-- Perhaps left out; zero asks for a free port. -/
  port : Option Int := some 0
  openBrowser : Bool := false
  logLevel : String := "info"
  accessLog : Bool := false
  /-- Start a server even if one is running. -/
  newServer : Bool := false
  deriving DecidableEq, Repr

/-- What an address answers when it is asked whether it is well. -/
structure Health where
  status : Nat
  body : ByteArray

/-- A server that was started. -/
structure Started where
  host : Option String
  port : Port
  logLevel : String
  accessLog : Bool
  deriving DecidableEq, Repr

/-- The address of a started server. -/
def Started.url (s : Started) : String :=
  "http://" ++ s.host.getD leftOut ++ ":" ++ s.port.text ++ "/"

/-- What running came to; a server that was started serves a page. -/
inductive Running (κ : Type) where
  | attached (url : String)
  | started (s : Started) (page : Page κ)
  deriving DecidableEq

/-- What running came to, with the addresses that were asked and those opened in the browser. -/
structure Report (κ : Type) where
  running : Running κ
  asked : List String
  opened : List String
  deriving DecidableEq

/-- The address that tells whether a server is well. -/
def healthUrl (base : String) : Except Fault Url := do
  ((← Url.ofString base).extend { path := "/healthz".toList }).sendable

/-- An answer comes from a server that is well. An answer that is no document counts as no; one
    that is a document but no object is a fault. -/
def isWell : Option Health → Except Fault Bool
  | none => .ok false
  | some h =>
    if h.status ≠ 200 then .ok false
    else
      match Json.parseSent h.body with
      | .ok (.object fields) => .ok ((Fields.get? fields "ok").any Json.isTruthy)
      | .ok _ => .error .noSuchOperation
      | .error _ => .ok false

/-- The first of some addresses that is well, with the addresses asked on the way. What cannot be
    asked is passed over, and what is not legible is asked in vain. -/
def firstWell (ask : String → Option Health) :
    List String → Except Fault (Option String × List String)
  | [] => .ok (none, [])
  | base :: rest =>
    match healthUrl base with
    | .error why => if why.isValueFault then firstWell ask rest else .error why
    | .ok url => do
      let answer := if url.isLegible then ask url.toText else none
      if ← isWell answer then return (some base, [url.toText])
      else
        let (found, asked) ← firstWell ask rest
        return (found, url.toText :: asked)

/-- The addresses where a server may run already. -/
def candidates (o : Options) (environment : Option String) : List String :=
  if o.newServer then []
  else
    let given := normalize (environment.getD "")
    let port := Port.ofOption o.port
    let own := normalize ("http://" ++ o.host.getD leftOut ++ ":" ++ port.text)
    (if given = "" then [] else [given]) ++ (if port = .free then [] else [own])

/-- The server that would be started. -/
def start (o : Options) : Started :=
  { host := o.host
    port := .ofOption o.port
    logLevel := o.logLevel
    accessLog := o.accessLog }

/-- A server is started. `bind` is what comes of asking the system for a free port at a host. -/
def launch (bind : Option String → Except Fault Unit) (o : Options) : Except Fault Started := do
  if Port.ofOption o.port = .free then bind o.host
  return start o

/-- Attach to a server that is well or start one; `ask` is what an address answers, nothing if it
    refuses. -/
def run {κ : Type} (o : Options) (environment : Option String) (page : Option (Page κ))
    (ask : String → Option Health) (bind : Option String → Except Fault Unit) :
    Except Fault (Report κ) := do
  let (found, asked) ← firstWell ask (candidates o environment)
  let running ← match found with
    | some base => .ok (.attached base)
    | none => (launch bind o).map fun s => .started s (page.getD {})
  let opened := match running with
    | .attached base => base ++ "/"
    | .started s _ => s.url
  return { running, asked, opened := if o.openBrowser then [opened] else [] }

/-- The base address that a client is given. -/
def clientUrl (url : String) : String := Text.trimSlashes url

end TraitIndex.Server
