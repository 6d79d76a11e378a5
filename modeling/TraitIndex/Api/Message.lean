import TraitIndex.Json.Document
import TraitIndex.Text.UpperCase
import TraitIndex.Url.Basic
import TraitIndex.Value.Document

/-! Requests and responses.

    A request has a method, a path, query pairs, perhaps a body and perhaps the origin of the page
    that sent it. It may be sent behind a base address, or be drafted with a target that is an
    address itself or part of one. A response has a status and a body; a response to `HEAD` goes
    without its body, and where a request is not understood at all or a page for people is shown,
    the body is not laid down. Pages of a few origins may read responses, an internal error
    apart. -/

namespace TraitIndex.Api

/-- What a client sends. -/
structure Request where
  method : String
  path : String
  query : List (String × String) := []
  /-- Empty if there is no body. -/
  body : String := ""
  origin : Option String := none
  deriving DecidableEq, Repr

namespace Request

/-- The value of a query parameter: the last one under its name. -/
def parameter? (r : Request) (name : String) : Option String :=
  (r.query.reverse.find? (·.1 = name)).map (·.2)

/-- The address of the request's path behind a base; pairs of its own take the place of the query
    that the base may have. -/
def addressBehind (r : Request) (base : Url) : Url :=
  let u := base.extend { path := r.path.toList }
  if r.query.isEmpty then u else { u with query := none }

/-- The request sent to its path behind a base. -/
def behind (r : Request) (base : Url) : Request :=
  let u := r.addressBehind base
  { r with path := u.place, query := r.query ++ u.fields }

end Request

/-- What a request is to carry. -/
inductive Content where
  | text (s : String)
  | value (v : Value)
  deriving Repr

/-- The text that is carried. -/
def Content.sentText : Content → Except Fault String
  | .text s => .ok s
  | .value v => v.sentText

/-- A request as it is written down. -/
structure Draft where
  /-- In letters of either case. -/
  method : String
  /-- An address, or a reference inside the server. -/
  target : String
  /-- Pairs that take the place of the target's query. -/
  query : Option (List (String × String)) := none
  content : Content := .text ""
  origin : Option String := none

/-- The address of the server that drafts are sent to. -/
def serverUrl : Url := { scheme := "http".toList, host := "server".toList }

/-- The server is spoken to at an address by HTTP only; a place that has more than one colon has no
    port that can be read. -/
def spokenTo (u : Url) : Except Fault Unit :=
  if u.scheme ∉ ["http", "https", "ws", "wss"].map String.toList then .error .unknownScheme
  else if ':' ∈ u.host then .error .notInteger
  else if u.scheme ∉ ["http", "https"].map String.toList then .error .messagesWanted
  else .ok ()

/-- The request that is sent for a draft. -/
def Draft.request (d : Draft) : Except Fault Request := do
  let reference ← Url.ofString d.target
  let u := if reference.isAbsolute then reference else serverUrl.extend reference
  let body ← d.content.sentText
  let u ← u.sendable
  spokenTo u
  let query := d.query.getD u.fields
  return { method := Text.inCapitals d.method, path := u.place, query, body, origin := d.origin }

/-- What a response says. -/
inductive Body where
  | document (j : Json)
  | internalError
  /-- There was an answer, but it cannot be sent; this is told like an internal error. -/
  | unsendable
  /-- The request does not fit its endpoint; how that is told is not laid down. -/
  | unprocessable
  /-- A page for people, which is not laid down. -/
  | page
  /-- The body is left out. -/
  | omitted
  deriving Repr

/-- What the server answers. -/
structure Response where
  status : Nat
  body : Body
  deriving Repr

namespace Response

/-- An answer with a document, which can only be given if the document can be sent. -/
def giving (status : Nat) (j : Json) : Response :=
  if j.compact.isWhole then ⟨status, .document j⟩ else ⟨500, .unsendable⟩

/-- Success with a document. -/
def success (j : Json) : Response := giving 200 j

/-- A refusal with its reason. -/
def refused (status : Nat) (detail : Text) : Response :=
  giving status (.object [("detail", .text detail)])

/-- A refusal for a fault. -/
def refusedFor (status : Nat) (f : Fault) : Response := refused status f.shown

/-- The request does not fit its endpoint. -/
def unprocessable : Response := ⟨422, .unprocessable⟩

/-- A page for people. -/
def page : Response := ⟨200, .page⟩

/-- The response to a request of a method. -/
def forMethod (r : Response) (method : String) : Response :=
  if method = "HEAD" then { r with body := .omitted } else r

/-- The server failed. -/
def internalError : Response := ⟨500, .internalError⟩

/-- The text of the body, where it is laid down. -/
def text? (r : Response) : Option String :=
  match r.body with
  | .document j => j.compact.string?
  | .internalError | .unsendable => some "Internal Server Error"
  | .omitted => some ""
  | .unprocessable | .page => none

/-- The origins whose pages may read responses. -/
def allowedOrigins : List String := ["http://localhost:5173", "http://127.0.0.1:5173"]

/-- The origin that a response names as allowed. -/
def allowOrigin (r : Response) (origin : String) : Option String :=
  match r.body with
  | .internalError | .unsendable => none
  | _ => if origin ∈ allowedOrigins then some origin else none

end Response
end TraitIndex.Api
