import TraitIndex.Api.Message
import TraitIndex.Feed
import TraitIndex.Fragment
import TraitIndex.Page
import TraitIndex.Query

/-! The endpoints of a page.

    The server shows one page and one feed, which becomes the page's consumer when deliveries are
    first asked for. `plan` says what a request comes to, from the page and the feed as they are:
    an answer, which changes nothing, or one operation on the page with the answer that follows it.
    The operation is not run here, because the consumer that it may call can do anything before it
    ends. -/

namespace TraitIndex.Api

/-- The endpoints. -/
inductive Route where
  | health
  | events
  | traits
  | implementors
  | batches
  | fragments
  | deliveries
  | reset
  /-- Pages that describe the endpoints. -/
  | description
  deriving DecidableEq, Repr

namespace Route

/-- The path of every endpoint. -/
def table : List (String × Route) := [
  ("/openapi.json", .description),
  ("/docs", .description),
  ("/docs/oauth2-redirect", .description),
  ("/redoc", .description),
  ("/healthz", .health),
  ("/api/events", .events),
  ("/api/traits", .traits),
  ("/api/implementors", .implementors),
  ("/api/batches", .batches),
  ("/api/fragments", .fragments),
  ("/api/deliveries", .deliveries),
  ("/api/reset", .reset)]

/-- The methods that an endpoint takes. -/
def methods : Route → List String
  | .batches | .fragments | .reset => ["POST"]
  | .description => ["GET", "HEAD"]
  | _ => ["GET"]

/-- The endpoint at a path, one line feed at the end of which does not count. -/
def exactly? (path : String) : Option Route :=
  (table.find? fun entry => path = entry.1 ∨ path = entry.1 ++ "\n").map (·.2)

/-- The endpoint at a path; slashes at the end of a path lead to the endpoint without them. -/
def at? (path : String) : Option Route := (exactly? path).or (exactly? (Text.trimSlashes path))

/-- The endpoint of a request, or the answer to a request that has none. -/
def find (r : Request) : Except Response Route :=
  match at? r.path with
  | none => .error (.refused 404 "Not Found")
  | some route =>
    if r.method ∈ route.methods then .ok route else .error (.refused 405 "Method Not Allowed")

end Route

/-- What a finished contribution is answered with. -/
inductive Receipt where
  /-- The batch that was contributed. -/
  | batch (b : Batch)
  /-- The trait whose fragment was contributed. -/
  | fragment (trait : Text) (b : Batch)
  deriving DecidableEq

/-- What a request comes to. -/
inductive Plan where
  /-- The answer is known and nothing changes. -/
  | answer (r : Response)
  /-- A batch is accepted by the page, then receipted. -/
  | contribute (b : Batch) (receipt : Receipt)
  /-- The feed attaches to the page, then tells what came after a number. -/
  | poll (since : Nat)
  /-- Page and feed start over. -/
  | reset

/-- The answer to a finished contribution at a revision of the page. -/
def Receipt.response (receipt : Receipt) (revision : Nat) : Response :=
  let revision : Text × Json := ("globalRevision", .int revision)
  match receipt with
  | .batch b =>
    .success (.object [("ok", .bool true), ("traits", .list (b.traits.map Json.text)), revision])
  | .fragment trait b =>
    .success (.object [("ok", .bool true), ("traitId", .text trait),
      ("implementorCount", .int (b.get trait).length), revision])

/-- What the feed holds after a number. -/
def deliveries (feed : Feed) (since : Nat) : Response :=
  .success (.object [("latest", .int feed.latest),
    ("deliveries", .list ((feed.since since).map Delivery.toJson))])

/-- The answer to a request that only makes sure that all is well. -/
def healthy : Response := .success (.object [("ok", .bool true)])

variable {κ : Type}

/-- The counters of page and feed. -/
def events (page : Page κ) (feed : Feed) : Response :=
  .success (.object [("globalRevision", .int page.revision),
    ("channelState", .text page.relay.stateName),
    ("pendingBatches", .int page.relay.backlog.length),
    ("latestDelivery", .int feed.latest)])

/-- All traits with the numbers of their implementors. -/
def traits (page : Page κ) : Response :=
  .success (.list (page.table.rows.map fun row =>
    .object [("traitId", .text row.1), ("implementorCount", .int row.2.length)]))

/-- The flag of a query by which records are chosen. -/
def filter? (r : Request) : Except Fault (Option Bool) :=
  match r.parameter? "synthetic" with
  | none => .ok none
  | some s => (Query.flag "synthetic" (.text s)).map some

/-- The record is chosen: there is no flag, or the record has it. -/
def keeps (flag : Option Bool) (record : Implementor) : Bool := flag.all (record.isSynthetic == ·)

/-- A trait that stands among all implementors; names with this start are kept for other uses. -/
def isListed (trait : Text) : Bool := (Text.afterStart? ("_sa" : Text).toList trait.toList).isNone

/-- The implementors of one trait or of all. -/
def implementors (page : Page κ) (r : Request) : Response :=
  match filter? r with
  | .error why => .refusedFor 400 why
  | .ok flag =>
    match r.parameter? "trait" with
    | none =>
      let rows := page.table.filterRows (keeps flag)
      .success (Table.rowsToJson (rows.filter fun row => isListed row.1))
    | some s =>
      match Query.trait "trait" (.text s) with
      | .error why => .refusedFor 400 why
      | .ok trait =>
        if page.table.contains trait then
          .success (.list (((page.table.get trait).filter (keeps flag)).map Implementor.toJson))
        else .refused 404 ("Unknown trait: " ++ trait)

/-- The members of the object that a request must have as its body. -/
def members (r : Request) : Except Response (List (Text × Json)) :=
  match Json.parseSent r.body.toUTF8 with
  | .ok (.object fields) => .ok fields
  | .error .digitLimit | .error .invalidEncoding =>
    .error (.refused 400 "There was an error parsing the body")
  | _ => .error .unprocessable

/-- A batch for the page: a closed page refuses it before anything else is looked at. -/
def contribution (page : Page κ) (batch : Outcome Batch) (receipt : Batch → Receipt) :
    Outcome Plan :=
  if page.closed then return .answer (.refusedFor 409 .contributionRefused)
  else do
    let b ← batch
    return .contribute b (receipt b)

/-- What the members of a fragment request come to. -/
def fragmentPlan (page : Page κ) (fields : List (Text × Json)) : Outcome Plan :=
  match Fields.get? fields "source" with
  | some (.text source) =>
    match Query.trait "traitId" (Value.ofJson ((Fields.get? fields "traitId").getD .null)) with
    | .error why => return .answer (.refusedFor 400 why)
    | .ok trait => do
      let b ← Fragment.parse source trait
      contribution page (.done b) (.fragment trait)
  | _ => return .answer (.refused 400 "source is required")

/-- The number of a poll as it is given, null if it is left out. -/
def givenSince (r : Request) : Value :=
  match r.parameter? "since" with
  | some s => .text s
  | none => .null

/-- What a poll comes to; `attached` says that the feed is the consumer of the page already. -/
def pollPlan (page : Page κ) (feed : Feed) (attached : Bool) (r : Request) : Plan :=
  match Query.cursor (givenSince r) with
  | .error why => .answer (.refusedFor 400 why)
  | .ok since =>
    if attached then .answer (deliveries feed since)
    else if page.closed then .answer (.refusedFor 409 .attachmentRefused)
    else .poll since

/-- What a request to an endpoint comes to. -/
def planAt (route : Route) (page : Page κ) (feed : Feed) (attached : Bool) (r : Request) :
    Outcome Plan :=
  match route with
  | .health => return .answer healthy
  | .events => return .answer (events page feed)
  | .traits => return .answer (traits page)
  | .implementors => return .answer (implementors page r)
  | .batches =>
    match members r with
    | .error response => return .answer response
    | .ok fields =>
      contribution page (Intake.batch (.map (Value.ofFields fields))) .batch
  | .fragments =>
    match members r with
    | .error response => return .answer response
    | .ok fields => fragmentPlan page fields
  | .deliveries => return pollPlan page feed attached r
  | .reset => return .reset
  | .description => return .answer .page

/-- What a request comes to. A fault that no endpoint expects is an internal error. -/
def plan (page : Page κ) (feed : Feed) (attached : Bool) (r : Request) : Plan × List Notice :=
  match Route.find r with
  | .error response => (.answer (response.forMethod r.method), [])
  | .ok route =>
    let planned := planAt route page feed attached r
    match planned.result with
    | .ok (.answer response) => (.answer (response.forMethod r.method), planned.notices)
    | .ok p => (p, planned.notices)
    | .error _ => (.answer .internalError, planned.notices)

end TraitIndex.Api
