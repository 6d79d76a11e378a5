import TraitIndex.Api.Service
import TraitIndex.Files.Loading
import TraitIndex.Scenario.Step
import TraitIndex.Server

/-! Where a scenario plays.

    A site holds the page under test, the feeds, the feed of the page's server and a disk. Where
    what is under test is no page, the server has a page of its own, and nothing else is served.
    `act` does an action as far as it goes without running a consumer: it has ended, or a call has
    started and something is pending until the call, and the flush it may be part of, has ended.
    `resume` does what was pending. -/

namespace TraitIndex.Scenario

/-- What is under test: a page, a table on its own or a relay on its own. -/
inductive Target where
  | page
  | table
  | relay
  deriving DecidableEq, Repr

/-- Who takes the batches of the page. -/
inductive Listener where
  | feed (name : Text)
  /-- The feed of the page's server. -/
  | serverFeed
  /-- A scripted consumer, by the order in which they attached. -/
  | script (id : Nat)
  deriving DecidableEq, Repr

/-- The state of what is under test and around it. -/
structure Site where
  target : Target := .page
  page : Page Listener := {}
  feeds : Fields Feed := []
  serverFeed : Feed := {}
  /-- What the server serves if it is not the page under test. -/
  own : Api.Service := {}
  disk : Disk := {}
  url : String := "http://127.0.0.1:8000/"

/-- What an action comes to. -/
inductive Reply where
  | nothing
  | flag (b : Bool)
  | count (n : Nat)
  | text (s : Text)
  | table (t : Table)
  | records (rs : List Implementor)
  | texts (ss : List Text)
  | tables (ts : List Table)
  | deliveries (ds : List Delivery)
  | response (r : Api.Response) (origin : Option String)
  | client (r : Client.Reply)
  | list (rs : List Reply)

/-- Who asked the server. -/
inductive Asker where
  | direct (origin : Option String)
  | client (call : Client.Call) (address : Url)

/-- What the server will answer when the operation on the page has ended. -/
inductive Awaited where
  | receipt (r : Api.Receipt)
  | deliveries (since : Nat)

/-- What is left to do when a call has ended. -/
inductive Pending where
  | reply (r : Reply)
  /-- More batches are contributed, the records being counted. -/
  | load (rest : List Batch) (count : Nat)
  | answer (awaited : Awaited) (asker : Asker)

/-- How far an action has come. -/
inductive Progress where
  | ended (r : Except Fault Reply)
  | calling (call : Call Listener) (pending : Pending)

/-- The response as the one who asked sees it. A client takes none from an address that is not
    legible. -/
def Asker.hears (asker : Asker) (r : Api.Response) : Except Fault Reply :=
  match asker with
  | .direct origin => .ok (.response r origin)
  | .client call address =>
    if address.isLegible then (call.interpret r.status (r.text?.getD "")).map Reply.client
    else .error .illegibleAddress

namespace Site

/-- A feed by its name; it is there from its first use on. -/
def feed (site : Site) (name : Text) : Feed := (Fields.get? site.feeds name).getD {}

/-- A feed changes. -/
def setFeed (site : Site) (name : Text) (f : Feed) : Site :=
  { site with feeds := Fields.put name f site.feeds }

/-- The feed that listens is called with a batch. -/
def record (site : Site) (listener : Listener) (b : Batch) : Site :=
  match listener with
  | .feed name => site.setFeed name ((site.feed name).record b)
  | .serverFeed => { site with serverFeed := site.serverFeed.record b }
  | .script _ => site

/-- A page after an operation on it, and what is pending if the operation has started a call. -/
def after (site : Site) (moved : Page Listener × Option (Call Listener)) (pending : Pending)
    (reply : Except Fault Reply) : Site × Progress :=
  match moved with
  | (page, none) => ({ site with page }, .ended reply)
  | (page, some call) => ({ site with page }, .calling call pending)

/-- What the server answers now. -/
def response (site : Site) : Awaited → Api.Response
  | .receipt r => r.response site.page.revision
  | .deliveries n => Api.deliveries site.serverFeed n

/-- A page after an operation that the server has begun for someone. -/
def afterServing (site : Site) (moved : Page Listener × Option (Call Listener))
    (awaited : Awaited) (asker : Asker) : Site × Progress :=
  let moved' := { site with page := moved.1 }
  site.after moved (.answer awaited asker) (asker.hears (moved'.response awaited))

/-- Batches are contributed one after another until one starts a call. -/
def load (site : Site) (count : Nat) : List Batch → Site × Progress
  | [] => (site, .ended (.ok (.count count)))
  | b :: rest =>
    match site.page.contribute b with
    | .error why => (site, .ended (.error why))
    | .ok (page, none) => load { site with page } (count + b.recordCount) rest
    | .ok (page, some call) =>
      ({ site with page }, .calling call (.load rest (count + b.recordCount)))

/-- What was pending is done. -/
def resume (site : Site) : Pending → Site × Progress
  | .reply r => (site, .ended (.ok r))
  | .load rest count => site.load count rest
  | .answer awaited asker => (site, .ended (asker.hears (site.response awaited)))

/-- The server of the page under test takes a request. -/
def servePage (site : Site) (r : Api.Request) (asker : Asker) : Site × Progress × List Notice :=
  let attached := site.page.relay.consumer = some .serverFeed
  let (plan, notices) := Api.plan site.page site.serverFeed attached r
  let (site, progress) := match plan with
    | .answer response => (site, .ended (asker.hears response))
    | .contribute b receipt => site.afterServing (site.page.accept b) (.receipt receipt) asker
    | .poll n =>
      let (relay, call) := site.page.relay.attach .serverFeed
      site.afterServing ({ site.page with relay }, call) (.deliveries n) asker
    | .reset =>
      let site := { site with page := site.page.reset, serverFeed := site.serverFeed.clear }
      (site, .ended (asker.hears Api.healthy))
  (site, progress, notices)

/-- The server takes a request. -/
def serve (site : Site) (r : Api.Request) (asker : Asker) : Site × Progress × List Notice :=
  if site.target = .page then site.servePage r asker
  else
    let (own, response, notices) := site.own.answer r
    ({ site with own }, .ended (asker.hears response), notices)

/-- What a client sends for a call, with the address of its server. -/
def requestFor (site : Site) (call : Client.Call) : Except Fault (Api.Request × Url) := do
  let r ← call.request
  return (r, ← (← Url.ofString (Server.clientUrl site.url)).sendable)

/-- A client makes a call. -/
def ask (site : Site) (call : Client.Call) : Site × Progress × List Notice :=
  match site.requestFor call with
  | .error why => (site, .ended (.error why), [])
  | .ok (r, base) => site.serve (r.behind base) (.client call (r.addressBehind base))

/-- Something is not possible on what is under test. -/
def impossible (site : Site) : Site × Progress × List Notice :=
  (site, .ended (.error .noSuchOperation), [])

/-- An action that only looks. -/
def look (site : Site) (r : Except Fault Reply) : Site × Progress × List Notice :=
  (site, .ended r, [])

/-- An action that only looks at the table, which a relay on its own has not. -/
def lookAtTable (site : Site) (r : Except Fault Reply) : Site × Progress × List Notice :=
  if site.target = .relay then site.impossible else site.look r

/-- An action that only looks at the relay, which a table on its own has not. -/
def lookAtRelay (site : Site) (r : Reply) : Site × Progress × List Notice :=
  if site.target = .table then site.impossible else site.look (.ok r)

/-- A batch is contributed, or goes to the table past the question whether the page is closed. -/
def contribute (site : Site) (past : Bool) (batch : Outcome Batch) :
    Site × Progress × List Notice :=
  if site.target = .page ∧ past = false ∧ site.page.closed = true then
    site.look (.error .contributionRefused)
  else
    match batch.result with
    | .error why => (site, .ended (.error why), batch.notices)
    | .ok b =>
      let moved := if site.target = .page then site.page.accept b else (site.page.merge b, none)
      let (site, progress) := site.after moved (.reply (.table b)) (.ok (.table b))
      (site, progress, batch.notices)

/-- A consumer attaches. -/
def attach (site : Site) (listener : Listener) : Site × Progress × List Notice :=
  match site.target with
  | .table => site.impossible
  | _ =>
    match site.page.attach listener with
    | .error why => site.look (.error why)
    | .ok moved =>
      let (site, progress) := site.after moved (.reply .nothing) (.ok .nothing)
      (site, progress, [])

/-- The records of a fragment are contributed and counted. -/
def loadFragment (site : Site) (path : Text) (trait : Option Value) :
    Site × Progress × List Notice :=
  let batch := Loading.fragment site.disk (Path.ofText path) trait
  match batch.result with
  | .error why => (site, .ended (.error why), batch.notices)
  | .ok b =>
    let (site, progress) := site.load 0 [b]
    (site, progress, batch.notices)

/-- All batches at a path are contributed and their records counted. -/
def loadPath (site : Site) (path : Text) : Site × Progress × List Notice :=
  let batches := Loading.batches site.disk (Path.ofText path)
  match batches.result with
  | .error why => (site, .ended (.error why), batches.notices)
  | .ok bs =>
    if site.target = .page ∨ bs.isEmpty then
      let (site, progress) := site.load 0 bs
      (site, progress, batches.notices)
    else (site, .ended (.error .noSuchOperation), batches.notices)

/-- A file is read and sent as a fragment, of the trait given or else the one its path tells. -/
def clientLoadFragment (site : Site) (path : Text) (trait : Option Value) :
    Site × Progress × List Notice :=
  match Client.Call.ofFile site.disk (Path.ofText path) trait with
  | .error why => site.look (.error why)
  | .ok call => site.ask call

/-- The page, or the relay alone, is made to do without calls. -/
def change (site : Site) (f : Page Listener → Page Listener) : Site × Progress × List Notice :=
  ({ site with page := f site.page }, .ended (.ok .nothing), [])

/-- A batch from any value for one who takes batches only. -/
def withBatch (site : Site) (v : Value) (f : Batch → Site × Progress) :
    Site × Progress × List Notice :=
  let batch := Intake.batch v
  match batch.result with
  | .error why => (site, .ended (.error why), batch.notices)
  | .ok b =>
    let (site, progress) := f b
    (site, progress, batch.notices)

/-- An action, as far as it goes without running a consumer. -/
def act (site : Site) : Action → Site × Progress × List Notice
  | .contribute v =>
    if site.target = .relay then site.impossible else site.contribute false (Intake.batch v)
  | .contributePast v =>
    if site.target = .relay then site.impossible else site.contribute true (Intake.batch v)
  | .contributeServed v =>
    if site.target = .page then site.contribute false (Intake.batch v) else site.impossible
  | .attachValue =>
    if site.target = .table then site.impossible
    else site.look (.error (if site.page.closed then .attachmentRefused else .notCallable))
  | .attachFeed name => site.attach (.feed name)
  | .deliver v =>
    if site.target = .table then site.impossible
    else site.withBatch v fun b =>
      let (relay, call) := site.page.relay.deliver b
      site.after ({ site.page with relay }, call) (.reply .nothing) (.ok .nothing)
  | .reset =>
    match site.target with
    | .page => site.change Page.reset
    | .table => site.change Page.clearTable
    | .relay => site.impossible
  | .close =>
    match site.target with
    | .page => site.change Page.close
    | .table => site.impossible
    | .relay => site.change fun p => { p with relay := p.relay.close }
  | .closeRelay =>
    if site.target = .table then site.impossible
    else site.change fun p => { p with relay := p.relay.close }
  | .resetTable =>
    if site.target = .relay then site.impossible else site.change Page.clearTable
  | .get v => site.lookAtTable ((Intake.text v).map fun t => .records (site.page.table.get t))
  | .has v => site.lookAtTable ((Intake.text v).map fun t => .flag (site.page.table.contains t))
  | .traits => site.lookAtTable (.ok (.texts site.page.table.traits))
  | .snapshot => site.lookAtTable (.ok (.table site.page.table))
  | .backlog => site.lookAtRelay (.tables site.page.relay.backlog)
  | .hasConsumer => site.lookAtRelay (.flag site.page.relay.consumer.isSome)
  | .sharesRelay => site.lookAtTable (.ok (.flag (site.target = .page)))
  | .callFeed name v =>
    site.withBatch v fun b => (site.record (.feed name) b, .ended (.ok .nothing))
  | .latest name => site.look (.ok (.count (site.feed name).latest))
  | .since name v =>
    if (site.feed name).deliveries.isEmpty then site.look (.ok (.deliveries []))
    else
      site.look (v.integer.map fun n => .deliveries ((site.feed name).since n))
  | .clearFeed name =>
    (site.setFeed name (site.feed name).clear, .ended (.ok .nothing), [])
  | .request d =>
    match d.request with
    | .error why => site.look (.error why)
    | .ok r => site.serve r (.direct r.origin)
  | .loadFragment path trait =>
    if site.target = .page then site.loadFragment path trait else site.impossible
  | .loadPath path => site.loadPath path
  | .clientUrl => site.look (.ok (.text (Server.clientUrl site.url)))
  | .client call => site.ask call
  | .clientLoadFragment path trait => site.clientLoadFragment path trait

end Site
end TraitIndex.Scenario
