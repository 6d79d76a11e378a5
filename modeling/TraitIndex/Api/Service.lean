import TraitIndex.Api.Routes

/-! A page of the server's own.

    Where nobody but the server uses a page, its feed is the only consumer that the page can have.
    A feed keeps what it is called with and does nothing else, so `settle` can run a call, and all
    that follow it, to the end: each takes a batch out of the backlog and none puts one in. Requests
    are answered one by one, each before the next. -/

namespace TraitIndex.Api

/-- A page with its feed. -/
structure Service where
  page : Page Unit := {}
  feed : Feed := {}
  deriving DecidableEq

namespace Service

/-- The feed takes the batch of a call, and of every call that follows. -/
def settle (feed : Feed) (page : Page Unit) (call : Option (Call Unit)) : Service :=
  match call with
  | none => { page, feed }
  | some call => settle (feed.record call.batch) (page.finish call).1 (page.finish call).2
termination_by page.relay.backlog.length + (call.map fun _ => 1).getD 0
decreasing_by
  rw [Page.backlog_finish page call]
  exact Nat.lt_succ_self _

/-- A request is answered. -/
def answer (s : Service) (r : Request) : Service × Response × List Notice :=
  let (plan, notices) := plan s.page s.feed s.page.relay.consumer.isSome r
  match plan with
  | .answer response => (s, response, notices)
  | .contribute b receipt =>
    let (page, call) := s.page.accept b
    let s := settle s.feed page call
    (s, receipt.response s.page.revision, notices)
  | .poll since =>
    let (relay, call) := s.page.relay.attach ()
    let s := settle s.feed { s.page with relay } call
    (s, deliveries s.feed since, notices)
  | .reset => ({ page := s.page.reset, feed := s.feed.clear }, healthy, notices)

end Service
end TraitIndex.Api
