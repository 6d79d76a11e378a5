import TraitIndex.Scenario.Site

/-! Playing a scenario.

    A machine holds a site, the scripted consumers that have attached, and a stack of what has
    begun and not ended: calls of consumers and blocks. `step` does one small thing: it begins the
    step in focus, hands a reply to the innermost thing begun, or lets that go on. A call that ends
    lets its relay go on, which may start the next call, and when no call is left what was pending
    is done. -/

namespace TraitIndex.Scenario

/-- What is told about consumers: one was called with a batch, or one has done a step. -/
inductive Event where
  | called (name : Text) (batch : Batch)
  | did (s : Step) (r : Reply)

/-- What a called consumer still has to do. -/
inductive Body where
  /-- A feed keeps the batch. -/
  | feed
  /-- The step that is being done, the steps of the rule in use after it, whether the rule fails
      then, and the rules after that one. -/
  | script (id : Nat) (doing : Option Step) (steps : List Step) (raises : Bool) (later : List Nat)

/-- Something that has begun and not ended. -/
inductive Frame where
  | call (call : Call Listener) (body : Body) (pending : Pending)
  /-- A block with the steps left and the replies so far. -/
  | within (rest : List Step) (done : List Reply)

/-- What happens next. -/
inductive Focus where
  | run (s : Step)
  | reply (r : Except Fault Reply)
  | advance

/-- The state of a scenario that is being played. -/
structure Machine where
  site : Site
  scripts : List Script
  focus : Focus
  frames : List Frame := []
  events : List Event := []
  notices : List Notice := []

namespace Machine

/-- The name of a scripted consumer. -/
def nameOf (m : Machine) (id : Nat) : Text := ((m.scripts[id]?).map Script.name).getD ""

/-- What a consumer has to do when it is called. -/
def bodyFor (m : Machine) : Listener → Body
  | .script id =>
    let rules := ((m.scripts[id]?).map Script.rules).getD []
    .script id none [] false (List.range rules.length)
  | _ => .feed

/-- What is told when a consumer is called. -/
def eventFor (m : Machine) (call : Call Listener) : List Event :=
  match call.consumer with
  | .script id => [.called (m.nameOf id) call.batch]
  | _ => []

/-- The machine after a reply or the start of a call. -/
def proceed (m : Machine) (frames : List Frame) (site : Site) (p : Progress) : Machine :=
  match p with
  | .ended r => { m with site, frames, focus := .reply r }
  | .calling call pending =>
    { m with
      site
      frames := .call call (m.bodyFor call.consumer) pending :: frames
      focus := .advance
      events := m.events ++ m.eventFor call }

/-- A step begins. -/
def begin (m : Machine) : Step → Machine
  | .act a =>
    let (site, p, notices) := m.site.act a
    { m with notices := m.notices ++ notices }.proceed m.frames site p
  | .attach s =>
    let (site, p, notices) := m.site.attach (.script m.scripts.length)
    { m with scripts := m.scripts ++ [s], notices := m.notices ++ notices }.proceed
      m.frames site p
  | .within steps =>
    if m.site.target = .page then
      { m with frames := .within steps [] :: m.frames, focus := .advance }
    else { m with focus := .reply (.error .wrongKind) }

/-- The relay of a page has gone on from a call: the next call starts, or what was pending is
    done. -/
def goOn (m : Machine) (pending : Pending) (frames : List Frame) :
    Page Listener × Option (Call Listener) → Machine
  | (page, some call) => m.proceed frames { m.site with page } (.calling call pending)
  | (page, none) =>
    let (site, p) := Site.resume { m.site with page } pending
    m.proceed frames site p

/-- A call ends, perhaps by a failure, which costs a notice only. -/
def endCall (m : Machine) (call : Call Listener) (pending : Pending) (failed : Bool)
    (frames : List Frame) : Machine :=
  let m := if failed then
      { m with notices := m.notices ++ [.consumerFailed call.batch.traits] }
    else m
  m.goOn pending frames (m.site.page.finish call)

/-- The innermost thing begun takes the reply to one of its steps. -/
def receive (m : Machine) (r : Except Fault Reply) (frames : List Frame) : Frame → Machine
  | .call call body pending =>
    match body, r with
    | .script id doing steps raises later, .ok reply =>
      { m with
        frames := .call call (.script id none steps raises later) pending :: frames
        focus := .advance
        events := m.events ++ (doing.map (Event.did · reply)).toList }
    | _, _ => m.endCall call pending true frames
  | .within rest done =>
    match r with
    | .ok reply => { m with frames := .within rest (done ++ [reply]) :: frames, focus := .advance }
    | .error why =>
      let site := { m.site with page := m.site.page.close }
      { m with site, frames, focus := .reply (.error why) }

/-- The innermost thing begun goes on. -/
def advance (m : Machine) (frames : List Frame) : Frame → Machine
  | .call call body pending =>
    match body with
    | .feed =>
      { m with site := m.site.record call.consumer call.batch }.endCall call pending false frames
    | .script id _ (s :: steps) raises later =>
      { m with frames := .call call (.script id (some s) steps raises later) pending :: frames
               focus := .run s }
    | .script _ _ [] true _ => m.endCall call pending true frames
    | .script _ _ [] false [] => m.endCall call pending false frames
    | .script id doing [] false (rule :: later) =>
      match fire call.batch rule id m.scripts with
      | none => { m with frames := .call call (.script id doing [] false later) pending :: frames }
      | some (scripts, f) =>
        { m with
          scripts
          frames := .call call (.script id doing f.steps f.raises later) pending :: frames }
  | .within (s :: rest) done => { m with frames := .within rest done :: frames, focus := .run s }
  | .within [] done =>
    let site := { m.site with page := m.site.page.close }
    { m with site, frames, focus := .reply (.ok (.list done)) }

/-- One small thing is done; nothing is left to do when the step that was begun has its reply. -/
def step (m : Machine) : Option Machine :=
  match m.focus, m.frames with
  | .run s, _ => some (m.begin s)
  | .reply r, f :: frames => some (m.receive r frames f)
  | .advance, f :: frames => some (m.advance frames f)
  | _, [] => none

end Machine
end TraitIndex.Scenario
