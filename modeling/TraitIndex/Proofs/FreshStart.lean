import TraitIndex.Proofs.LaterSite
import TraitIndex.Proofs.Sessions
import TraitIndex.Proofs.WhilePending

/-! Starting over.

    A page that was reset has an empty table, no consumer and nothing that waits, and no flush goes
    on, because none does between two steps of a session. What is left of the past are numbers that
    count on and consumers that nobody will call again. So from then on everything is as on a new
    page with a new server, apart from the numbers. -/

namespace TraitIndex.Scenario

namespace Past

variable (o : Past)

/-! ### Steps that correspond -/

mutual

/-- The steps are the same, but for the cursors of requests, which are shifted. -/
inductive Steps : Step → Step → Prop where
  | act {a a' : Action} (h : o.Actions a a') : Steps (.act a) (.act a')
  | attach {s s' : Script} (h : Scripts s s') : Steps (.attach s) (.attach s')
  | within {ss ss' : List Step} (h : List.Forall₂ Steps ss ss') : Steps (.within ss) (.within ss')

inductive Scripts : Script → Script → Prop where
  | mk (name : Text) {rs rs' : List Rule} (h : List.Forall₂ Rules rs rs') :
    Scripts (.mk name rs) (.mk name rs')

inductive Rules : Rule → Rule → Prop where
  | mk (trait : Option Text) (times : Nat) {ss ss' : List Step} (raises : Bool)
    (h : List.Forall₂ Steps ss ss') : Rules (.mk trait times ss raises) (.mk trait times ss' raises)

end

/-- What used rules leave to be done corresponds. -/
structure Firings (f f' : Firing) : Prop where
  steps : List.Forall₂ o.Steps f.steps f'.steps
  raises : f'.raises = f.raises

/-- The consumers that have attached, after those of the past. -/
def Attached (ss ss' : List Script) : Prop :=
  ∃ later, ss' = o.scripts ++ later ∧ List.Forall₂ o.Scripts ss later

inductive Bodies : Body → Body → Prop where
  | feed : Bodies .feed .feed
  | script (id : Nat) {doing doing' : Option Step} (hdoing : Option.Rel o.Steps doing doing')
    {ss ss' : List Step} (hsteps : List.Forall₂ o.Steps ss ss') (raises : Bool) (later : List Nat) :
    Bodies (.script id doing ss raises later)
      (.script (id + o.scripts.length) doing' ss' raises later)

inductive Frames : Frame → Frame → Prop where
  | call (call : Call Listener) {b b' : Body} (hbody : o.Bodies b b') {p p' : Pending}
    (hpending : o.Pendings p p') : Frames (.call call b p) (.call (call.rename o.listener) b' p')
  | within {rest rest' : List Step} (h : List.Forall₂ o.Steps rest rest') (done : List Reply) :
    Frames (.within rest done) (.within rest' (done.map o.reply))

inductive Foci : Focus → Focus → Prop where
  | run {s s' : Step} (h : o.Steps s s') : Foci (.run s) (.run s')
  | reply (r : Except Fault Reply) : Foci (.reply r) (.reply (r.map o.reply))
  | advance : Foci .advance .advance

inductive Events : Event → Event → Prop where
  | called (name : Text) (batch : Batch) : Events (.called name batch) (.called name batch)
  | did {s s' : Step} (h : o.Steps s s') (r : Reply) : Events (.did s r) (.did s' (o.reply r))

/-- The second machine is the first with its past. -/
structure Machines (m m' : Machine) : Prop where
  site : o.Sites m.site m'.site
  scripts : o.Attached m.scripts m'.scripts
  focus : o.Foci m.focus m'.focus
  frames : List.Forall₂ o.Frames m.frames m'.frames
  events : List.Forall₂ o.Events m.events m'.events
  notices : m'.notices = m.notices

variable {o}

/-! ### Rules -/

theorem use_rules {r r' : Rule} (h : o.Rules r r') (batch : Batch) :
    Option.Rel (fun p p' => o.Rules p.1 p'.1 ∧ o.Firings p.2 p'.2)
      (r.use batch) (r'.use batch) := by
  obtain ⟨trait, times, raises, hsteps⟩ := h
  cases times with
  | zero => exact .none
  | succ times =>
    simp only [Rule.use]
    split
    · exact .some ⟨.mk trait times raises hsteps, hsteps, rfl⟩
    · exact .none

theorem rel_map {α β γ δ : Type} {R : α → β → Prop} {S : γ → δ → Prop} {x : Option α}
    {y : Option β} {f : α → γ} {g : β → δ} (h : Option.Rel R x y)
    (hfg : ∀ a b, R a b → S (f a) (g b)) : Option.Rel S (x.map f) (y.map g) := by
  cases h with
  | none => exact .none
  | some hab => exact .some (hfg _ _ hab)

theorem useRule_rules {rs rs' : List Rule} (h : List.Forall₂ o.Rules rs rs') (batch : Batch)
    (n : Nat) :
    Option.Rel (fun p p' => List.Forall₂ o.Rules p.1 p'.1 ∧ o.Firings p.2 p'.2)
      (useRule batch n rs) (useRule batch n rs') := by
  induction h generalizing n with
  | nil => cases n <;> exact .none
  | cons hr hrest ih =>
    cases n with
    | zero => exact rel_map (use_rules hr batch) fun _ _ hp => ⟨.cons hp.1 hrest, hp.2⟩
    | succ n => exact rel_map (ih n) fun _ _ hp => ⟨.cons hr hp.1, hp.2⟩

theorem fire_scripts {ss ss' : List Script} (h : List.Forall₂ o.Scripts ss ss') (batch : Batch)
    (rule n : Nat) :
    Option.Rel (fun p p' => List.Forall₂ o.Scripts p.1 p'.1 ∧ o.Firings p.2 p'.2)
      (fire batch rule n ss) (fire batch rule n ss') := by
  induction h generalizing n with
  | nil => cases n <;> exact .none
  | cons hs hrest ih =>
    cases n with
    | zero =>
      obtain ⟨name, hrules⟩ := hs
      exact rel_map (useRule_rules hrules batch rule) fun _ _ hp =>
        ⟨.cons (.mk name hp.1) hrest, hp.2⟩
    | succ n =>
      rw [fire, fire]
      exact rel_map (ih n) fun _ _ hp => ⟨.cons hs hp.1, hp.2⟩

/-- Consumers of the past are not fired. -/
theorem fire_append (batch : Batch) (rule n : Nat) (past ss : List Script) :
    fire batch rule (n + past.length) (past ++ ss) =
      (fire batch rule n ss).map fun p => (past ++ p.1, p.2) := by
  induction past with
  | nil =>
    show fire batch rule n ss = (fire batch rule n ss).map id
    rw [Option.map_id, id]
  | cons s past ih =>
    show fire batch rule ((n + past.length) + 1) (s :: (past ++ ss)) = _
    rw [fire, ih, Option.map_map]
    rfl

theorem fire_attached {ss ss' : List Script} (h : o.Attached ss ss') (batch : Batch)
    (rule n : Nat) :
    Option.Rel (fun p p' => o.Attached p.1 p'.1 ∧ o.Firings p.2 p'.2)
      (fire batch rule n ss) (fire batch rule (n + o.scripts.length) ss') := by
  obtain ⟨later, rfl, hlater⟩ := h
  have hfire := fire_scripts hlater batch rule n
  rw [fire_append]
  generalize fire batch rule n ss = x at hfire ⊢
  generalize fire batch rule n later = y at hfire ⊢
  cases hfire with
  | none => exact .none
  | some hp => exact .some ⟨⟨_, rfl, hp.1⟩, hp.2⟩

/-! ### The machine -/

theorem getElem?_attached {ss ss' : List Script} (h : o.Attached ss ss') (id : Nat) :
    Option.Rel o.Scripts ss[id]? ss'[id + o.scripts.length]? := by
  obtain ⟨later, rfl, hlater⟩ := h
  rw [List.getElem?_append_right (Nat.le_add_left ..), Nat.add_sub_cancel]
  induction hlater generalizing id with
  | nil => exact .none
  | cons hs hrest ih =>
    cases id with
    | zero => exact .some hs
    | succ id => exact ih id

/-- Corresponding consumers have one name and equally many rules. -/
theorem name_scripts {x y : Option Script} (h : Option.Rel o.Scripts x y) :
    ((y.map Script.name).getD "") = ((x.map Script.name).getD "") ∧
      ((y.map Script.rules).getD []).length = ((x.map Script.rules).getD []).length := by
  cases h with
  | none => exact ⟨rfl, rfl⟩
  | some hs =>
    obtain ⟨name, hrules⟩ := hs
    exact ⟨rfl, hrules.length_eq.symm⟩

section Machine

variable {m m' : Machine} {frames frames' : List Frame}

theorem bodies_bodyFor (h : o.Attached m.scripts m'.scripts) (l : Listener) :
    o.Bodies (m.bodyFor l) (m'.bodyFor (o.listener l)) := by
  cases l with
  | feed name => exact .feed
  | serverFeed => exact .feed
  | script id =>
    have hrules := (name_scripts (getElem?_attached h id)).2
    simp only [Machine.bodyFor, listener, hrules]
    exact .script id .none .nil false _

theorem events_eventFor (h : o.Attached m.scripts m'.scripts) (call : Call Listener) :
    List.Forall₂ o.Events (m.eventFor call) (m'.eventFor (call.rename o.listener)) := by
  obtain ⟨l, batch, fromBacklog⟩ := call
  cases l with
  | feed name => exact .nil
  | serverFeed => exact .nil
  | script id =>
    have hname : m'.nameOf (id + o.scripts.length) = m.nameOf id :=
      (name_scripts (getElem?_attached h id)).1
    simp only [Machine.eventFor, Call.rename, listener, hname]
    exact .cons (.called _ _) .nil

theorem machines_proceed (h : o.Machines m m') (hframes : List.Forall₂ o.Frames frames frames')
    {x x' : Site × Progress} (hx : o.Comes x x') :
    o.Machines (m.proceed frames x.1 x.2) (m'.proceed frames' x'.1 x'.2) := by
  obtain ⟨hsite, hprogress⟩ := hx
  obtain ⟨site, progress⟩ := x
  obtain ⟨site', progress'⟩ := x'
  cases hprogress with
  | ended r => exact ⟨hsite, h.scripts, .reply r, hframes, h.events, h.notices⟩
  | calling call hpending =>
    exact ⟨hsite, h.scripts, .advance,
      .cons (.call call (bodies_bodyFor h.scripts call.consumer) hpending) hframes,
      List.rel_append h.events (events_eventFor h.scripts call), h.notices⟩

theorem machines_goOn (h : o.Machines m m') (hframes : List.Forall₂ o.Frames frames frames')
    {p p' : Pending} (hp : o.Pendings p p') (moved : Page Listener × Option (Call Listener)) :
    o.Machines (m.goOn p frames moved) (m'.goOn p' frames' (o.moved moved)) := by
  obtain ⟨page, _ | call⟩ := moved
  · exact machines_proceed h hframes (comes_resume (h.site.withPage page) hp)
  · have hcalling : o.Comes ({ m.site with page }, .calling call p)
        ({ m'.site with page := o.page page }, .calling (call.rename o.listener) p') :=
      ⟨h.site.withPage page, .calling call hp⟩
    exact machines_proceed h hframes hcalling

theorem machines_endCall (h : o.Machines m m') (hframes : List.Forall₂ o.Frames frames frames')
    (call : Call Listener) {p p' : Pending} (hp : o.Pendings p p') (failed : Bool) :
    o.Machines (m.endCall call p failed frames)
      (m'.endCall (call.rename o.listener) p' failed frames') := by
  have hfinish : m'.site.page.finish (call.rename o.listener) =
      o.moved (m.site.page.finish call) := by
    rw [h.site.later_page]
    exact m.site.page.finish_shift o.listener o.offset.revision call
  cases failed with
  | true =>
    have hnoted : o.Machines { m with notices := m.notices ++ [.consumerFailed call.batch.traits] }
        { m' with notices := m'.notices ++ [.consumerFailed call.batch.traits] } :=
      ⟨h.site, h.scripts, h.focus, h.frames, h.events, congrArg (· ++ _) h.notices⟩
    have hgoes := machines_goOn hnoted hframes hp (m.site.page.finish call)
    rw [← hfinish] at hgoes
    exact hgoes
  | false =>
    have hgoes := machines_goOn h hframes hp (m.site.page.finish call)
    rw [← hfinish] at hgoes
    exact hgoes

theorem machines_begin (h : o.Machines m m') {s s' : Step} (hs : o.Steps s s') :
    o.Machines (m.begin s) (m'.begin s') := by
  cases hs with
  | @act a a' ha =>
    obtain ⟨hcomes, hnotices⟩ := acts_act h.site ha
    have hnoted : o.Machines { m with notices := m.notices ++ (m.site.act a).2.2 }
        { m' with notices := m'.notices ++ (m'.site.act a').2.2 } := by
      refine ⟨h.site, h.scripts, h.focus, h.frames, h.events, ?_⟩
      simp only [h.notices, hnotices]
    exact machines_proceed hnoted h.frames hcomes
  | @attach s s' hs =>
    obtain ⟨later, hlater, hscripts⟩ := h.scripts
    have hlength : m'.scripts.length = m.scripts.length + o.scripts.length := by
      rw [hlater, List.length_append, hscripts.length_eq, Nat.add_comm]
    obtain ⟨hcomes, hnotices⟩ := acts_attach h.site (.script m.scripts.length)
    have hlistener : o.listener (.script m.scripts.length) = .script m'.scripts.length := by
      rw [hlength]
      rfl
    rw [hlistener] at hcomes hnotices
    have hattached : o.Machines
        { m with
          scripts := m.scripts ++ [s]
          notices := m.notices ++ (m.site.attach (.script m.scripts.length)).2.2 }
        { m' with
          scripts := m'.scripts ++ [s']
          notices := m'.notices ++ (m'.site.attach (.script m'.scripts.length)).2.2 } := by
      refine ⟨h.site, ?_, h.focus, h.frames, h.events, ?_⟩
      · refine ⟨later ++ [s'], ?_, List.rel_append hscripts (.cons hs .nil)⟩
        simp only [hlater, List.append_assoc]
      · simp only [h.notices, hnotices]
    exact machines_proceed hattached h.frames hcomes
  | within hsteps =>
    simp only [Machine.begin, h.site.target, h.site.later_target, if_true]
    exact ⟨h.site, h.scripts, .advance, .cons (.within hsteps []) h.frames, h.events, h.notices⟩

theorem sites_close (h : o.Machines m m') :
    o.Sites { m.site with page := m.site.page.close }
      { m'.site with page := m'.site.page.close } := by
  have hclose : m'.site.page.close = o.page m.site.page.close := by
    rw [h.site.later_page]
    exact m.site.page.close_shift o.listener o.offset.revision
  rw [hclose]
  exact h.site.withPage _

theorem machines_receive (h : o.Machines m m') (r : Except Fault Reply)
    (hframes : List.Forall₂ o.Frames frames frames') {f f' : Frame} (hf : o.Frames f f') :
    o.Machines (m.receive r frames f) (m'.receive (r.map o.reply) frames' f') := by
  cases hf with
  | call call hbody hp =>
    have hend := machines_endCall h hframes call hp true
    cases hbody with
    | feed => exact hend
    | script id hdoing hsteps raises later =>
      cases r with
      | error why => exact hend
      | ok reply =>
        refine ⟨h.site, h.scripts, .advance,
          .cons (.call call (.script id .none hsteps raises later) hp) hframes,
          List.rel_append h.events ?_, h.notices⟩
        cases hdoing with
        | none => exact .nil
        | some hs => exact .cons (.did hs reply) .nil
  | within hrest done =>
    cases r with
    | error why => exact ⟨sites_close h, h.scripts, .reply _, hframes, h.events, h.notices⟩
    | ok reply =>
      refine ⟨h.site, h.scripts, .advance, .cons ?_ hframes, h.events, h.notices⟩
      have hwithin := Frames.within hrest (done ++ [reply])
      rw [List.map_append] at hwithin
      exact hwithin

theorem machines_advance (h : o.Machines m m')
    (hframes : List.Forall₂ o.Frames frames frames') {f f' : Frame} (hf : o.Frames f f') :
    o.Machines (m.advance frames f) (m'.advance frames' f') := by
  cases hf with
  | call call hbody hp =>
    cases hbody with
    | feed =>
      have hrecorded : o.Machines { m with site := m.site.record call.consumer call.batch }
          { m' with site := m'.site.record (o.listener call.consumer) call.batch } :=
        ⟨sites_record h.site call.consumer call.batch, h.scripts, h.focus, h.frames, h.events,
          h.notices⟩
      exact machines_endCall hrecorded hframes call hp false
    | script id hdoing hsteps raises later =>
      cases hsteps with
      | cons hs hrest =>
        exact ⟨h.site, h.scripts, .run hs,
          .cons (.call call (.script id (.some hs) hrest raises later) hp) hframes, h.events,
          h.notices⟩
      | nil =>
        cases raises with
        | true => exact machines_endCall h hframes call hp true
        | false =>
          cases later with
          | nil => exact machines_endCall h hframes call hp false
          | cons rule later =>
            have hfire := fire_attached h.scripts call.batch rule id
            have hbatch : (call.rename o.listener).batch = call.batch := rfl
            simp only [Machine.advance, hbatch]
            generalize fire call.batch rule id m.scripts = x at hfire ⊢
            generalize fire call.batch rule (id + o.scripts.length) m'.scripts = y at hfire ⊢
            cases hfire with
            | none =>
              exact ⟨h.site, h.scripts, h.focus,
                .cons (.call call (.script id hdoing .nil false later) hp) hframes, h.events,
                h.notices⟩
            | @some fired fired' hfired =>
              obtain ⟨scripts, steps, raises⟩ := fired
              obtain ⟨scripts', steps', raises'⟩ := fired'
              obtain ⟨hscripts, hsteps, hraises⟩ := hfired
              obtain rfl : raises' = raises := hraises
              exact ⟨h.site, hscripts, h.focus,
                .cons (.call call (.script id hdoing hsteps raises' later) hp) hframes,
                h.events, h.notices⟩
  | within hrest done =>
    cases hrest with
    | cons hs hrest =>
      exact ⟨h.site, h.scripts, .run hs, .cons (.within hrest done) hframes, h.events, h.notices⟩
    | nil =>
      have hfocus' := Foci.reply (o := o) (.ok (.list done))
      simp only [Except.map, reply, replies_eq_map] at hfocus'
      exact ⟨sites_close h, h.scripts, hfocus', hframes, h.events, h.notices⟩

/-- Both machines have nothing left to do, or both do what corresponds. -/
theorem machines_step (h : o.Machines m m') :
    (m.step = none ∧ m'.step = none) ∨
      ∃ n n', m.step = some n ∧ m'.step = some n' ∧ o.Machines n n' := by
  have hfocus := h.focus
  have hframes := h.frames
  unfold Machine.step
  generalize hm : m.focus = focus at hfocus ⊢
  generalize hm' : m'.focus = focus' at hfocus ⊢
  cases hfocus with
  | run hs => exact .inr ⟨_, _, rfl, rfl, machines_begin h hs⟩
  | reply r =>
    generalize m.frames = frames at hframes ⊢
    generalize m'.frames = frames' at hframes ⊢
    cases hframes with
    | nil => exact .inl ⟨rfl, rfl⟩
    | cons hf hrest => exact .inr ⟨_, _, rfl, rfl, machines_receive h r hrest hf⟩
  | advance =>
    generalize m.frames = frames at hframes ⊢
    generalize m'.frames = frames' at hframes ⊢
    cases hframes with
    | nil => exact .inl ⟨rfl, rfl⟩
    | cons hf hrest => exact .inr ⟨_, _, rfl, rfl, machines_advance h hrest hf⟩

/-- The induction is on the measure that every step of the first machine lowers. -/
theorem machines_run {m m' : Machine} (h : o.Machines m m') : o.Machines m.run m'.run := by
  rcases machines_step h with ⟨hstep, hstep'⟩ | ⟨n, n', hstep, hstep', hn⟩
  · rw [Machine.run_of_end hstep, Machine.run_of_end hstep']
    exact h
  · rw [Machine.run_of_step hstep, Machine.run_of_step hstep']
    exact machines_run hn
termination_by (m.budget, m.waiting, m.work)
decreasing_by exact lex_of_below (step_below hstep)

end Machine

/-! ### Stages -/

variable (o) in
/-- The second stage is the first with its past. -/
structure Stages (stage stage' : Stage) : Prop where
  site : o.Sites stage.site stage'.site
  scripts : o.Attached stage.scripts stage'.scripts

variable (o) in
/-- The same came of two steps, apart from the numbers in what the server said. -/
structure Results (r r' : Result) : Prop where
  reply : r'.reply = r.reply.map o.reply
  events : List.Forall₂ o.Events r.events r'.events
  notices : r'.notices = r.notices

theorem stages_perform {stage stage' : Stage} (h : o.Stages stage stage') {s s' : Step}
    (hs : o.Steps s s') :
    o.Stages (stage.perform s).1 (stage'.perform s').1 ∧
      o.Results (stage.perform s).2 (stage'.perform s').2 := by
  have hrun : o.Machines (stage.machine s).run (stage'.machine s').run :=
    machines_run ⟨h.site, h.scripts, .run hs, .nil, .nil, rfl⟩
  refine ⟨⟨hrun.site, hrun.scripts⟩, ?_, hrun.events, hrun.notices⟩
  have hfocus := hrun.focus
  simp only [Stage.perform]
  generalize (stage.machine s).run.focus = focus at hfocus ⊢
  generalize (stage'.machine s').run.focus = focus' at hfocus ⊢
  cases hfocus with
  | run _ | reply _ | advance => rfl

end Past

/-- Steps are done one after another. -/
def Stage.performAll (stage : Stage) : List Step → Stage × List Result
  | [] => (stage, [])
  | s :: rest =>
    let (stage, result) := stage.perform s
    let (stage, results) := stage.performAll rest
    (stage, result :: results)

theorem Past.stages_performAll {o : Past} {stage stage' : Stage} (h : o.Stages stage stage')
    {ss ss' : List Step} (hss : List.Forall₂ o.Steps ss ss') :
    o.Stages (stage.performAll ss).1 (stage'.performAll ss').1 ∧
      List.Forall₂ o.Results (stage.performAll ss).2 (stage'.performAll ss').2 := by
  induction hss generalizing stage stage' with
  | nil => exact ⟨h, .nil⟩
  | cons hs _ ih =>
    obtain ⟨hstages, hresult⟩ := stages_perform h hs
    obtain ⟨hstages', hresults⟩ := ih hstages
    exact ⟨hstages', .cons hresult hresults⟩

/-! ### Starting over -/

namespace Stage

/-- The stage with a new page and a new server, before any consumer has attached. -/
def anew (stage : Stage) : Stage := { site := { stage.site with page := {}, serverFeed := {} } }

/-- What is left of the past on a stage where everything starts over. -/
def past (stage : Stage) : Past where
  offset := { revision := stage.site.page.revision, seq := stage.site.serverFeed.latest }
  scripts := stage.scripts

end Stage

/-- An open page that was reset while no flush went on is a new page, but for its revision. -/
theorem page_reset {p : Page Listener} (hopen : p.closed = false)
    (hidle : p.relay.flushing = false) : p.reset = { revision := p.revision + 1 } := by
  obtain ⟨table, revision, ⟨consumer, backlog, flushing, delivered⟩, closed⟩ := p
  obtain rfl : closed = false := hopen
  obtain rfl : flushing = false := hidle
  rfl

/-- Other pairs in the place of the query of a draft. -/
theorem request_withQuery (d : Api.Draft) (query : List (String × String)) :
    Api.Draft.request { d with query := some query } =
      d.request.map fun r => { r with query } := by
  simp only [Api.Draft.request, bind, Except.bind]
  rcases Url.ofString d.target with why | reference
  · rfl
  simp only
  rcases d.content.sentText with why | body
  · rfl
  simp only
  generalize (if reference.isAbsolute = true then reference else Api.serverUrl.extend reference) = u
  rcases u.sendable with why | u
  · rfl
  simp only
  rcases Api.spokenTo u with why | _
  · rfl
  · rfl

/-- To every draft of which the cursors stay short enough there is one with shifted cursors. -/
theorem drafts_shifted (o : Past) {d : Api.Draft} {r : Api.Request} (hr : d.request = .ok r)
    (hfits : o.offset.Fits r) :
    o.Drafts d { d with query := some (r.query.map o.offset.pair) } := by
  refine .inr ⟨r, hr, hfits, ?_⟩
  rw [request_withQuery, hr]
  rfl

/-- A request to start over is done at once. -/
theorem begins_reset {site : Site} (htarget : site.target = .page) {d : Api.Draft}
    {r : Api.Request} (hr : d.request = .ok r) (hfind : Api.Route.find r = .ok .reset) :
    site.Begins (.request d)
      ({ site with page := site.page.reset, serverFeed := site.serverFeed.clear }, none)
      fun _ => .ok (.response Api.healthy r.origin) := by
  have hplan : Api.plan site.page site.serverFeed
      (site.page.relay.consumer = some .serverFeed) r = (.reset, []) := by
    simp only [Api.plan, hfind, Api.planAt, Outcome.pure_eq]
  refine ⟨_, [], ?_, rfl⟩
  rw [site.act_request htarget hr]
  simp only [Site.servePage, hplan]
  rfl

/-- After a request to start over between two steps of a session with an open page, whatever steps
    follow, they come to what they come to with a new page and a new server: the same results, the
    same calls and the same log, and then the same page. Revisions are shifted by the revision right
    after the reset, and the numbers of deliveries by the number that was given last, in what is
    told as in the cursors that are passed in. -/
theorem reset_starts_afresh {start m : Machine} (hfresh : start.Fresh) (hto : start.Reaches m)
    (hend : m.step = none) (hopen : m.site.page.closed = false) {d : Api.Draft}
    {r : Api.Request} (hr : d.request = .ok r) (hfind : Api.Route.find r = .ok .reset) :
    ∃ (stage : Stage) (notices : List Notice),
      Stage.perform ⟨m.site, m.scripts⟩ (.act (.request d)) =
        (stage, { reply := .ok (.response Api.healthy r.origin), events := [], notices }) ∧
      stage.site.page.revision = m.site.page.revision + 1 ∧
      stage.site.serverFeed.latest = m.site.serverFeed.latest ∧
      ∀ ss ss', List.Forall₂ stage.past.Steps ss ss' →
        stage.past.Stages (stage.anew.performAll ss).1 (stage.performAll ss').1 ∧
          List.Forall₂ stage.past.Results (stage.anew.performAll ss).2
            (stage.performAll ss').2 := by
  obtain ⟨moves, hshows⟩ := Machine.shown_in_session hfresh hto
  have hidle := Machine.idle_between hfresh hto hend
  obtain ⟨notices, hperform⟩ :=
    perform_ended ⟨m.site, m.scripts⟩ (begins_reset hshows.target hr hfind)
  refine ⟨_, notices, hperform, rfl, rfl, fun ss ss' hss => Past.stages_performAll ?_ hss⟩
  refine ⟨⟨hshows.target, nofun, ?_⟩, [], (List.append_nil _).symm, .nil⟩
  have hpage := page_reset hopen hidle
  have hfeed : ∀ k, Feed.shift k {} = { deliveries := [], latest := k } := fun k => by
    simp only [Feed.shift, List.map_nil, Nat.zero_add]
  simp only [Stage.past, Stage.anew, Past.site, Past.page, Page.shift, hpage, hfeed, Nat.zero_add]
  rfl

/-- A batch without implementors. -/
def listing (trait : Text) : Value := .map [(.text trait, .list [])]

/-- A consumer that contributes when it is called, and fails. -/
def unruly : Script := .mk "renderer" [.mk none 1 [.act (.contribute (listing "V"))] true]

/-- A page with one contribution is reset. Then a consumer attaches and is called, and the server is
    polled from a number on. -/
theorem reset_starts_afresh_once :
    ∃ (start m : Machine) (stage : Stage) (poll poll' : Api.Draft),
      start.Reaches m ∧ m.site.page.table.traits = [("T" : Text)] ∧ stage.site.page.revision = 2 ∧
      poll.query = some [("since", "0")] ∧ stage.past.Drafts poll poll' ∧
      List.Forall₂ stage.past.Results
        (stage.anew.performAll
          [.attach unruly, .act (.contribute (listing "U")), .act (.request poll)]).2
        (stage.performAll
          [.attach unruly, .act (.contribute (listing "U")), .act (.request poll')]).2 := by
  obtain ⟨start, hstart⟩ : ∃ start : Machine, start =
      { site := {}, scripts := [], focus := .run (.act (.contribute (listing "T"))) } := ⟨_, rfl⟩
  obtain ⟨page, hpage⟩ : ∃ page : Page Listener, page =
      { table := .single "T" [], revision := 1, relay := { backlog := [.single "T" []] } } :=
    ⟨_, rfl⟩
  obtain ⟨m, hm⟩ : ∃ m : Machine, m =
      { site := { page }, scripts := [], focus := .reply (.ok (.table (.single "T" []))) } :=
    ⟨_, rfl⟩
  have hfresh : start.Fresh := by
    rw [hstart]
    exact ⟨rfl, rfl, rfl⟩
  have hto : start.Reaches m := by
    refine .single (.on ⟨fun a ha => ?_, by rw [hm, hstart, hpage]; rfl⟩)
    rw [hstart] at ha
    cases ha
    exact trivial
  have hreset : Api.Draft.request { method := "POST", target := "/api/reset" } =
      .ok { method := "POST", path := "/api/reset" } :=
    Api.Draft.request_path (by rfl) (by decide +kernel) (by rfl) (by decide +kernel) rfl
  have hpoll : Api.Draft.request
      { method := "GET", target := "/api/deliveries", query := some [("since", "0")] } =
        .ok { method := "GET", path := "/api/deliveries", query := [("since", "0")] } :=
    Api.Draft.request_path (by rfl) (by decide +kernel) (by rfl) (by decide +kernel) rfl
  obtain ⟨stage, notices, -, hrevision, hlatest, hafresh⟩ :=
    reset_starts_afresh hfresh hto (by rw [hm]; rfl) (by rw [hm, hpage]) hreset rfl
  have hseq : stage.past.offset.seq = 0 := by
    rw [hm] at hlatest
    exact hlatest
  have hfits : stage.past.offset.Fits
      { method := "GET", path := "/api/deliveries", query := [("since", "0")] } := by
    intro s n hs hn
    obtain ⟨-, rfl⟩ := Prod.mk.inj (List.mem_singleton.1 hs)
    obtain rfl : 0 = n := Except.ok.inj hn
    rw [hseq]
    exact Integer.isWritable_digit (by decide)
  have hdrafts := drafts_shifted stage.past hpoll hfits
  have hcontribute : ∀ v, stage.past.Steps (.act (.contribute v)) (.act (.contribute v)) :=
    fun v => .act (.same trivial)
  have hunruly : stage.past.Scripts unruly unruly :=
    .mk _ (.cons (.mk none 1 true (.cons (hcontribute _) .nil)) .nil)
  have hsteps := List.Forall₂.cons (Past.Steps.attach hunruly)
    (.cons (hcontribute (listing "U")) (.cons (.act (.request hdrafts)) .nil))
  refine ⟨start, m, stage, _, _, hto, ?_, ?_, rfl, hdrafts, (hafresh _ _ hsteps).2⟩
  · rw [hm, hpage]
    rfl
  · rw [hrevision, hm, hpage]

end TraitIndex.Scenario
