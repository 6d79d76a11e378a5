import TraitIndex.Proofs.Bystanders
import TraitIndex.Proofs.Fields
import TraitIndex.Proofs.Files

/-! Loading a path: all or nothing.

    The batches of a path are found before the first of them is contributed. So if any file fails,
    the page has not been touched; and as a page does not close by itself, it refuses all batches
    or none. As long as the consumer that is called with them leaves the page alone, they come in
    one after another without anything between them, in the order in which they were listed. -/

namespace TraitIndex

/-! ### Pages that take batches -/

namespace Page

variable {κ : Type} {p : Page κ}

/-- The page after some batches, with its relay as they have left it. -/
def taking (p : Page κ) (bs : List Batch) (relay : Relay κ) : Page κ :=
  { p with table := bs.foldl Table.merge p.table, revision := p.revision + bs.length, relay }

/-- The page after batches that wait in the backlog. -/
def keeping (p : Page κ) (bs : List Batch) : Page κ :=
  p.taking bs { p.relay with backlog := p.relay.backlog ++ bs }

/-- The page after batches that its consumer was called with at once. -/
def handing (p : Page κ) (bs : List Batch) : Page κ :=
  p.taking bs { p.relay with delivered := p.relay.delivered + bs.length }

/-- Whatever comes has to wait. -/
def Waits (p : Page κ) : Prop := p.relay.consumer = none ∨ p.relay.flushing = true

/-- A consumer is called with whatever comes. -/
structure Calls (p : Page κ) (c : κ) : Prop where
  isOpen : p.closed = false
  consumer : p.relay.consumer = some c
  quiet : p.relay.flushing = false

theorem keeping_keeping (p : Page κ) (b : Batch) (bs : List Batch) :
    (p.keeping [b]).keeping bs = p.keeping (b :: bs) := by
  simp only [keeping, taking, List.foldl_cons, List.foldl_nil, List.length_cons, List.length_nil,
    List.append_assoc, List.singleton_append, Page.mk.injEq, true_and, and_true]
  omega

theorem handing_handing (p : Page κ) (bs bs' : List Batch) :
    (p.handing bs).handing bs' = p.handing (bs ++ bs') := by
  simp only [handing, taking, List.foldl_append, List.length_append, Nat.add_assoc]

theorem keeping_nil (p : Page κ) : p.keeping [] = p := by
  simp only [keeping, taking, List.append_nil, List.foldl_nil, List.length_nil, Nat.add_zero]

theorem accept_of_waits (h : p.Waits) (b : Batch) : p.accept b = (p.keeping [b], none) := by
  obtain ⟨table, revision, ⟨consumer, backlog, flushing, delivered⟩, closed⟩ := p
  cases consumer with
  | none => rfl
  | some c =>
    obtain rfl : flushing = true := h.resolve_left (by simp)
    rfl

theorem contribute_of_calls {c : κ} (h : p.Calls c) (b : Batch) :
    p.contribute b = .ok (p.handing [b], some ⟨c, b, false⟩) := by
  obtain ⟨table, revision, ⟨consumer, backlog, flushing, delivered⟩, closed⟩ := p
  obtain ⟨rfl, rfl, rfl⟩ := h
  rfl

end Page

namespace Scenario

open Loading

/-! ### Consumers that leave the page alone -/

/-- Wherever it is done, the action ends at once and leaves the page as it is. -/
def Action.LeavesPage (a : Action) : Prop :=
  ∀ site : Site, (site.act a).1.page = site.page ∧ ∃ reply, (site.act a).2.1 = .ended reply

theorem Action.leavesPage_of_isLook {a : Action} (h : a.IsLook) : a.LeavesPage := fun site =>
  ⟨(looks_of_isLook h site).page, (looks_of_isLook h site).ended⟩

def Step.LeavesPage (s : Step) : Prop := ∃ a, s = .act a ∧ a.LeavesPage

/-- Used on any of the batches, the rule leaves the page as it is. -/
def Rule.LeavesPage (all : List Batch) (r : Rule) : Prop :=
  ∀ b ∈ all, ∀ r' f, r.use b = some (r', f) → ∀ s ∈ f.steps, s.LeavesPage

/-- A rule that has been used fits no other batches than before. -/
theorem Rule.leavesPage_use {all : List Batch} {b : Batch} {r r' : Rule} {f : Firing}
    (h : r.LeavesPage all) (huse : r.use b = some (r', f)) : r'.LeavesPage all := by
  intro b' hb' r'' f' huse'
  obtain ⟨trait, _ | times, steps, raises⟩ := r
  · cases huse
  · rw [Rule.use] at huse
    split at huse
    · cases huse
      cases times with
      | zero => cases huse'
      | succ times =>
        rw [Rule.use] at huse'
        split at huse'
        · rename_i hfits
          cases huse'
          exact h b' hb' _ _ (if_pos hfits)
        · cases huse'
    · cases huse

/-- The consumer does nothing to the page when it is called with any of the batches. -/
def Script.LeavesPage (all : List Batch) (s : Script) : Prop := ∀ r ∈ s.rules, r.LeavesPage all

theorem leavesPage_useRule {all : List Batch} {b : Batch} {n : Nat} {rs rs' : List Rule}
    {f : Firing} (h : ∀ r ∈ rs, r.LeavesPage all) (hb : b ∈ all)
    (huse : useRule b n rs = some (rs', f)) :
    (∀ r ∈ rs', r.LeavesPage all) ∧ ∀ s ∈ f.steps, s.LeavesPage := by
  obtain ⟨before, r, r', after, rfl, rfl, hused⟩ := exists_of_useRule huse
  obtain ⟨hbefore, hr, hafter⟩ := forall_mem_append_cons.1 h
  exact ⟨forall_mem_append_cons.2 ⟨hbefore, Rule.leavesPage_use hr hused, hafter⟩,
    hr b hb r' f hused⟩

/-! ### What a consumer hears -/

def Event.called? : Event → Option (Text × Batch)
  | .called name b => some (name, b)
  | .did _ _ => none

/-- The calls among what has happened. -/
def callsOf (events : List Event) : List (Text × Batch) := events.filterMap Event.called?

/-- The name of a scripted consumer. -/
def Stage.nameOf (stage : Stage) (id : Nat) : Text :=
  ((stage.scripts[id]?).map Script.name).getD ""

/-- From one stage on, the consumer and nobody else has been called with the batches, in this
    order. A feed keeps what it is called with. -/
def Stage.Heard (before : Stage) (c : Listener) (bs : List Batch) (after : Site)
    (events : List Event) : Prop :=
  match c with
  | .feed name =>
    after.feed name = bs.foldl Feed.record (before.site.feed name) ∧ callsOf events = []
  | .serverFeed =>
    after.serverFeed = bs.foldl Feed.record before.site.serverFeed ∧ callsOf events = []
  | .script id => callsOf events = bs.map fun b => (before.nameOf id, b)

/-- If a scripted consumer is called with whatever comes, it leaves the page alone. -/
def Stage.ConsumerLeavesPage (stage : Stage) (all : List Batch) : Prop :=
  ∀ id s, stage.site.page.Calls (.script id) → stage.scripts[id]? = some s → s.LeavesPage all

namespace Machine

/-- The machine has come from a stage by handing some batches to a consumer, and by nothing else
    that concerns the page. -/
structure Hears (m : Machine) (stage : Stage) (c : Listener) (all bs : List Batch) : Prop where
  page : m.site.page = stage.site.page.handing bs
  heard : stage.Heard c bs m.site m.events
  names : m.scripts.map Script.name = stage.scripts.map Script.name
  quiet : ∀ id s, c = .script id → m.scripts[id]? = some s → s.LeavesPage all

variable {m : Machine} {stage : Stage} {c : Listener} {id : Nat} {all bs rest : List Batch}
  {b : Batch} {pending : Pending} {frames : List Frame} {call : Call Listener}

theorem nameOf_eq (h : m.scripts.map Script.name = stage.scripts.map Script.name) (id : Nat) :
    m.nameOf id = stage.nameOf id := by
  rw [nameOf, Stage.nameOf, ← List.getElem?_map, ← List.getElem?_map, h]

/-- The calls have ended, and what was pending is done. -/
def Resumes (m : Machine) (stage : Stage) (c : Listener) (all bs : List Batch) (pending : Pending)
    (frames : List Frame) : Prop :=
  ∃ ended : Machine, ended.Hears stage c all bs ∧
    m.run = (ended.proceed frames (ended.site.resume pending).1
      (ended.site.resume pending).2).run

theorem resumes_of_step {m' : Machine} (hstep : m.step = some m')
    (h : m'.Resumes stage c all bs pending frames) : m.Resumes stage c all bs pending frames := by
  obtain ⟨ended, hended, hrun⟩ := h
  exact ⟨ended, hended, (run_of_step hstep).trans hrun⟩

/-- A call that did not come out of the backlog ends without another one, be it by a failure. -/
theorem resumes_endCall (h : m.Hears stage c all bs) (hcall : call.fromBacklog = false)
    (failed : Bool) :
    (m.endCall call pending failed frames).Resumes stage c all bs pending frames := by
  have hfinish : m.site.page.finish call = (m.site.page, none) := by
    rw [Page.finish, Relay.finish, hcall]
    rfl
  cases failed with
  | true =>
    refine ⟨{ m with notices := m.notices ++ [.consumerFailed call.batch.traits] },
      ⟨h.page, h.heard, h.names, h.quiet⟩, ?_⟩
    simp only [endCall, if_true, hfinish]
    rfl
  | false =>
    refine ⟨m, h, ?_⟩
    simp only [endCall, Bool.false_eq_true, if_false, hfinish]
    rfl

/-- The machine where a consumer goes on with what it is called for. -/
def calling (m : Machine) (call : Call Listener) (body : Body) (pending : Pending)
    (frames : List Frame) : Machine :=
  { m with focus := .advance, frames := .call call body pending :: frames }

/-- One step of a consumer that leaves the page alone: the consumer goes on, or its call ends. -/
theorem resumes_cons (h : m.Hears stage (.script id) all bs) (hcall : call.fromBacklog = false)
    {s : Step} (hs : s.LeavesPage) {steps : List Step} {raises : Bool} {later : List Nat}
    (hrest : ∀ m' : Machine, m'.Hears stage (.script id) all bs →
      (m'.calling call (.script id none steps raises later) pending frames).Resumes
        stage (.script id) all bs pending frames) (doing : Option Step) :
    (m.calling call (.script id doing (s :: steps) raises later) pending frames).Resumes
      stage (.script id) all bs pending frames := by
  obtain ⟨a, rfl, ha⟩ := hs
  have hleaves := ha m.site
  rcases hact : m.site.act a with ⟨site, progress, notices⟩
  rw [hact] at hleaves
  obtain ⟨hpage, r, rfl⟩ := hleaves
  obtain ⟨frame, hframe⟩ : ∃ frame : Frame, frame =
      .call call (.script id (some (.act a)) steps raises later) pending := ⟨_, rfl⟩
  have hbegun : Machine.step { m with focus := .run (.act a), frames := frame :: frames } =
      some { m with
        site
        focus := .reply r
        frames := frame :: frames
        notices := m.notices ++ notices } := by
    simp only [step, begin, hact]
    rfl
  have hdone : Hears { m with site, notices := m.notices ++ notices } stage (.script id) all bs :=
    ⟨hpage.trans h.page, h.heard, h.names, h.quiet⟩
  have htaken : (m.calling call (.script id doing (.act a :: steps) raises later) pending
      frames).step = some { m with focus := .run (.act a), frames := frame :: frames } := by
    rw [hframe]
    rfl
  refine resumes_of_step htaken (resumes_of_step hbegun ?_)
  rw [hframe]
  cases r with
  | error why => exact resumes_of_step rfl (resumes_endCall hdone hcall true)
  | ok reply =>
    refine resumes_of_step rfl (hrest { m with
      site
      events := m.events ++ [.did (.act a) reply]
      notices := m.notices ++ notices } ⟨hdone.page, ?_, h.names, h.quiet⟩)
    show callsOf (m.events ++ [Event.did (.act a) reply]) = _
    rw [callsOf, List.filterMap_append]
    exact (List.append_nil _).trans h.heard

theorem resumes_steps (hcall : call.fromBacklog = false) {raises : Bool} {later : List Nat}
    (hrest : ∀ (m' : Machine) (doing : Option Step), m'.Hears stage (.script id) all bs →
      (m'.calling call (.script id doing [] raises later) pending frames).Resumes
        stage (.script id) all bs pending frames)
    {steps : List Step} (hsteps : ∀ s ∈ steps, s.LeavesPage)
    (h : m.Hears stage (.script id) all bs) (doing : Option Step) :
    (m.calling call (.script id doing steps raises later) pending frames).Resumes
      stage (.script id) all bs pending frames := by
  induction steps generalizing m doing with
  | nil => exact hrest m doing h
  | cons s steps ih =>
    obtain ⟨hs, hsteps⟩ := List.forall_mem_cons.1 hsteps
    exact resumes_cons h hcall hs (fun m' h' => ih hsteps h' none) doing

/-- A consumer that has used a rule is called what it was, and still leaves the page alone. -/
theorem hears_fire {rule : Nat} {scripts : List Script} {f : Firing}
    (h : m.Hears stage (.script id) all bs) (hb : call.batch ∈ all)
    (hfire : fire call.batch rule id m.scripts = some (scripts, f)) :
    Hears { m with scripts } stage (.script id) all bs ∧ ∀ s ∈ f.steps, s.LeavesPage := by
  obtain ⟨before, name, rules, rules', after, hlength, hscripts, rfl, hused⟩ :=
    exists_of_fire hfire
  have hat : ∀ rs : List Rule,
      (before ++ Script.mk name rs :: after)[id]? = some (.mk name rs) := by
    intro rs
    rw [← hlength, List.getElem?_append_right (Nat.le_refl _), Nat.sub_self]
    rfl
  have hquiet : (Script.mk name rules).LeavesPage all := by
    refine h.quiet id _ rfl ?_
    rw [hscripts]
    exact hat rules
  obtain ⟨hrules', hf⟩ := leavesPage_useRule hquiet hb hused
  refine ⟨⟨h.page, h.heard, ?_, ?_⟩, hf⟩
  · have hnames := h.names
    rw [hscripts, List.map_append, List.map_cons] at hnames
    rw [List.map_append, List.map_cons, ← hnames]
    rfl
  · intro id' s hid hs
    obtain rfl := Listener.script.inj hid
    rw [hat rules'] at hs
    obtain rfl := Option.some.inj hs
    exact hrules'

/-- The rules of a consumer that leaves the page alone, one after another. -/
theorem resumes_rules (hcall : call.fromBacklog = false) (hb : call.batch ∈ all)
    (later : List Nat) (raises : Bool) (doing : Option Step)
    (h : m.Hears stage (.script id) all bs) :
    (m.calling call (.script id doing [] raises later) pending frames).Resumes
      stage (.script id) all bs pending frames := by
  -- the steps of a rule that is used come before the rules after it, so those are the hypothesis
  induction later generalizing m raises doing with
  | nil =>
    cases raises with
    | true => exact resumes_of_step rfl (resumes_endCall h hcall true)
    | false => exact resumes_of_step rfl (resumes_endCall h hcall false)
  | cons rule later ih =>
    cases raises with
    | true => exact resumes_of_step rfl (resumes_endCall h hcall true)
    | false =>
      refine resumes_of_step rfl (?_ : Resumes (advance _ _ _) _ _ _ _ _ _)
      simp only [calling, advance]
      rcases hfire : fire call.batch rule id m.scripts with _ | ⟨scripts, f⟩
      · exact ih false doing h
      · obtain ⟨hears, hsteps⟩ := hears_fire h hb hfire
        exact resumes_steps hcall (fun m' doing' h' => ih f.raises doing' h') hsteps hears doing

/-- A feed that is called keeps the batch, and its call has ended. -/
theorem resumes_feed (hcall : call.fromBacklog = false)
    (h : Hears { m with site := m.site.record call.consumer call.batch } stage c all bs) :
    (m.calling call .feed pending frames).Resumes stage c all bs pending frames := by
  obtain ⟨recorded, hrecorded⟩ : ∃ recorded : Machine, recorded =
      { m.calling call .feed pending frames with
        site := m.site.record call.consumer call.batch } := ⟨_, rfl⟩
  have hears : recorded.Hears stage c all bs := by
    rw [hrecorded]
    exact ⟨h.page, h.heard, h.names, h.quiet⟩
  refine resumes_of_step ?_ (resumes_endCall hears hcall false)
  rw [hrecorded]
  rfl

/-- A feed that is called has heard one batch more. -/
theorem hears_record (h : m.Hears stage c all bs) (hc : ∀ id, c ≠ .script id) (b : Batch) :
    Hears { m with site := Site.record { m.site with page := m.site.page.handing [b] } c b }
      stage c all (bs ++ [b]) := by
  obtain ⟨hpage, hheard, hnames, hquiet⟩ := h
  have hhanded : m.site.page.handing [b] = stage.site.page.handing (bs ++ [b]) := by
    rw [hpage, Page.handing_handing]
  cases c with
  | feed name =>
    obtain ⟨hfeed, hcalls⟩ := hheard
    refine ⟨hhanded, ⟨?_, hcalls⟩, hnames, hquiet⟩
    rw [List.foldl_append, ← hfeed]
    simp only [Site.record, Site.setFeed, Site.feed, Fields.get?_put_self, Option.getD_some,
      List.foldl_cons, List.foldl_nil]
  | serverFeed =>
    obtain ⟨hfeed, hcalls⟩ := hheard
    refine ⟨hhanded, ⟨?_, hcalls⟩, hnames, hquiet⟩
    rw [List.foldl_append, ← hfeed]
    rfl
  | script id => exact absurd rfl (hc id)

/-- A consumer that leaves the page alone is called with one batch more. -/
theorem resumes_call (h : m.Hears stage c all bs) (hb : b ∈ all) :
    (m.proceed frames { m.site with page := m.site.page.handing [b] }
        (.calling ⟨c, b, false⟩ pending)).Resumes stage c all (bs ++ [b]) pending frames := by
  cases c with
  | feed _ | serverFeed =>
    have hrecorded := hears_record h (by simp) b
    rw [← List.append_nil m.events] at hrecorded
    exact resumes_feed (m := { m with
      site := { m.site with page := m.site.page.handing [b] }
      events := m.events ++ [] }) rfl hrecorded
  | script id =>
    have hhanded : m.site.page.handing [b] = stage.site.page.handing (bs ++ [b]) := by
      rw [h.page, Page.handing_handing]
    refine resumes_rules rfl hb _ false none (m := { m with
      site := { m.site with page := m.site.page.handing [b] }
      events := m.events ++ [.called (m.nameOf id) b] }) ⟨hhanded, ?_, h.names, h.quiet⟩
    show callsOf (m.events ++ [Event.called (m.nameOf id) b]) = _
    rw [callsOf, List.filterMap_append, nameOf_eq h.names, List.map_append]
    exact congrArg (· ++ _) h.heard

end Machine

/-! ### Loading -/

/-- The batches come in one after another and wait. -/
theorem load_of_waits {site : Site} (hopen : site.page.closed = false) (hwaits : site.page.Waits)
    (count : Nat) (bs : List Batch) : site.load count bs =
      ({ site with page := site.page.keeping bs },
        .ended (.ok (.count (count + Table.recordsOf bs)))) := by
  induction bs generalizing site count with
  | nil =>
    rw [Page.keeping_nil]
    rfl
  | cons b rest ih =>
    obtain ⟨kept, hkept⟩ : ∃ kept : Site, kept = { site with page := site.page.keeping [b] } :=
      ⟨_, rfl⟩
    have hpage : kept.page = site.page.keeping [b] := congrArg Site.page hkept
    have hload := @ih kept (hpage ▸ hopen) (hpage ▸ hwaits) (count + b.recordCount)
    rw [hpage, Page.keeping_keeping, Nat.add_assoc] at hload
    rw [Site.load, Page.contribute, if_neg (by simp [hopen]), Page.accept_of_waits hwaits,
      Table.recordsOf_cons]
    rw [hkept] at hload
    exact hload

namespace Machine

variable {m : Machine} {stage : Stage} {c : Listener} {all bs : List Batch} {frames : List Frame}

/-- The batches come in one after another, and the consumer is called with each. -/
theorem run_load (hcalls : stage.site.page.Calls c) (rest : List Batch)
    (hrest : ∀ b ∈ rest, b ∈ all) (count : Nat) (h : m.Hears stage c all bs) :
    ∃ ended : Machine, ended.Hears stage c all (bs ++ rest) ∧
      (m.proceed frames (m.site.load count rest).1 (m.site.load count rest).2).run =
        (ended.proceed frames ended.site
          (.ended (.ok (.count (count + Table.recordsOf rest))))).run := by
  -- where one call has ended, the rest is loaded on the page that it has left as it was
  induction rest generalizing m bs count with
  | nil =>
    refine ⟨m, ?_, rfl⟩
    rwa [List.append_nil]
  | cons b rest ih =>
    obtain ⟨hb, hrest⟩ := List.forall_mem_cons.1 hrest
    have hpage : m.site.page.Calls c := by
      rw [h.page]
      exact ⟨hcalls.isOpen, hcalls.consumer, hcalls.quiet⟩
    have hcall : Resumes _ stage c all _ (.load rest (count + b.recordCount)) frames :=
      resumes_call h hb
    obtain ⟨called, hcalled, hrun⟩ := hcall
    obtain ⟨ended, hended, hrun'⟩ := ih hrest (count + b.recordCount) hcalled
    refine ⟨ended, by rwa [List.append_assoc] at hended, ?_⟩
    rw [Site.load, Page.contribute_of_calls hpage, Table.recordsOf_cons, ← Nat.add_assoc]
    exact hrun.trans hrun'

end Machine

/-! ### Steps of a scenario -/

variable {stage : Stage} {path : Text} {bs : List Batch}

theorem Stage.heard_nothing (stage : Stage) (c : Listener) : stage.Heard c [] stage.site [] := by
  cases c with
  | feed name => exact ⟨rfl, rfl⟩
  | serverFeed => exact ⟨rfl, rfl⟩
  | script id => rfl

/-- What a path holds is loaded. -/
theorem act_loadPath {site : Site} (htarget : site.target = .page)
    (h : (batches site.disk (Path.ofText path)).result = .ok bs) :
    ∃ notices, site.act (.loadPath path) = ((site.load 0 bs).1, (site.load 0 bs).2, notices) := by
  refine ⟨(batches site.disk (Path.ofText path)).notices, ?_⟩
  show site.loadPath path = _
  simp only [Site.loadPath, h, htarget, true_or, if_true]

/-- Batches that have to wait are loaded at once. -/
theorem perform_loadPath_waits (htarget : stage.site.target = .page)
    (h : (batches stage.site.disk (Path.ofText path)).result = .ok bs)
    (hopen : stage.site.page.closed = false) (hwaits : stage.site.page.Waits) :
    ∃ notices, stage.perform (.act (.loadPath path)) =
      (⟨{ stage.site with page := stage.site.page.keeping bs }, stage.scripts⟩,
        { reply := .ok (.count (Table.recordsOf bs)), events := [], notices }) := by
  obtain ⟨notices, hact⟩ := act_loadPath htarget h
  rw [load_of_waits hopen hwaits, Nat.zero_add] at hact
  exact perform_of_act stage hact

/-- Batches that a consumer is called with are loaded one after another. -/
theorem perform_loadPath_calls {c : Listener} (htarget : stage.site.target = .page)
    (h : (batches stage.site.disk (Path.ofText path)).result = .ok bs)
    (hcalls : stage.site.page.Calls c) (hleaves : stage.ConsumerLeavesPage bs) :
    ∃ (stage' : Stage) (events : List Event) (notices : List Notice),
      stage.perform (.act (.loadPath path)) =
          (stage', { reply := .ok (.count (Table.recordsOf bs)), events, notices }) ∧
        stage'.site.page = stage.site.page.handing bs ∧ stage.Heard c bs stage'.site events := by
  obtain ⟨notices, hact⟩ := act_loadPath htarget h
  obtain ⟨start, hstart⟩ : ∃ start : Machine, start =
      { stage.machine (.act (.loadPath path)) with notices } := ⟨_, rfl⟩
  have hears : start.Hears stage c bs [] := by
    rw [hstart]
    exact ⟨rfl, stage.heard_nothing c, rfl, fun id s hid => hleaves id s (hid ▸ hcalls)⟩
  obtain ⟨ended, hended, hrun⟩ := @Machine.run_load start stage c bs [] [] hcalls bs
    (fun _ hb => hb) 0 hears
  refine ⟨⟨ended.site, ended.scripts⟩, ended.events, ended.notices, ?_, hended.page, hended.heard⟩
  have hbegin : (stage.machine (.act (.loadPath path))).begin (.act (.loadPath path)) =
      start.proceed [] (start.site.load 0 bs).1 (start.site.load 0 bs).2 := by
    rw [hstart]
    simp only [Machine.begin, Stage.machine, hact, List.nil_append]
  rw [Stage.perform, run_act, hbegin, hrun, Machine.run_of_end rfl, Nat.zero_add]
  rfl

/-- Loading a path into a page is all or nothing. If the path cannot be loaded, because of whatever
    file, the load fails as that does, and the stage is as it was. If the page is closed, it refuses
    any batches there are, and the stage is as it was. Otherwise, as long as the consumer that is
    called with the batches leaves the page alone, the load replies by how many records the table
    has grown, and the page has taken in all batches, in order: they have joined the backlog if they
    have to wait, or else the consumer has been called with one after another. -/
theorem path_loaded_whole_or_not (stage : Stage) (path : Text)
    (htarget : stage.site.target = .page) :
    (∀ why, (batches stage.site.disk (Path.ofText path)).result = .error why →
      ∃ notices, stage.perform (.act (.loadPath path)) =
        (stage, { reply := .error why, events := [], notices })) ∧
    ∀ bs, (batches stage.site.disk (Path.ofText path)).result = .ok bs →
      (stage.site.page.closed = true → bs ≠ [] →
        ∃ notices, stage.perform (.act (.loadPath path)) =
          (stage, { reply := .error .contributionRefused, events := [], notices })) ∧
      (stage.site.page.closed = false ∨ bs = [] → stage.ConsumerLeavesPage bs →
        ∃ (stage' : Stage) (n : Nat) (events : List Event) (notices : List Notice),
          stage.perform (.act (.loadPath path)) =
              (stage', { reply := .ok (.count n), events, notices }) ∧
            stage'.site.page.table.recordCount = stage.site.page.table.recordCount + n ∧
            (stage.site.page.Waits →
              stage'.site.page = stage.site.page.keeping bs ∧ events = []) ∧
            ∀ c, stage.site.page.relay.consumer = some c →
              stage.site.page.relay.flushing = false →
                stage'.site.page = stage.site.page.handing bs ∧
                  stage.Heard c bs stage'.site events) := by
  constructor
  · intro why hwhy
    have hact : stage.site.act (.loadPath path) = (stage.site, .ended (.error why),
        (batches stage.site.disk (Path.ofText path)).notices) := by
      show stage.site.loadPath path = _
      simp only [Site.loadPath, hwhy]
    exact perform_of_act stage hact
  intro bs hbs
  constructor
  · intro hclosed hne
    obtain ⟨b, rest, rfl⟩ := List.exists_cons_of_ne_nil hne
    obtain ⟨notices, hact⟩ := act_loadPath htarget hbs
    rw [Site.load, Page.contribute, if_pos hclosed] at hact
    exact perform_of_act stage hact
  · intro hopen hleaves
    by_cases hnone : bs = []
    · subst hnone
      obtain ⟨notices, hact⟩ := act_loadPath htarget hbs
      obtain ⟨notices', hperform⟩ := perform_of_act stage hact
      exact ⟨stage, 0, [], notices', hperform, rfl,
        fun _ => ⟨(Page.keeping_nil _).symm, rfl⟩, fun c _ _ => ⟨rfl, stage.heard_nothing c⟩⟩
    have hopen : stage.site.page.closed = false := hopen.resolve_right hnone
    have hgrowth := Table.recordCount_foldl_merge bs stage.site.page.table
    by_cases hwaits : stage.site.page.Waits
    · obtain ⟨notices, hperform⟩ := perform_loadPath_waits htarget hbs hopen hwaits
      refine ⟨_, _, _, notices, hperform, hgrowth, fun _ => ⟨rfl, rfl⟩, fun c hc hquiet => ?_⟩
      rcases hwaits with hnobody | hflushing
      · exact absurd (hnobody.symm.trans hc) (by simp)
      · exact absurd (hquiet.symm.trans hflushing) (by decide)
    · rw [Page.Waits, not_or, Bool.not_eq_true] at hwaits
      obtain ⟨c, hc⟩ := Option.ne_none_iff_exists'.1 hwaits.1
      obtain ⟨stage', events, notices, hperform, hpage, hheard⟩ :=
        perform_loadPath_calls htarget hbs ⟨hopen, hc, hwaits.2⟩ hleaves
      refine ⟨stage', _, events, notices, hperform, ?_, fun h => ?_, fun c' hc' _ => ?_⟩
      · rw [hpage]
        exact hgrowth
      · exact absurd h (by simp [Page.Waits, hwaits])
      · obtain rfl : c = c' := Option.some.inj (hc.symm.trans hc')
        exact ⟨hpage, hheard⟩

/-- The files of a directory with two fragments, of which the later in order is listed first. -/
theorem batches_of_two {d : Disk} {name first second : Text}
    (hfound : d.find (Path.ofText name) = .ok (.directory [(second, .file "".toUTF8),
      (first, .file "".toUTF8)]))
    (hfirst : Path.isFragmentName first = true) (hsecond : Path.isFragmentName second = true)
    (horder : Path.inOrder [second] [first] = false) :
    batches d (Path.ofText name) = fragments d
      [(Path.ofText name).below [first], (Path.ofText name).below [second]] := by
  have hways : (Tree.filesOf [(second, .file "".toUTF8), (first, .file "".toUTF8)]).filter
      (fun way => way.getLast?.any Path.isFragmentName) = [[second], [first]] := by
    simp [Tree.filesOf, Tree.files, hfirst, hsecond]
  have hsorted : [[second], [first]].mergeSort Path.inOrder = [[first], [second]] := by
    simp [List.mergeSort, List.MergeSort.Internal.splitInTwo, horder]
  have hdirectory : d.isDirectory (Path.ofText name) = true := by
    simp [Disk.isDirectory, hfound]
  have hpaths : fragmentPaths d (Path.ofText name) =
      .ok [(Path.ofText name).below [first], (Path.ofText name).below [second]] := by
    rw [fragmentPaths, hfound]
    simp only [hways, hsorted, List.map_cons, List.map_nil]
  rw [batches, if_pos hdirectory, hpaths]
  rfl

/-- A directory of two fragments, and one where a fragment is followed by a file whose name tells
    no trait. -/
def twoLibraries : Disk := { root := .directory [
  ("good", .directory [("trait.B.js", .file "".toUTF8), ("trait.A.js", .file "".toUTF8)]),
  ("bad", .directory [("trait..js", .file "".toUTF8), ("A.js", .file "".toUTF8)])] }

theorem batches_good : (batches twoLibraries (Path.ofText "good")).result =
    .ok [.single "A" [], .single "B" []] := by
  have hfirst := fragment_of_empty_file (d := twoLibraries)
    (p := (Path.ofText "good").below ["trait.A.js"]) "A" (by decide) rfl (by decide) (by decide)
  have hsecond := fragment_of_empty_file (d := twoLibraries)
    (p := (Path.ofText "good").below ["trait.B.js"]) "B" (by decide) rfl (by decide) (by decide)
  rw [batches_of_two rfl (by decide) (by decide) (by decide), fragments, hfirst, fragments, hsecond]
  rfl

theorem batches_bad : (batches twoLibraries (Path.ofText "bad")).result =
    .error (.unnamedTrait "bad/trait..js") := by
  have hfirst := fragment_of_empty_file (d := twoLibraries)
    (p := (Path.ofText "bad").below ["A.js"]) "A" (by decide) rfl (by decide) (by decide)
  have hread : twoLibraries.readText ((Path.ofText "bad").below ["trait..js"]) = .ok "" :=
    Disk.readText_of_empty_file (by decide) rfl
  have hsecond : fragment twoLibraries ((Path.ofText "bad").below ["trait..js"]) none =
      ⟨.error (.unnamedTrait "bad/trait..js"), []⟩ := fragment_of_unnamed hread rfl
  rw [batches_of_two rfl (by decide) (by decide) (by decide), fragments, hfirst, fragments, hsecond]
  rfl

/-- A page with a consumer that looks at the table when it is called, and then fails. -/
def watchedStage : Stage where
  site := { page := { relay := { consumer := some (.script 0) } }, disk := twoLibraries }
  scripts := [.mk "watcher" [.mk none 2 [.act .snapshot] true]]

/-- The page is as it was after the one directory, and its consumer is called twice after the
    other. -/
theorem path_loaded_whole_or_not_watched :
    (∃ notices, watchedStage.perform (.act (.loadPath "bad")) =
      (watchedStage,
        { reply := .error (.unnamedTrait "bad/trait..js"), events := [], notices })) ∧
    ∃ stage' events notices, watchedStage.perform (.act (.loadPath "good")) =
        (stage', { reply := .ok (.count 0), events, notices }) ∧
      stage'.site.page.table.traits = [("A" : Text), "B"] ∧ stage'.site.page.revision = 2 ∧
      callsOf events = [(("watcher" : Text), .single "A" []), ("watcher", .single "B" [])] := by
  refine ⟨(path_loaded_whole_or_not watchedStage "bad" rfl).1 _ batches_bad, ?_⟩
  have hleaves : watchedStage.ConsumerLeavesPage [.single "A" [], .single "B" []] := by
    intro id s hcalls hs
    obtain rfl : 0 = id := Listener.script.inj (Option.some.inj hcalls.consumer)
    obtain rfl := Option.some.inj hs
    intro r hr b _ r' f huse s hs
    obtain rfl := List.mem_singleton.1 hr
    cases huse
    obtain rfl := List.mem_singleton.1 hs
    exact ⟨.snapshot, rfl, Action.leavesPage_of_isLook trivial⟩
  obtain ⟨stage', n, events, notices, hperform, hgrowth, -, hcalled⟩ :=
    ((path_loaded_whole_or_not watchedStage "good" rfl).2 _ batches_good).2 (.inl rfl) hleaves
  obtain ⟨hpage, hheard⟩ := hcalled (.script 0) rfl rfl
  rw [hpage] at hgrowth
  obtain rfl : 0 = n := hgrowth.trans (Nat.zero_add n)
  exact ⟨stage', events, notices, hperform, by rw [hpage]; rfl, by rw [hpage]; rfl, hheard⟩

end Scenario
end TraitIndex
