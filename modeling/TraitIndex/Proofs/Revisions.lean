import TraitIndex.Proofs.Bystanders
import TraitIndex.Proofs.Reading
import TraitIndex.Proofs.Sessions

/-! The revision marks changes.

    Whoever keeps a copy of the table looks at the revision to see whether to fetch it again. The
    table changes only by batches that are merged into it and by starting over, and each of these
    counts once, whoever is called afterwards. So of two moments the later one has the higher
    revision, or the two have the same table. -/

namespace TraitIndex

namespace Page

variable {κ : Type}

/-- What changes a table. -/
inductive Change where
  | merged (b : Batch)
  | cleared

/-- The table after a change. -/
def Change.apply (t : Table) : Change → Table
  | .merged b => t.merge b
  | .cleared => .empty

/-- A page as it is some changes after another: the revision counts them, and if it is the same, so
    is the table. -/
structure ComesFrom (q p : Page κ) (log : List Change) : Prop where
  revision : q.revision = p.revision + log.length
  table : q.table = log.foldl Change.apply p.table
  increases : p.revision ≤ q.revision
  marks : q.revision = p.revision → q.table = p.table

variable {p q r : Page κ} {log log' : List Change}

theorem comesFrom (hrevision : q.revision = p.revision + log.length)
    (htable : q.table = log.foldl Change.apply p.table) : q.ComesFrom p log where
  revision := hrevision
  table := htable
  increases := by omega
  marks := by
    intro hsame
    obtain rfl := List.eq_nil_of_length_eq_zero (by omega : log.length = 0)
    exact htable

/-- What has the same revision and the same table has not changed. -/
theorem comesFrom_nil (hrevision : q.revision = p.revision) (htable : q.table = p.table) :
    q.ComesFrom p [] := comesFrom hrevision htable

theorem ComesFrom.trans (h : q.ComesFrom p log) (h' : r.ComesFrom q log') :
    r.ComesFrom p (log ++ log') := by
  refine comesFrom ?_ ?_
  · rw [h'.revision, h.revision, List.length_append, Nat.add_assoc]
  · rw [h'.table, h.table, List.foldl_append]


/-! ### What a page does -/

theorem comesFrom_accept (p : Page κ) (b : Batch) : (p.accept b).1.ComesFrom p [.merged b] :=
  comesFrom rfl rfl

theorem comesFrom_clearTable (p : Page κ) : p.clearTable.ComesFrom p [.cleared] :=
  comesFrom rfl rfl

theorem comesFrom_reset (p : Page κ) : p.reset.ComesFrom p [.cleared] := comesFrom rfl rfl

theorem comesFrom_relay (p : Page κ) (relay : Relay κ) : { p with relay }.ComesFrom p [] :=
  comesFrom_nil rfl rfl

/-- What a contribution changes. -/
def contributing (p : Page κ) (b : Batch) : List Change := if p.closed then [] else [.merged b]

/-- What closing changes. -/
def closing (p : Page κ) : List Change := if p.closed then [] else [.cleared]

theorem comesFrom_close (p : Page κ) : p.close.ComesFrom p p.closing := by
  unfold Page.close closing
  split
  · exact comesFrom_nil rfl rfl
  · exact comesFrom rfl rfl

/-! ### Runs of a page -/

namespace World

/-- What a move changes. -/
def changes (w : World κ) : Move κ → List Change
  | .contribute b => w.page.contributing b
  | .attach _ => []
  | .reset => [.cleared]
  | .close => w.page.closing
  | .finish _ => []

/-- What moves change. -/
def allChanges (w : World κ) : List (Move κ) → List Change
  | [] => []
  | m :: moves => w.changes m ++ (w.step m).allChanges moves

theorem comesFrom_step (w : World κ) (m : Move κ) :
    (w.step m).page.ComesFrom w.page (w.changes m) := by
  cases m with
  | contribute b =>
    rw [changes, contributing]
    by_cases hclosed : w.page.closed = true
    · have hstep : w.step (.contribute b) = w := by
        rw [step, contribute, if_pos hclosed]
      rw [hstep, if_pos hclosed]
      exact comesFrom_nil rfl rfl
    · rw [page_step_contribute (by simpa using hclosed), if_neg hclosed]
      exact comesFrom_accept w.page b
  | attach c =>
    by_cases hclosed : w.page.closed = true
    · have hstep : w.step (.attach c) = w := by
        rw [step, attach, if_pos hclosed]
      rw [hstep]
      exact comesFrom_nil rfl rfl
    · rw [page_step_attach (by simpa using hclosed)]
      exact comesFrom_relay w.page _
  | reset => exact comesFrom_reset w.page
  | close =>
    have hpage : (w.step .close).page = w.page.close := by
      by_cases hclosed : w.page.closed = true
      · rw [step, if_pos hclosed, Page.close, if_pos hclosed]
      · rw [step, if_neg hclosed]
        rfl
    rw [hpage]
    exact comesFrom_close w.page
  | finish failed =>
    simp only [step]
    split
    · exact comesFrom_nil rfl rfl
    · exact comesFrom_relay w.page _

theorem comesFrom_foldl (w : World κ) (moves : List (Move κ)) :
    (moves.foldl step w).page.ComesFrom w.page (w.allChanges moves) := by
  induction moves generalizing w with
  | nil => exact comesFrom_nil rfl rfl
  | cons m moves ih => exact (w.comesFrom_step m).trans (ih (w.step m))

end World

/-- What loading batches changes, as far as it goes without running a consumer. -/
def loading (p : Page κ) : List Batch → List Change
  | [] => []
  | b :: rest =>
    match p.contribute b with
    | .error _ => []
    | .ok (q, none) => .merged b :: q.loading rest
    | .ok (_, some _) => [.merged b]

end Page

open Page (Change)

/-- What an operation of the server changes. -/
def Api.Plan.changes : Api.Plan → List Change
  | .contribute b _ => [.merged b]
  | .reset => [.cleared]
  | .answer _ | .poll _ => []

namespace Api

variable {κ : Type} {page : Page κ} {feed : Feed} {attached : Bool} {r : Request}

theorem changes_pollPlan (page : Page κ) (feed : Feed) (attached : Bool) (r : Request) :
    (pollPlan page feed attached r).changes = [] := by
  unfold pollPlan
  split
  · rfl
  · split
    · rfl
    · split
      · rfl
      · rfl

theorem changes_planAt {route : Route} {p : Plan} (hroute : r.method ∈ route.methods)
    (hpost : r.method ≠ "POST") (h : (planAt route page feed attached r).result = .ok p) :
    p.changes = [] := by
  cases route with
  | batches | fragments | reset => exact absurd (List.mem_singleton.1 hroute) hpost
  | deliveries =>
    rw [← Except.ok.inj h]
    exact changes_pollPlan page feed attached r
  | implementors | description | health | events | traits =>
    rw [← Except.ok.inj h]
    rfl

/-- A request changes nothing unless it is posted. A poll changes nothing, though it attaches the
    feed. -/
theorem changes_plan (hpost : r.method ≠ "POST") (page : Page κ) (feed : Feed) (attached : Bool) :
    (plan page feed attached r).1.changes = [] := by
  unfold plan
  split
  · rfl
  · rename_i route hfind
    have hplanned : ∀ p, (planAt route page feed attached r).result = .ok p → p.changes = [] :=
      fun p => changes_planAt (found_of_find hfind).2 hpost
    simp only
    split
    · rfl
    · rename_i p _ hp
      exact hplanned p hp
    · rfl

end Api

namespace Scenario

variable {κ : Type}

/-! ### Actions on a page -/

/-- What doing what was pending changes. -/
def Pending.changes (page : Page Listener) : Pending → List Change
  | .load rest _ => page.loading rest
  | .reply _ | .answer .. => []

namespace Site

/-- What a request changes. -/
def serving (site : Site) (r : Api.Request) : List Change :=
  (Api.plan site.page site.serverFeed (site.page.relay.consumer = some .serverFeed) r).1.changes

/-- What the call of a client changes. -/
def asking (site : Site) (call : Client.Call) : List Change :=
  match site.requestFor call with
  | .error _ => []
  | .ok (r, base) => site.serving (r.behind base)

/-- What an action changes, as far as it goes without running a consumer. -/
def changes (site : Site) : Action → List Change
  | .contribute v | .contributeServed v =>
    match (Intake.batch v).result with
    | .error _ => []
    | .ok b => site.page.contributing b
  | .contributePast v =>
    match (Intake.batch v).result with
    | .error _ => []
    | .ok b => [.merged b]
  | .reset | .resetTable => [.cleared]
  | .close => site.page.closing
  | .request d =>
    match d.request with
    | .error _ => []
    | .ok r => site.serving r
  | .loadFragment path trait =>
    match (Loading.fragment site.disk (Path.ofText path) trait).result with
    | .error _ => []
    | .ok b => site.page.loading [b]
  | .loadPath path =>
    match (Loading.batches site.disk (Path.ofText path)).result with
    | .error _ => []
    | .ok bs => site.page.loading bs
  | .client call => site.asking call
  | .clientLoadFragment path trait =>
    match Client.Call.ofFile site.disk (Path.ofText path) trait with
    | .error _ => []
    | .ok call => site.asking call
  | _ => []

/-- The page of the site has changed, and what is under test is the same. -/
structure Changed (site : Site) (log : List Change) (site' : Site) : Prop where
  target : site'.target = site.target
  page : site'.page.ComesFrom site.page log

theorem changed_nil (site : Site) : site.Changed [] site := ⟨rfl, Page.comesFrom_nil rfl rfl⟩

theorem changed_of_looks {site : Site} {r : Site × Progress × List Notice} (h : site.Looks r) :
    site.Changed [] r.1 :=
  ⟨h.target, Page.comesFrom_nil (congrArg Page.revision h.page) (congrArg Page.table h.page)⟩

theorem changed_after {site : Site} {moved : Page Listener × Option (Call Listener)}
    {log : List Change} (h : moved.1.ComesFrom site.page log) (pending : Pending)
    (reply : Except Fault Reply) : site.Changed log (site.after moved pending reply).1 := by
  obtain ⟨page, _ | call⟩ := moved
  · exact ⟨rfl, h⟩
  · exact ⟨rfl, h⟩

theorem changed_load (site : Site) (count : Nat) (rest : List Batch) :
    site.Changed (site.page.loading rest) (site.load count rest).1 := by
  induction rest generalizing site count with
  | nil => exact site.changed_nil
  | cons b rest ih =>
    rw [load, Page.loading]
    rcases h : site.page.contribute b with why | ⟨page, next⟩
    · exact site.changed_nil
    · obtain ⟨-, hmoved⟩ := Page.contribute_ok h
      have hpage := Page.comesFrom_accept site.page b
      rw [← hmoved] at hpage
      cases next with
      | none =>
        obtain ⟨htarget, hrest⟩ := ih { site with page } (count + b.recordCount)
        exact ⟨htarget, hpage.trans hrest⟩
      | some call => exact ⟨rfl, hpage⟩

theorem changed_servePage (site : Site) (r : Api.Request) (asker : Asker) :
    site.Changed (site.serving r) (site.servePage r asker).1 := by
  rw [serving]
  rcases hp : Api.plan site.page site.serverFeed (site.page.relay.consumer = some .serverFeed) r
    with ⟨plan, notices⟩
  simp only [servePage, hp]
  cases plan with
  | answer response => exact site.changed_nil
  | contribute b receipt => exact changed_after (Page.comesFrom_accept site.page b) _ _
  | poll n => exact changed_after (Page.comesFrom_relay site.page _) _ _
  | reset => exact ⟨rfl, Page.comesFrom_reset site.page⟩

theorem contribute_error {site : Site} {past : Bool} {batch : Outcome Batch} {why : Fault}
    (hb : batch.result = .error why) : (site.contribute past batch).1 = site := by
  unfold contribute
  split
  · rfl
  · rw [hb]

section OnPage

variable {site : Site} (hpage : site.target = .page)

include hpage

theorem changed_serve (r : Api.Request) (asker : Asker) :
    site.Changed (site.serving r) (site.serve r asker).1 := by
  rw [serve, if_pos hpage]
  exact site.changed_servePage r asker

theorem changed_ask (call : Client.Call) : site.Changed (site.asking call) (site.ask call).1 := by
  unfold ask asking
  rcases site.requestFor call with why | ⟨r, base⟩
  · exact site.changed_nil
  · exact changed_serve hpage _ _

theorem changed_attach (listener : Listener) : site.Changed [] (site.attach listener).1 := by
  unfold attach
  rw [hpage]
  simp only
  split
  · exact site.changed_nil
  · rename_i moved h
    obtain ⟨-, rfl⟩ := Page.attach_ok h
    exact changed_after (Page.comesFrom_relay site.page _) _ _

theorem changed_contribute_accepted {past : Bool} {batch : Outcome Batch} {b : Batch}
    (hb : batch.result = .ok b) (hallowed : past = false → site.page.closed = false) :
    site.Changed [.merged b] (site.contribute past batch).1 := by
  have hnot : ¬ (site.target = .page ∧ past = false ∧ site.page.closed = true) := by
    rintro ⟨-, hpast, hclosed⟩
    exact absurd (hallowed hpast) (by simp [hclosed])
  rw [contribute, if_neg hnot, hb]
  simp only [hpage, if_true]
  exact changed_after (Page.comesFrom_accept site.page b) _ _

theorem changed_contribute (v : Value) : site.Changed (site.changes (.contribute v))
    (site.contribute false (Intake.batch v)).1 := by
  rw [changes]
  rcases hb : (Intake.batch v).result with why | b
  · rw [contribute_error hb]
    exact site.changed_nil
  · simp only [Page.contributing]
    by_cases hclosed : site.page.closed = true
    · rw [if_pos hclosed, contribute, if_pos ⟨hpage, rfl, hclosed⟩]
      exact site.changed_nil
    · rw [if_neg hclosed]
      exact changed_contribute_accepted hpage hb fun _ => by simpa using hclosed

/-- Every action changes what it says. -/
theorem changed_act (a : Action) : site.Changed (site.changes a) (site.act a).1 := by
  have htable : ¬ site.target = .table := by
    rw [hpage]
    decide
  have hrelay : ¬ site.target = .relay := by
    rw [hpage]
    decide
  cases a with
  | contribute v =>
    simp only [act, hrelay, if_false]
    exact changed_contribute hpage _
  | contributePast v =>
    simp only [act, hrelay, if_false, changes]
    rcases hb : (Intake.batch v).result with why | b
    · rw [contribute_error hb]
      exact site.changed_nil
    · exact changed_contribute_accepted hpage hb (by simp)
  | contributeServed v =>
    simp only [act, hpage, if_true]
    exact changed_contribute hpage _
  | attachFeed name => exact changed_attach hpage _
  | deliver v =>
    simp only [act, htable, if_false, withBatch]
    split
    · exact site.changed_nil
    · exact changed_after (Page.comesFrom_relay site.page _) _ _
  | reset =>
    simp only [act, hpage]
    exact ⟨rfl, Page.comesFrom_reset site.page⟩
  | close =>
    simp only [act, hpage]
    exact ⟨rfl, Page.comesFrom_close site.page⟩
  | closeRelay =>
    simp only [act, htable, if_false]
    exact ⟨rfl, Page.comesFrom_relay site.page _⟩
  | resetTable =>
    simp only [act, hrelay, if_false]
    exact ⟨rfl, Page.comesFrom_clearTable site.page⟩
  | attachValue | get v | has v | traits | snapshot | sharesRelay | backlog | hasConsumer
  | callFeed name v | latest name | since name v | clearFeed name | clientUrl =>
    refine changed_of_looks (Action.looks_of_isLook ?_ site)
    trivial
  | request d =>
    simp only [act, changes]
    rcases d.request with why | r
    · exact site.changed_nil
    · exact changed_serve hpage _ _
  | loadFragment path trait =>
    simp only [act, hpage, if_true, loadFragment, changes]
    rcases (Loading.fragment site.disk (Path.ofText path) trait).result with why | b
    · exact site.changed_nil
    · exact site.changed_load 0 [b]
  | loadPath path =>
    simp only [act, loadPath, changes]
    rcases (Loading.batches site.disk (Path.ofText path)).result with why | bs
    · exact site.changed_nil
    · simp only [hpage, true_or, if_true]
      exact site.changed_load 0 bs
  | client call => exact changed_ask hpage call
  | clientLoadFragment path trait =>
    simp only [act, clientLoadFragment, changes]
    rcases Client.Call.ofFile site.disk (Path.ofText path) trait with why | call
    · exact site.changed_nil
    · exact changed_ask hpage call

end OnPage

theorem changed_resume (site : Site) (pending : Pending) :
    site.Changed (pending.changes site.page) (site.resume pending).1 := by
  cases pending with
  | reply r => exact site.changed_nil
  | load rest count => exact site.changed_load count rest
  | answer awaited asker => exact site.changed_nil

end Site

/-! ### Sessions -/

namespace Machine

variable {m m' : Machine}

/-- What it changes that the relay has gone on from a call: what was pending is done if no other
    call has started. -/
def goingOn (pending : Pending) : Page Listener × Option (Call Listener) → List Change
  | (_, some _) => []
  | (page, none) => pending.changes page

/-- What the end of a call changes. -/
def ending (m : Machine) (call : Call Listener) (pending : Pending) : List Change :=
  goingOn pending (m.site.page.finish call)

/-- What it changes that a reply is taken. -/
def receiving (m : Machine) (r : Except Fault Reply) : Frame → List Change
  | .call call body pending =>
    match body, r with
    | .script .., .ok _ => []
    | _, _ => m.ending call pending
  | .within .. =>
    match r with
    | .ok _ => []
    | .error _ => m.site.page.closing

/-- What it changes that something begun goes on. -/
def advancing (m : Machine) : Frame → List Change
  | .call call body pending =>
    match body with
    | .feed | .script _ _ [] true _ | .script _ _ [] false [] => m.ending call pending
    | .script .. => []
  | .within [] _ => m.site.page.closing
  | .within (_ :: _) _ => []

/-- What the next step changes. -/
def changes (m : Machine) : List Change :=
  match m.focus, m.frames with
  | .run (.act a), _ => m.site.changes a
  | .reply r, f :: _ => m.receiving r f
  | .advance, f :: _ => m.advancing f
  | _, _ => []

theorem site_proceed (m : Machine) (frames : List Frame) (site : Site) (p : Progress) :
    (m.proceed frames site p).site = site := by
  cases p <;> rfl

theorem changed_goOn (m : Machine) (pending : Pending) (frames : List Frame)
    {moved : Page Listener × Option (Call Listener)}
    (hmoved : moved.1.ComesFrom m.site.page []) :
    m.site.Changed (goingOn pending moved) (m.goOn pending frames moved).site := by
  obtain ⟨page, _ | call⟩ := moved
  · obtain ⟨htarget, hpage⟩ := { m.site with page }.changed_resume pending
    rw [goOn, site_proceed]
    exact ⟨htarget, hmoved.trans hpage⟩
  · exact ⟨rfl, hmoved⟩

theorem changed_endCall (m : Machine) (call : Call Listener) (pending : Pending) (failed : Bool)
    (frames : List Frame) :
    m.site.Changed (m.ending call pending) (m.endCall call pending failed frames).site := by
  have hfinish : (m.site.page.finish call).1.ComesFrom m.site.page [] :=
    Page.comesFrom_relay m.site.page _
  cases failed with
  | true => exact changed_goOn { m with notices := m.notices ++ [_] } pending frames hfinish
  | false => exact changed_goOn m pending frames hfinish

theorem changed_begin (hpage : m.site.target = .page) {s : Step} (hfocus : m.focus = .run s) :
    m.site.Changed m.changes (m.begin s).site := by
  simp only [changes, hfocus]
  cases s with
  | act a =>
    rw [begin, site_proceed]
    exact Site.changed_act hpage a
  | attach s =>
    rw [begin, site_proceed]
    exact Site.changed_attach hpage _
  | within steps =>
    rw [begin, if_pos hpage]
    exact m.site.changed_nil

theorem changed_receive (m : Machine) (r : Except Fault Reply) (f : Frame) (frames : List Frame) :
    m.site.Changed (m.receiving r f) (m.receive r frames f).site := by
  cases f with
  | call call body pending =>
    cases body with
    | feed => exact changed_endCall m call pending true frames
    | script id doing steps raises later =>
      cases r with
      | error why => exact changed_endCall m call pending true frames
      | ok reply => exact m.site.changed_nil
  | within rest done =>
    cases r with
    | error why => exact ⟨rfl, Page.comesFrom_close m.site.page⟩
    | ok reply => exact m.site.changed_nil

theorem changed_advance (m : Machine) (f : Frame) (frames : List Frame) :
    m.site.Changed (m.advancing f) (m.advance frames f).site := by
  cases f with
  | call call body pending =>
    cases body with
    | feed =>
      obtain ⟨htarget, hpage⟩ := changed_endCall
        { m with site := m.site.record call.consumer call.batch } call pending false frames
      simp only [ending, Site.page_record] at hpage
      exact ⟨htarget.trans (m.site.target_record ..), hpage⟩
    | script id doing steps raises later =>
      cases steps with
      | cons s steps => exact m.site.changed_nil
      | nil =>
        cases raises with
        | true => exact changed_endCall m call pending true frames
        | false =>
          cases later with
          | nil => exact changed_endCall m call pending false frames
          | cons rule later =>
            rw [advance]
            split
            · exact m.site.changed_nil
            · exact m.site.changed_nil
  | within rest done =>
    cases rest with
    | nil => exact ⟨rfl, Page.comesFrom_close m.site.page⟩
    | cons s rest => exact m.site.changed_nil

/-- Every step of a machine changes what it says. -/
theorem changed_step (hpage : m.site.target = .page) (h : m.step = some m') :
    m.site.Changed m.changes m'.site := by
  unfold step at h
  split at h
  · rename_i s hfocus
    rw [← Option.some.inj h]
    exact changed_begin hpage hfocus
  · rename_i r f frames hfocus hframes
    rw [← Option.some.inj h]
    simp only [changes, hfocus, hframes]
    exact m.changed_receive r f frames
  · rename_i f frames hfocus hframes
    rw [← Option.some.inj h]
    simp only [changes, hfocus, hframes]
    exact m.changed_advance f frames
  · exact absurd h (by simp)

/-- A later moment of a session, with what has changed since. -/
inductive Passes (m : Machine) : List Change → Machine → Prop where
  | now : Passes m [] m
  | step {log : List Change} {m' m'' : Machine} (h : Passes m log m') (hstep : m'.step = some m'') :
    Passes m (log ++ m'.changes) m''
  /-- The last step is done and another one begins. -/
  | next {log : List Change} {m' : Machine} (h : Passes m log m') (hend : m'.step = none)
    (s : Step) : Passes m log (m'.next s)

theorem Passes.changed {log : List Change} (h : m.Passes log m') (hpage : m.site.target = .page) :
    m.site.Changed log m'.site := by
  induction h with
  | now => exact m.site.changed_nil
  | step _ hstep ih =>
    obtain ⟨htarget, hfrom⟩ := changed_step (ih.target.trans hpage) hstep
    exact ⟨htarget.trans ih.target, ih.page.trans hfrom⟩
  | next _ _ s ih => exact ih

end Machine

/-- Of two moments of a run of a page, in the middle of a call as well, the revision of the later
    one counts the changes between them: one for every batch that was merged, one for every time
    that the page started over, one for the closing of an open page, and no other. If it is the
    same, so is the table. So it is in every run, whatever the consumers are, and in every session,
    whether it keeps to the page or goes past it. Nor does a request change anything that is not
    posted. -/
theorem revision_marks_changes :
    (∀ (w : Page.World κ) (moves : List (Page.Move κ)),
      (moves.foldl Page.World.step w).page.ComesFrom w.page (w.allChanges moves)) ∧
    (∀ (m m' : Machine) (log : List Change), m.site.target = .page → m.Passes log m' →
      m'.site.page.ComesFrom m.site.page log) ∧
    ∀ (site : Site) (d : Api.Draft) (r : Api.Request), d.request = .ok r → r.method ≠ "POST" →
      site.changes (.request d) = [] := by
  refine ⟨Page.World.comesFrom_foldl, fun m m' log hpage h => (h.changed hpage).page,
    fun site d r hr hpost => ?_⟩
  rw [Site.changes, hr]
  exact Api.changes_plan hpost ..

/-- A consumer is under way that resets the page, closes it and closes it again. -/
def closingTwice : Machine where
  site := { page := { table := .single "a" [], revision := 1,
                      relay := { consumer := some (.script 0), flushing := true } } }
  scripts := [.mk "renderer" []]
  focus := .advance
  frames := [.call ⟨.script 0, .single "a" [], true⟩
    (.script 0 none [.act .reset, .act .close, .act .close] true []) (.reply .nothing)]

theorem passes_closingTwice : ∃ m', closingTwice.Passes [.cleared, .cleared] m' ∧
    m'.frames ≠ [] ∧ m'.site.page.closed = true := by
  have hreset := (((Machine.Passes.now (m := closingTwice)).step rfl).step rfl).step rfl
  have hclosed := ((hreset.step rfl).step rfl).step rfl
  have hagain := ((hclosed.step rfl).step rfl).step rfl
  exact ⟨_, hagain, List.cons_ne_nil _ _, rfl⟩

theorem revision_marks_changes_in_call :
    (∃ w : Page.World Nat, w = Page.World.after [.attach 1, .contribute (.single "a" []), .reset] ∧
      w.page.ComesFrom {} [.merged (.single "a" []), .cleared]) ∧
    (∃ m', closingTwice.Passes [.cleared, .cleared] m' ∧ m'.frames ≠ [] ∧
      m'.site.page.ComesFrom closingTwice.site.page [.cleared, .cleared]) ∧
    ∃ (d : Api.Draft) (r : Api.Request), d.request = .ok r ∧ r.method ≠ "POST" ∧
      ({} : Site).changes (.request d) = [] := by
  obtain ⟨m', hpasses, hcall, -⟩ := passes_closingTwice
  have hrequest : Api.Draft.request { method := "GET", target := "/api/events" } =
      .ok { method := "GET", path := "/api/events" } :=
    Api.Draft.request_path (by rfl) (by decide +kernel) (by rfl) (by decide +kernel) rfl
  refine ⟨⟨_, rfl, (revision_marks_changes (κ := Nat)).1 {} _⟩, ⟨m', hpasses, hcall,
    (revision_marks_changes (κ := Nat)).2.1 closingTwice m' _ rfl hpasses⟩,
    _, _, hrequest, by decide, (revision_marks_changes (κ := Nat)).2.2 {} _ _ hrequest (by decide)⟩

end Scenario
end TraitIndex
