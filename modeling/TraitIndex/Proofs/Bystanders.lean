import TraitIndex.Proofs.PageRun
import TraitIndex.Proofs.WhilePending

/-! Bystanders.

    Much of what happens around a table leaves it as it is: somebody looks at it, attaches, or is
    called with a batch. A consumer is a bystander if none of its steps changes the table; it may
    look at it, attach others like it and fail. Where all consumers are bystanders, a call leaves
    the table as it is, whatever it sets off, and so does the flush of a backlog. -/

namespace TraitIndex.Scenario

/-! ### Rules in use -/

theorem forall_mem_append_cons {α : Type} {p : α → Prop} {before after : List α} {x : α} :
    (∀ y ∈ before ++ x :: after, p y) ↔
      (∀ y ∈ before, p y) ∧ p x ∧ ∀ y ∈ after, p y := by
  rw [List.forall_mem_append, List.forall_mem_cons]

/-- Where one of several rules is used, the others stay as they are. -/
theorem exists_of_useRule {batch : Batch} {n : Nat} {rs rs' : List Rule} {f : Firing}
    (h : useRule batch n rs = some (rs', f)) :
    ∃ before r r' after, rs = before ++ r :: after ∧ rs' = before ++ r' :: after ∧
      r.use batch = some (r', f) := by
  fun_induction useRule batch n rs generalizing rs' f with
  | case1 => cases h
  | case2 r rest =>
    obtain ⟨⟨r', f'⟩, hused, he⟩ := Option.map_eq_some_iff.1 h
    cases he
    exact ⟨[], r, r', rest, rfl, rfl, hused⟩
  | case3 n r rest ih =>
    obtain ⟨⟨rs', f'⟩, hused, he⟩ := Option.map_eq_some_iff.1 h
    cases he
    obtain ⟨before, q, q', after, rfl, rfl, hq⟩ := ih hused
    exact ⟨r :: before, q, q', after, rfl, rfl, hq⟩

/-- Where a rule of one of several consumers is used, that consumer keeps its name and the others
    stay as they are. -/
theorem exists_of_fire {batch : Batch} {rule n : Nat} {ss ss' : List Script} {f : Firing}
    (h : fire batch rule n ss = some (ss', f)) :
    ∃ before name rules rules' after, before.length = n ∧ ss = before ++ .mk name rules :: after ∧
      ss' = before ++ .mk name rules' :: after ∧ useRule batch rule rules = some (rules', f) := by
  fun_induction fire batch rule n ss generalizing ss' f with
  | case1 => cases h
  | case2 name rules rest =>
    obtain ⟨⟨rules', f'⟩, hused, he⟩ := Option.map_eq_some_iff.1 h
    cases he
    exact ⟨[], name, rules, rules', rest, rfl, rfl, rfl, hused⟩
  | case3 n s rest ih =>
    obtain ⟨⟨ss', f'⟩, hused, he⟩ := Option.map_eq_some_iff.1 h
    cases he
    obtain ⟨before, name, rules, rules', after, rfl, rfl, rfl, hq⟩ := ih hused
    exact ⟨s :: before, name, rules, rules', after, rfl, rfl, rfl, hq⟩

/-! ### Actions -/

/-- What is under test, and its table, are as they were. -/
structure Site.SameTable (site site' : Site) : Prop where
  target : site'.target = site.target
  table : site'.page.table = site.page.table

theorem Site.SameTable.refl (site : Site) : site.SameTable site := ⟨rfl, rfl⟩

theorem Site.SameTable.trans {site site' site'' : Site} (h : site.SameTable site')
    (h' : site'.SameTable site'') : site.SameTable site'' :=
  ⟨h'.target.trans h.target, h'.table.trans h.table⟩

/-- Nothing is pending but a reply. -/
def Pending.IsQuiet (p : Pending) : Prop := ∃ reply, p.Quiet reply

/-- If a call has started, nothing is pending but a reply. -/
inductive Progress.IsQuiet : Progress → Prop where
  | ended (r : Except Fault Reply) : IsQuiet (.ended r)
  | calling (call : Call Listener) {pending : Pending} (h : pending.IsQuiet) :
      IsQuiet (.calling call pending)

namespace Site

@[simp] theorem target_record (site : Site) (listener : Listener) (b : Batch) :
    (site.record listener b).target = site.target := by
  cases listener <;> rfl

/-- The feed that listens keeps the batch; the page is not concerned. -/
@[simp] theorem page_record (site : Site) (listener : Listener) (b : Batch) :
    (site.record listener b).page = site.page := by
  cases listener <;> rfl

theorem sameTable_record (site : Site) (listener : Listener) (b : Batch) :
    site.SameTable (site.record listener b) :=
  ⟨site.target_record listener b, congrArg Page.table (site.page_record listener b)⟩

/-- An operation leaves the table of a site as it is, and what it leaves pending does so too. -/
def LeavesTable (site : Site) (r : Site × Progress × List Notice) : Prop :=
  site.SameTable r.1 ∧ r.2.1.IsQuiet

/-- An operation only looks: it ends at once, and nothing changes but perhaps a feed. -/
structure Looks (site : Site) (r : Site × Progress × List Notice) : Prop where
  target : r.1.target = site.target
  page : r.1.page = site.page
  ended : ∃ reply, r.2.1 = .ended reply

theorem looks_look (site : Site) (r : Except Fault Reply) : site.Looks (site.look r) :=
  ⟨rfl, rfl, r, rfl⟩

theorem looks_lookAtTable (site : Site) (r : Except Fault Reply) :
    site.Looks (site.lookAtTable r) := by
  rw [lookAtTable]
  split
  · exact site.looks_look _
  · exact site.looks_look r

theorem looks_lookAtRelay (site : Site) (r : Reply) : site.Looks (site.lookAtRelay r) := by
  rw [lookAtRelay]
  split
  · exact site.looks_look _
  · exact site.looks_look _

theorem Looks.leavesTable {site : Site} {r : Site × Progress × List Notice} (h : site.Looks r) :
    site.LeavesTable r := by
  obtain ⟨reply, hended⟩ := h.ended
  exact ⟨⟨h.target, congrArg Page.table h.page⟩, hended ▸ .ended reply⟩

/-- An operation of the page that leaves the table, and a reply that is known when it begins. -/
theorem leavesTable_after {site : Site} {moved : Page Listener × Option (Call Listener)}
    (h : moved.1.table = site.page.table) (r : Reply) (notices : List Notice) :
    site.LeavesTable ((site.after moved (.reply r) (.ok r)).1,
      (site.after moved (.reply r) (.ok r)).2, notices) := by
  obtain ⟨page, _ | call⟩ := moved
  · exact ⟨⟨rfl, h⟩, .ended _⟩
  · exact ⟨⟨rfl, h⟩, .calling call ⟨_, quiet_reply r⟩⟩

theorem leavesTable_attach (site : Site) (listener : Listener) :
    site.LeavesTable (site.attach listener) := by
  unfold attach
  split
  · exact (site.looks_look _).leavesTable
  · split
    · exact (site.looks_look _).leavesTable
    · rename_i moved hattach
      obtain ⟨-, rfl⟩ := Page.attach_ok hattach
      exact leavesTable_after rfl .nothing []

theorem leavesTable_withBatch {site : Site} {f : Batch → Site × Progress}
    (h : ∀ b notices, site.LeavesTable ((f b).1, (f b).2, notices)) (v : Value) :
    site.LeavesTable (site.withBatch v f) := by
  rw [withBatch]
  split
  · exact ⟨.refl site, .ended _⟩
  · exact h _ _

end Site

/-- The action looks at what is under test, or has to do with the feeds only. -/
def Action.IsLook : Action → Prop
  | .attachValue | .get _ | .has _ | .traits | .snapshot | .backlog | .hasConsumer | .sharesRelay
  | .callFeed _ _ | .latest _ | .since _ _ | .clearFeed _ | .clientUrl => True
  | _ => False

theorem Action.looks_of_isLook {a : Action} (h : a.IsLook) (site : Site) :
    site.Looks (site.act a) := by
  cases a with
  | attachValue =>
    simp only [Site.act]
    split
    · exact site.looks_look _
    · exact site.looks_look _
  | get v | has v | traits | snapshot | sharesRelay => exact site.looks_lookAtTable _
  | backlog | hasConsumer => exact site.looks_lookAtRelay _
  | callFeed name v =>
    simp only [Site.act, Site.withBatch]
    split
    · exact ⟨rfl, rfl, _, rfl⟩
    · exact ⟨rfl, rfl, _, rfl⟩
  | latest name | clientUrl => exact site.looks_look _
  | since name v =>
    simp only [Site.act]
    split
    · exact site.looks_look _
    · exact site.looks_look _
  | clearFeed name => exact ⟨rfl, rfl, _, rfl⟩
  | _ => exact h.elim

/-- Wherever it is done, the action leaves the table as it is. -/
def Action.LeavesTable (a : Action) : Prop := ∀ site : Site, site.LeavesTable (site.act a)

/-- The action neither goes to the table nor over the wire: it looks at the table, or has to do
    with the relay and the feeds only. -/
def Action.IsAside : Action → Prop
  | .contribute _ | .contributePast _ | .contributeServed _ | .reset | .close | .resetTable
  | .request _ | .loadFragment _ _ | .loadPath _ | .client _ | .clientLoadFragment _ _ => False
  | _ => True

theorem Action.leavesTable_of_isAside {a : Action} (h : a.IsAside) : a.LeavesTable := by
  intro site
  cases a with
  | attachFeed name => exact site.leavesTable_attach _
  | deliver v =>
    simp only [Site.act]
    split
    · exact (site.looks_look _).leavesTable
    · exact Site.leavesTable_withBatch (fun b notices => Site.leavesTable_after rfl _ notices) v
  | closeRelay =>
    simp only [Site.act]
    split
    · exact (site.looks_look _).leavesTable
    · exact ⟨⟨rfl, rfl⟩, .ended _⟩
  | contribute | contributePast | contributeServed | reset | close | resetTable | request
  | loadFragment | loadPath | client | clientLoadFragment => exact h.elim
  | _ =>
    refine (Action.looks_of_isLook ?_ site).leavesTable
    trivial

/-! ### Consumers -/

mutual

/-- The step changes no table, nor does what it sets off. -/
inductive Step.LeavesTable : Step → Prop where
  | act {a : Action} (h : a.LeavesTable) : Step.LeavesTable (.act a)
  | attach {s : Script} (h : Script.LeavesTable s) : Step.LeavesTable (.attach s)

/-- The consumer is a bystander. -/
inductive Script.LeavesTable : Script → Prop where
  | mk (name : Text) {rules : List Rule} (h : ∀ r ∈ rules, Rule.LeavesTable r) :
      Script.LeavesTable (.mk name rules)

/-- No step of the rule changes a table. -/
inductive Rule.LeavesTable : Rule → Prop where
  | mk (trait : Option Text) (times : Nat) {steps : List Step} (raises : Bool)
      (h : ∀ s ∈ steps, Step.LeavesTable s) : Rule.LeavesTable (.mk trait times steps raises)

end

theorem Rule.leavesTable_use {batch : Batch} {r r' : Rule} {f : Firing} (h : r.LeavesTable)
    (huse : r.use batch = some (r', f)) :
    r'.LeavesTable ∧ ∀ s ∈ f.steps, s.LeavesTable := by
  obtain ⟨trait, times, raises, hsteps⟩ := h
  cases times with
  | zero => cases huse
  | succ times =>
    rw [Rule.use] at huse
    split at huse
    · cases huse
      exact ⟨.mk trait times raises hsteps, hsteps⟩
    · cases huse

theorem leavesTable_useRule {batch : Batch} {n : Nat} {rs rs' : List Rule} {f : Firing}
    (h : ∀ r ∈ rs, r.LeavesTable) (huse : useRule batch n rs = some (rs', f)) :
    (∀ r ∈ rs', r.LeavesTable) ∧ ∀ s ∈ f.steps, s.LeavesTable := by
  obtain ⟨before, r, r', after, rfl, rfl, hused⟩ := exists_of_useRule huse
  obtain ⟨hbefore, hr, hafter⟩ := forall_mem_append_cons.1 h
  obtain ⟨hr', hf⟩ := Rule.leavesTable_use hr hused
  exact ⟨forall_mem_append_cons.2 ⟨hbefore, hr', hafter⟩, hf⟩

/-- A bystander that has been called is still one. -/
theorem leavesTable_fire {batch : Batch} {rule n : Nat} {ss ss' : List Script} {f : Firing}
    (h : ∀ s ∈ ss, s.LeavesTable) (hfire : fire batch rule n ss = some (ss', f)) :
    (∀ s ∈ ss', s.LeavesTable) ∧ ∀ s ∈ f.steps, s.LeavesTable := by
  obtain ⟨before, name, rules, rules', after, -, rfl, rfl, hused⟩ := exists_of_fire hfire
  obtain ⟨hbefore, ⟨_, hrules⟩, hafter⟩ := forall_mem_append_cons.1 h
  obtain ⟨hrules', hf⟩ := leavesTable_useRule hrules hused
  exact ⟨forall_mem_append_cons.2 ⟨hbefore, .mk name hrules', hafter⟩, hf⟩

/-! ### The machine -/

inductive Body.LeavesTable : Body → Prop where
  | feed : LeavesTable .feed
  | script (id : Nat) (doing : Option Step) {steps : List Step} (raises : Bool) (later : List Nat)
      (h : ∀ s ∈ steps, s.LeavesTable) : LeavesTable (.script id doing steps raises later)

inductive Frame.LeavesTable : Frame → Prop where
  | call (call : Call Listener) {body : Body} {pending : Pending} (hbody : body.LeavesTable)
      (hpending : pending.IsQuiet) : LeavesTable (.call call body pending)

inductive Focus.LeavesTable : Focus → Prop where
  | run {s : Step} (h : s.LeavesTable) : LeavesTable (.run s)
  | reply (r : Except Fault Reply) : LeavesTable (.reply r)
  | advance : LeavesTable .advance

namespace Machine

/-- The machine has come from a site without a change of its table, and there will be none. -/
structure KeepsTable (start : Site) (m : Machine) : Prop where
  site : start.SameTable m.site
  scripts : ∀ s ∈ m.scripts, s.LeavesTable
  focus : m.focus.LeavesTable
  frames : ∀ f ∈ m.frames, f.LeavesTable

variable {start : Site} {m : Machine} {frames : List Frame}

theorem leavesTable_bodyFor (m : Machine) (listener : Listener) :
    (m.bodyFor listener).LeavesTable := by
  cases listener with
  | feed name => exact .feed
  | serverFeed => exact .feed
  | script id => exact .script id none false _ (by simp)

theorem keepsTable_proceed {site : Site} {p : Progress} (hsite : start.SameTable site)
    (hp : p.IsQuiet) (hscripts : ∀ s ∈ m.scripts, s.LeavesTable)
    (hframes : ∀ f ∈ frames, f.LeavesTable) :
    (m.proceed frames site p).KeepsTable start := by
  cases hp with
  | ended r => exact ⟨hsite, hscripts, .reply r, hframes⟩
  | calling call hpending =>
    have hcall : Frame.LeavesTable (.call call (m.bodyFor call.consumer) _) :=
      .call call (m.leavesTable_bodyFor _) hpending
    exact ⟨hsite, hscripts, .advance, List.forall_mem_cons.2 ⟨hcall, hframes⟩⟩

theorem keepsTable_begin (h : m.KeepsTable start) {s : Step} (hs : s.LeavesTable) :
    (m.begin s).KeepsTable start := by
  cases hs with
  | act ha =>
    obtain ⟨hsite, hprogress⟩ := ha m.site
    exact keepsTable_proceed (h.site.trans hsite) hprogress h.scripts h.frames
  | @attach s hs =>
    obtain ⟨hsite, hprogress⟩ := m.site.leavesTable_attach (.script m.scripts.length)
    have hscripts : ∀ s' ∈ m.scripts ++ [s], s'.LeavesTable :=
      List.forall_mem_append.2 ⟨h.scripts, by simpa using hs⟩
    exact keepsTable_proceed (h.site.trans hsite) hprogress hscripts h.frames

theorem keepsTable_goOn (h : m.KeepsTable start) (hframes : ∀ f ∈ frames, f.LeavesTable)
    {pending : Pending} (hpending : pending.IsQuiet)
    {moved : Page Listener × Option (Call Listener)} (hmoved : moved.1.table = m.site.page.table) :
    (m.goOn pending frames moved).KeepsTable start := by
  obtain ⟨page, next⟩ := moved
  have hsite : start.SameTable { m.site with page } := h.site.trans ⟨rfl, hmoved⟩
  cases next with
  | some call => exact keepsTable_proceed hsite (.calling call hpending) h.scripts hframes
  | none =>
    obtain ⟨reply, hreply⟩ := hpending
    rw [goOn, hreply]
    exact keepsTable_proceed hsite (.ended _) h.scripts hframes

theorem keepsTable_endCall (h : m.KeepsTable start) (hframes : ∀ f ∈ frames, f.LeavesTable)
    {pending : Pending} (hpending : pending.IsQuiet) (call : Call Listener) (failed : Bool) :
    (m.endCall call pending failed frames).KeepsTable start := by
  cases failed with
  | true =>
    have hnoted : KeepsTable start
        { m with notices := m.notices ++ [.consumerFailed call.batch.traits] } :=
      ⟨h.site, h.scripts, h.focus, h.frames⟩
    exact keepsTable_goOn hnoted hframes hpending rfl
  | false => exact keepsTable_goOn h hframes hpending rfl

theorem keepsTable_receive (h : m.KeepsTable start) (hframes : ∀ f ∈ frames, f.LeavesTable)
    {f : Frame} (hf : f.LeavesTable) (r : Except Fault Reply) :
    (m.receive r frames f).KeepsTable start := by
  obtain ⟨call, hbody, hpending⟩ := hf
  cases hbody with
  | feed => exact keepsTable_endCall h hframes hpending call true
  | script id doing raises later hsteps =>
    cases r with
    | error why => exact keepsTable_endCall h hframes hpending call true
    | ok reply =>
      exact ⟨h.site, h.scripts, .advance, List.forall_mem_cons.2
        ⟨.call call (.script id none raises later hsteps) hpending, hframes⟩⟩

theorem keepsTable_advance (h : m.KeepsTable start)
    (hframes : ∀ f ∈ frames, f.LeavesTable) {f : Frame} (hf : f.LeavesTable) :
    (m.advance frames f).KeepsTable start := by
  obtain ⟨call, hbody, hpending⟩ := hf
  cases hbody with
  | feed =>
    have hsame := h.site.trans (m.site.sameTable_record call.consumer call.batch)
    have hrecorded : KeepsTable start
        { m with site := m.site.record call.consumer call.batch } :=
      ⟨hsame, h.scripts, h.focus, h.frames⟩
    exact keepsTable_endCall hrecorded hframes hpending call false
  | @script id doing steps raises later hsteps =>
    cases steps with
    | cons s steps =>
      -- the step may start a call of its own, which then lies above this one
      obtain ⟨hs, hrest⟩ := List.forall_mem_cons.1 hsteps
      exact ⟨h.site, h.scripts, .run hs, List.forall_mem_cons.2
        ⟨.call call (.script id (some s) raises later hrest) hpending, hframes⟩⟩
    | nil =>
      cases raises with
      | true => exact keepsTable_endCall h hframes hpending call true
      | false =>
        cases later with
        | nil => exact keepsTable_endCall h hframes hpending call false
        | cons rule later =>
          simp only [advance]
          split
          · exact ⟨h.site, h.scripts, h.focus, List.forall_mem_cons.2
              ⟨.call call (.script id doing false later hsteps) hpending, hframes⟩⟩
          · rename_i scripts f hfire
            obtain ⟨hscripts, hsteps'⟩ := leavesTable_fire h.scripts hfire
            exact ⟨h.site, hscripts, h.focus, List.forall_mem_cons.2
              ⟨.call call (.script id doing f.raises later hsteps') hpending, hframes⟩⟩

theorem keepsTable_step {m' : Machine} (h : m.KeepsTable start) (hstep : m.step = some m') :
    m'.KeepsTable start := by
  unfold step at hstep
  split at hstep
  · rename_i s hfocus
    cases hstep
    have hs := h.focus
    rw [hfocus] at hs
    cases hs with
    | run hs => exact keepsTable_begin h hs
  · rename_i r f frames _ hstack
    cases hstep
    obtain ⟨hf, hframes⟩ := List.forall_mem_cons.1 (hstack ▸ h.frames)
    exact keepsTable_receive h hframes hf r
  · rename_i f frames _ hstack
    cases hstep
    obtain ⟨hf, hframes⟩ := List.forall_mem_cons.1 (hstack ▸ h.frames)
    exact keepsTable_advance h hframes hf
  · cases hstep

/-- Whatever the calls set off, the table is as it was when they have ended. -/
theorem keepsTable_run (h : m.KeepsTable start) : m.run.KeepsTable start := by
  fun_induction run m with
  | case1 m hend => exact h
  | case2 m m' hstep ih => exact ih (keepsTable_step h hstep)

end Machine

/-! ### Steps of a scenario -/

/-- All consumers that have attached are bystanders. -/
def Stage.HasBystanders (stage : Stage) : Prop := ∀ s ∈ stage.scripts, s.LeavesTable

/-- A step that leaves the table does so to its end. -/
theorem perform_leavesTable {stage : Stage} (h : stage.HasBystanders) {s : Step}
    (hs : s.LeavesTable) :
    stage.site.SameTable (stage.perform s).1.site ∧ (stage.perform s).1.HasBystanders := by
  have hrun : (stage.machine s).run.KeepsTable stage.site :=
    Machine.keepsTable_run ⟨.refl stage.site, h, .run hs, by simp [Stage.machine]⟩
  exact ⟨hrun.site, hrun.scripts⟩

/-- What an action has begun is all that it does to the table, if it leaves nothing pending but a
    reply. -/
theorem perform_begun {stage : Stage} (h : stage.HasBystanders) {a : Action}
    {moved : Site × Option (Call Listener)} {reply : Site → Except Fault Reply}
    (hbegins : stage.site.Begins a moved reply) :
    moved.1.SameTable (stage.perform (.act a)).1.site ∧
      (stage.perform (.act a)).1.HasBystanders := by
  obtain ⟨progress, notices, hact, hprogress⟩ := hbegins
  have hquiet : progress.IsQuiet := by
    obtain ⟨site, _ | call⟩ := moved
    · obtain rfl := hprogress
      exact .ended _
    · obtain ⟨pending, hpending, rfl⟩ := hprogress
      exact .calling call ⟨reply, hpending⟩
  have hbegin : ((stage.machine (.act a)).begin (.act a)).KeepsTable moved.1 := by
    simp only [Machine.begin, Stage.machine, hact]
    exact Machine.keepsTable_proceed (.refl moved.1) hquiet h (by simp)
  have hrun := Machine.keepsTable_run hbegin
  rw [← run_act] at hrun
  exact ⟨hrun.site, hrun.scripts⟩

end TraitIndex.Scenario
