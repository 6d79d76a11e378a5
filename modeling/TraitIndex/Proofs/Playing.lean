import Mathlib.Logic.Relation
import TraitIndex.Proofs.Outcomes
import TraitIndex.Proofs.PageRun
import TraitIndex.Scenario.Run

/-! Scenarios as runs of a page.

    When a scenario is played, its page takes contributions from many sides: steps, scripted
    consumers in the middle of their calls, requests, clients and files. All of them come down to
    the moves of a page. So at every step of a machine that keeps to its page there is a run of the
    page that has led to the same page with the same calls under way, and what holds in all runs of
    a page holds in every scenario. -/

namespace TraitIndex

namespace Page

variable {κ : Type}

/-- Moves lead from one page to another and start calls on the way, which are under way then,
    whatever calls are under way already and whatever happened before. -/
def Leads (p q : Page κ) (started : List (Call κ)) : Prop :=
  ∀ (calls : List (Call κ)) (history : List (Relay.Event κ)),
    ∃ (moves : List (Move κ)) (history' : List (Relay.Event κ)),
      moves.foldl World.step ⟨p, calls, history⟩ = ⟨q, started ++ calls, history'⟩

theorem Leads.refl (p : Page κ) : Leads p p [] := fun _ history => ⟨[], history, rfl⟩

theorem Leads.trans {p q r : Page κ} {started : List (Call κ)} (h : Leads p q [])
    (h' : Leads q r started) : Leads p r started := by
  intro calls history
  obtain ⟨moves, history', hm⟩ := h calls history
  obtain ⟨moves', history'', hm'⟩ := h' calls history'
  exact ⟨moves ++ moves', history'', by rw [List.foldl_append, hm]; exact hm'⟩

theorem leads_accept {p : Page κ} (hp : p.closed = false) (b : Batch) :
    Leads p (p.accept b).1 (p.accept b).2.toList := by
  intro calls history
  refine ⟨[.contribute b], history ++ .offered b :: (p.accept b).2.toList.map .called, ?_⟩
  simp only [List.foldl_cons, List.foldl_nil, World.step, contribute, hp, Bool.false_eq_true,
    if_false]
  rfl

theorem leads_attach {p : Page κ} (hp : p.closed = false) (c : κ) :
    Leads p { p with relay := (p.relay.attach c).1 } (p.relay.attach c).2.toList := by
  intro calls history
  refine ⟨[.attach c], history ++ .attached c :: (p.relay.attach c).2.toList.map .called, ?_⟩
  simp only [List.foldl_cons, List.foldl_nil, World.step, attach, hp, Bool.false_eq_true,
    if_false]
  rfl

theorem leads_reset (p : Page κ) : Leads p p.reset [] :=
  fun _ history => ⟨[.reset], history ++ [.cleared], rfl⟩

theorem leads_close (p : Page κ) : Leads p p.close [] := by
  intro calls history
  by_cases hp : p.closed = true
  · refine ⟨[], history, ?_⟩
    rw [close, if_pos hp]
    rfl
  · refine ⟨[.close], history ++ [.cleared], ?_⟩
    simp only [List.foldl_cons, List.foldl_nil, World.step, hp, Bool.false_eq_true, if_false]
    rfl

end Page

/-! ### Requests -/

namespace Api

variable {κ : Type} {page : Page κ}

/-- The plan changes nothing, or starts over, or the page is open. -/
def Plan.Allowed (page : Page κ) (p : Plan) : Prop :=
  (∃ r, p = .answer r) ∨ p = .reset ∨ page.closed = false

theorem contribution_allowed {batch : Outcome Batch} {receipt : Batch → Receipt} {p : Plan}
    (h : (contribution page batch receipt).result = .ok p) : p.Allowed page := by
  unfold contribution at h
  split at h
  · exact .inl ⟨_, (Except.ok.inj h).symm⟩
  · rename_i hc
    exact .inr (.inr (by simpa using hc))

theorem fragmentPlan_allowed {fields : List (Text × Json)} {p : Plan}
    (h : (fragmentPlan page fields).result = .ok p) : p.Allowed page := by
  unfold fragmentPlan at h
  split at h
  · split at h
    · exact .inl ⟨_, (Except.ok.inj h).symm⟩
    · obtain ⟨b, -, hb⟩ := Outcome.ok_of_bind_ok h
      exact contribution_allowed hb
  · exact .inl ⟨_, (Except.ok.inj h).symm⟩

theorem pollPlan_allowed (page : Page κ) (feed : Feed) (attached : Bool) (r : Request) :
    (pollPlan page feed attached r).Allowed page := by
  unfold pollPlan
  split
  · exact .inl ⟨_, rfl⟩
  · split
    · exact .inl ⟨_, rfl⟩
    · split
      · exact .inl ⟨_, rfl⟩
      · rename_i hc
        exact .inr (.inr (by simpa using hc))

theorem planAt_allowed {route : Route} {feed : Feed} {attached : Bool} {r : Request} {p : Plan}
    (h : (planAt route page feed attached r).result = .ok p) : p.Allowed page := by
  cases route with
  | batches =>
    simp only [planAt] at h
    split at h
    · exact .inl ⟨_, (Except.ok.inj h).symm⟩
    · exact contribution_allowed h
  | fragments =>
    simp only [planAt] at h
    split at h
    · exact .inl ⟨_, (Except.ok.inj h).symm⟩
    · exact fragmentPlan_allowed h
  | deliveries =>
    rw [← Except.ok.inj h]
    exact pollPlan_allowed page feed attached r
  | reset => exact .inr (.inl (Except.ok.inj h).symm)
  | _ => exact .inl ⟨_, (Except.ok.inj h).symm⟩

/-- No request to a closed page comes to a contribution or an attachment. -/
theorem plan_allowed (page : Page κ) (feed : Feed) (attached : Bool) (r : Request) :
    (plan page feed attached r).1.Allowed page := by
  unfold plan
  split
  · exact .inl ⟨_, rfl⟩
  · rename_i route _
    have h : ∀ p, (planAt route page feed attached r).result = .ok p → p.Allowed page :=
      fun p => planAt_allowed
    simp only
    split
    · exact .inl ⟨_, rfl⟩
    · rename_i p _ hp
      exact h p hp
    · exact .inl ⟨_, rfl⟩

end Api

/-! ### Actions on a site -/

namespace Scenario

/-- The calls that have started. -/
def Progress.started : Progress → List (Call Listener)
  | .ended _ => []
  | .calling call _ => [call]

/-- The action goes to the page, not past it to its table or its relay. -/
def Action.KeepsToPage : Action → Prop
  | .contributePast _ | .deliver _ | .closeRelay | .resetTable => False
  | _ => True

namespace Site

/-- The site comes from another by moves of its page. -/
def Moved (site : Site) (r : Site × Progress) : Prop :=
  r.1.target = site.target ∧ Page.Leads site.page r.1.page r.2.started

theorem moved_ended (site : Site) (r : Except Fault Reply) : site.Moved (site, .ended r) :=
  ⟨rfl, .refl _⟩

/-- A page that an operation leads to is the page of the site afterwards. -/
theorem moved_after {site : Site} {moved : Page Listener × Option (Call Listener)}
    (h : Page.Leads site.page moved.1 moved.2.toList) (pending : Pending)
    (reply : Except Fault Reply) : site.Moved (site.after moved pending reply) := by
  obtain ⟨page, next⟩ := moved
  cases next with
  | none => exact ⟨rfl, h⟩
  | some call => exact ⟨rfl, h⟩

theorem moved_load (site : Site) (count : Nat) (rest : List Batch) :
    site.Moved (site.load count rest) := by
  induction rest generalizing site count with
  | nil => exact site.moved_ended _
  | cons b rest ih =>
    rw [load]
    rcases h : site.page.contribute b with why | ⟨page, next⟩
    · exact site.moved_ended _
    · obtain ⟨hopen, hmoved⟩ := Page.contribute_ok h
      have hleads := Page.leads_accept hopen b
      rw [← hmoved] at hleads
      cases next with
      | none =>
        obtain ⟨htarget, hrest⟩ := ih { site with page } (count + b.recordCount)
        exact ⟨htarget, hleads.trans hrest⟩
      | some call => exact ⟨rfl, hleads⟩

theorem moved_resume (site : Site) (pending : Pending) : site.Moved (site.resume pending) := by
  cases pending with
  | reply r => exact site.moved_ended _
  | load rest count => exact site.moved_load count rest
  | answer awaited asker => exact site.moved_ended _

/-- An action moves the page only. -/
def Moves (site : Site) (r : Site × Progress × List Notice) : Prop := site.Moved (r.1, r.2.1)

theorem moves_look (site : Site) (r : Except Fault Reply) : site.Moves (site.look r) :=
  site.moved_ended r

theorem moves_servePage (site : Site) (r : Api.Request) (asker : Asker) :
    site.Moves (site.servePage r asker) := by
  have hplan := Api.plan_allowed site.page site.serverFeed
    (site.page.relay.consumer = some .serverFeed) r
  rcases hp : Api.plan site.page site.serverFeed (site.page.relay.consumer = some .serverFeed) r
    with ⟨plan, notices⟩
  rw [hp] at hplan
  simp only [servePage, hp]
  cases plan with
  | answer response => exact site.moved_ended _
  | contribute b receipt =>
    obtain ⟨_, h⟩ | h | hopen := hplan
    · exact absurd h (by simp)
    · exact absurd h (by simp)
    · exact moved_after (Page.leads_accept hopen b) _ _
  | poll n =>
    obtain ⟨_, h⟩ | h | hopen := hplan
    · exact absurd h (by simp)
    · exact absurd h (by simp)
    · exact moved_after (Page.leads_attach hopen .serverFeed) _ _
  | reset => exact ⟨rfl, Page.leads_reset site.page⟩

section OnPage

variable {site : Site} (hpage : site.target = .page)

include hpage

theorem moves_serve (r : Api.Request) (asker : Asker) : site.Moves (site.serve r asker) := by
  rw [serve, if_pos hpage]
  exact site.moves_servePage r asker

theorem moves_ask (call : Client.Call) : site.Moves (site.ask call) := by
  unfold ask
  split
  · exact site.moved_ended _
  · exact moves_serve hpage _ _

theorem moves_contribute (batch : Outcome Batch) : site.Moves (site.contribute false batch) := by
  unfold contribute
  by_cases hclosed : site.page.closed = true
  · rw [if_pos ⟨hpage, rfl, hclosed⟩]
    exact site.moves_look _
  · rw [if_neg fun h => hclosed h.2.2]
    split
    · exact site.moved_ended _
    · rename_i b _
      simp only [hpage, if_true]
      exact moved_after (Page.leads_accept (by simpa using hclosed) b) _ _

theorem moves_attach (listener : Listener) : site.Moves (site.attach listener) := by
  unfold attach
  rw [hpage]
  simp only
  split
  · exact site.moves_look _
  · rename_i moved h
    obtain ⟨hopen, rfl⟩ := Page.attach_ok h
    exact moved_after (Page.leads_attach hopen listener) _ _

theorem moves_loadPath (path : Text) : site.Moves (site.loadPath path) := by
  unfold loadPath
  simp only
  split
  · exact site.moved_ended _
  · rename_i bs _
    rw [if_pos (.inl hpage)]
    exact site.moved_load 0 bs

theorem moves_clientLoadFragment (path : Text) (trait : Option Value) :
    site.Moves (site.clientLoadFragment path trait) := by
  unfold clientLoadFragment
  split
  · exact site.moves_look _
  · exact moves_ask hpage _

end OnPage

theorem moves_loadFragment (site : Site) (path : Text) (trait : Option Value) :
    site.Moves (site.loadFragment path trait) := by
  unfold loadFragment
  simp only
  split
  · exact site.moved_ended _
  · rename_i b _
    exact site.moved_load 0 [b]

/-- Every action that keeps to the page moves the page only. -/
theorem moves_act {site : Site} (hpage : site.target = .page) {a : Action} (ha : a.KeepsToPage) :
    site.Moves (site.act a) := by
  have htable : ¬ site.target = .table := by
    rw [hpage]
    decide
  have hrelay : ¬ site.target = .relay := by
    rw [hpage]
    decide
  cases a with
  | contribute v =>
    simp only [act, hrelay, if_false]
    exact moves_contribute hpage _
  | contributePast v => exact ha.elim
  | contributeServed v =>
    simp only [act, hpage, if_true]
    exact moves_contribute hpage _
  | attachValue =>
    simp only [act, htable, if_false]
    exact site.moves_look _
  | attachFeed name => exact moves_attach hpage _
  | deliver v => exact ha.elim
  | reset =>
    simp only [act, hpage]
    exact ⟨rfl, Page.leads_reset site.page⟩
  | close =>
    simp only [act, hpage]
    exact ⟨rfl, Page.leads_close site.page⟩
  | closeRelay => exact ha.elim
  | resetTable => exact ha.elim
  | get v | has v | traits | snapshot | sharesRelay =>
    simp only [act, lookAtTable, hrelay, if_false]
    exact site.moves_look _
  | backlog | hasConsumer =>
    simp only [act, lookAtRelay, htable, if_false]
    exact site.moves_look _
  | callFeed name v =>
    simp only [act, withBatch]
    split
    · exact site.moved_ended _
    · exact ⟨rfl, .refl _⟩
  | latest name | clientUrl => exact site.moves_look _
  | since name v =>
    simp only [act]
    split
    · exact site.moves_look _
    · exact site.moves_look _
  | clearFeed name => exact ⟨rfl, .refl _⟩
  | request d =>
    simp only [act]
    split
    · exact site.moves_look _
    · exact moves_serve hpage _ _
  | loadFragment path trait =>
    simp only [act, hpage, if_true]
    exact site.moves_loadFragment path trait
  | loadPath path => exact moves_loadPath hpage path
  | client call => exact moves_ask hpage call
  | clientLoadFragment path trait => exact moves_clientLoadFragment hpage path trait

end Site

/-! ### The machine -/

/-- The call that a frame stands for. -/
def Frame.call? : Frame → Option (Call Listener)
  | .call c _ _ => some c
  | .within .. => none

namespace Machine

/-- The calls under way, innermost first. -/
def calls (m : Machine) : List (Call Listener) := m.frames.filterMap Frame.call?

/-- A world shows the page under test with the calls under way. -/
structure Shows (m : Machine) (w : Page.World Listener) : Prop where
  target : m.site.target = .page
  page : w.page = m.site.page
  calls : w.calls = m.calls

/-- Moves of a world lead to what a machine shows. -/
def ShownAfter (m : Machine) (w : Page.World Listener) : Prop :=
  ∃ moves : List (Page.Move Listener), m.Shows (moves.foldl Page.World.step w)

/-- What a site comes to is shown after the moves of its page. -/
theorem shownAfter_proceed {m : Machine} {site : Site} {frames : List Frame}
    {w : Page.World Listener} (htarget : site.target = .page) (hpage : w.page = site.page)
    (hcalls : w.calls = frames.filterMap Frame.call?) {r : Site × Progress} (h : site.Moved r) :
    (m.proceed frames r.1 r.2).ShownAfter w := by
  obtain ⟨site', p⟩ := r
  obtain ⟨ht, hleads⟩ := h
  obtain ⟨moves, history', hm⟩ := hleads w.calls w.history
  have hw : w = ⟨site.page, w.calls, w.history⟩ := by rw [← hpage]
  rw [← hw] at hm
  refine ⟨moves, ?_⟩
  rw [hm]
  cases p with
  | ended r => exact ⟨ht.trans htarget, rfl, hcalls⟩
  | calling call pending => exact ⟨ht.trans htarget, rfl, congrArg (call :: ·) hcalls⟩

theorem ShownAfter.of_step {m : Machine} {w : Page.World Listener} (move : Page.Move Listener)
    (h : m.ShownAfter (w.step move)) : m.ShownAfter w := by
  obtain ⟨moves, hm⟩ := h
  exact ⟨move :: moves, hm⟩

/-- When a call has ended, its relay goes on, and when no call follows, what was pending is done. -/
theorem shownAfter_goOn {m : Machine} {w : Page.World Listener} {frames : List Frame}
    {moved : Page Listener × Option (Call Listener)} (htarget : m.site.target = .page)
    (hpage : w.page = moved.1) (hcalls : w.calls = moved.2.toList ++ frames.filterMap Frame.call?)
    (pending : Pending) : (m.goOn pending frames moved).ShownAfter w := by
  obtain ⟨page, next⟩ := moved
  cases next with
  | some c => exact ⟨[], htarget, hpage, hcalls⟩
  | none =>
    obtain ⟨site, hsite⟩ : ∃ site : Site, site = { m.site with page } := ⟨_, rfl⟩
    have htarget' : site.target = .page := by rw [hsite, htarget]
    have hpage' : w.page = site.page := by rw [hsite, hpage]
    have hresume := shownAfter_proceed (m := m) htarget' hpage' hcalls (site.moved_resume pending)
    rw [hsite] at hresume
    exact hresume

/-- The end of the innermost call is a move of the page, and so is what follows from it. -/
theorem shownAfter_endCall {m : Machine} {w : Page.World Listener} {call : Call Listener}
    {frames : List Frame} (htarget : m.site.target = .page) (hpage : w.page = m.site.page)
    (hcalls : w.calls = call :: frames.filterMap Frame.call?) (pending : Pending)
    (failed : Bool) : (m.endCall call pending failed frames).ShownAfter w := by
  refine ShownAfter.of_step (.finish failed) ?_
  have hstep : w.step (.finish failed) =
      { w with calls := frames.filterMap Frame.call? }.proceed (.ended call failed)
        (w.page.finish call) := by
    simp only [Page.World.step, hcalls]
  rw [hstep, endCall, hpage]
  cases failed with
  | true =>
    refine shownAfter_goOn ?_ ?_ ?_ pending
    · exact htarget
    · rfl
    · rfl
  | false =>
    refine shownAfter_goOn ?_ ?_ ?_ pending
    · exact htarget
    · rfl
    · rfl

/-- The step that the machine begins, if it is an action, keeps to the page. -/
def KeepsToPage (m : Machine) : Prop := ∀ a, m.focus = .run (.act a) → a.KeepsToPage

theorem shownAfter_begin {m : Machine} {w : Page.World Listener} (h : m.Shows w) {s : Step}
    (hkeeps : ∀ a, s = .act a → a.KeepsToPage) : (m.begin s).ShownAfter w := by
  cases s with
  | act a =>
    exact shownAfter_proceed h.target h.page h.calls (Site.moves_act h.target (hkeeps a rfl))
  | attach s =>
    exact shownAfter_proceed h.target h.page h.calls
      (Site.moves_attach h.target (.script m.scripts.length))
  | within steps =>
    rw [begin, if_pos h.target]
    exact ⟨[], h.target, h.page, h.calls⟩

/-- The page is closed at the end of a block. -/
theorem shownAfter_close {m m' : Machine} {w : Page.World Listener} (h : m.Shows w)
    (hsite : m'.site = { m.site with page := m.site.page.close }) (hcalls : m'.calls = m.calls) :
    m'.ShownAfter w := by
  obtain ⟨moves, history', hm⟩ := Page.leads_close m.site.page w.calls w.history
  have hw : w = ⟨m.site.page, w.calls, w.history⟩ := by rw [← h.page]
  rw [← hw] at hm
  refine ⟨moves, ?_⟩
  rw [hm]
  exact ⟨by rw [hsite]; exact h.target, by rw [hsite], h.calls.trans hcalls.symm⟩

theorem shownAfter_receive {m : Machine} {w : Page.World Listener} (h : m.Shows w)
    {f : Frame} {frames : List Frame} (hframes : m.frames = f :: frames)
    (r : Except Fault Reply) : (m.receive r frames f).ShownAfter w := by
  have hcalls : w.calls = (f :: frames).filterMap Frame.call? := by rw [h.calls, calls, hframes]
  cases f with
  | call c body pending =>
    have hend : (m.endCall c pending true frames).ShownAfter w :=
      shownAfter_endCall h.target h.page hcalls pending true
    cases body with
    | feed => exact hend
    | script id doing steps raises later =>
      cases r with
      | error why => exact hend
      | ok reply => exact ⟨[], h.target, h.page, hcalls⟩
  | within rest done =>
    cases r with
    | ok reply => exact ⟨[], h.target, h.page, hcalls⟩
    | error why => exact shownAfter_close h rfl (by rw [calls, calls, hframes]; rfl)

theorem shownAfter_advance {m : Machine} {w : Page.World Listener} (h : m.Shows w)
    {f : Frame} {frames : List Frame} (hframes : m.frames = f :: frames) :
    (m.advance frames f).ShownAfter w := by
  have hcalls : w.calls = (f :: frames).filterMap Frame.call? := by rw [h.calls, calls, hframes]
  cases f with
  | call c body pending =>
    have hend : ∀ failed, (m.endCall c pending failed frames).ShownAfter w := fun failed =>
      shownAfter_endCall h.target h.page hcalls pending failed
    cases body with
    | feed =>
      refine shownAfter_endCall ?_ ?_ hcalls pending false
      · cases hc : c.consumer with
        | _ => exact h.target
      · cases hc : c.consumer with
        | _ => exact h.page
    | script id doing steps raises later =>
      cases steps with
      | cons s steps => exact ⟨[], h.target, h.page, hcalls⟩
      | nil =>
        cases raises with
        | true => exact hend true
        | false =>
          cases later with
          | nil => exact hend false
          | cons rule later =>
            simp only [advance]
            split
            · exact ⟨[], h.target, h.page, hcalls⟩
            · exact ⟨[], h.target, h.page, hcalls⟩
  | within rest done =>
    cases rest with
    | cons s rest => exact ⟨[], h.target, h.page, hcalls⟩
    | nil => exact shownAfter_close h rfl (by rw [calls, calls, hframes]; rfl)

/-- Every step of a machine that keeps to its page is some moves of the page. -/
theorem shownAfter_step {m m' : Machine} {w : Page.World Listener} (h : m.Shows w)
    (hkeeps : m.KeepsToPage) (hstep : m.step = some m') : m'.ShownAfter w := by
  unfold step at hstep
  split at hstep
  · rename_i s hfocus
    rw [← Option.some.inj hstep]
    exact shownAfter_begin h fun a ha => hkeeps a (by rw [hfocus, ha])
  · rename_i r f frames hfocus hframes
    rw [← Option.some.inj hstep]
    exact shownAfter_receive h hframes r
  · rename_i f frames hfocus hframes
    rw [← Option.some.inj hstep]
    exact shownAfter_advance h hframes
  · exact absurd hstep (by simp)

/-- A step of a machine that keeps to its page. -/
def StepsTo (m m' : Machine) : Prop := m.KeepsToPage ∧ m.step = some m'

end Machine
end Scenario
end TraitIndex
