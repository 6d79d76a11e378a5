import TraitIndex.Proofs.Renumbering
import TraitIndex.Scenario.Site

/-! Sites with a past.

    A site where much has happened before, and nothing of it is left but numbers: its page has a
    revision, its server's feed has given numbers, and consumers have attached and gone. Every
    action on it comes to what it comes to on the site without the past, with the numbers shifted
    and the consumers renamed. -/

namespace TraitIndex.Scenario

open Api (Offset)

/-- What is left of a past: by how much numbers are shifted, and who attached. -/
structure Past where
  offset : Offset
  scripts : List Script

/-- The action is none that a client does, and no request. -/
def Action.IsLocal : Action → Prop
  | .request _ | .client _ | .clientLoadFragment .. => False
  | _ => True

namespace Past

variable (o : Past)

/-- Scripted consumers are counted from the first that ever attached. -/
def listener : Listener → Listener
  | .script id => .script (id + o.scripts.length)
  | l => l

mutual

/-- The reply with what the server said shifted. -/
def reply : Reply → Reply
  | .response r origin => .response (o.offset.response r) origin
  | .list rs => .list (replies rs)
  | r => r

def replies : List Reply → List Reply
  | [] => []
  | r :: rest => reply r :: replies rest

end

/-- The page with its past. -/
def page (p : Page Listener) : Page Listener := p.shift o.listener o.offset.revision

/-- The site with its past. -/
def site (s : Site) : Site :=
  { s with page := o.page s.page, serverFeed := s.serverFeed.shift o.offset.seq }

/-- What an operation on the page comes to, with the past. -/
def moved (m : Page Listener × Option (Call Listener)) : Page Listener × Option (Call Listener) :=
  Page.shifted o.listener o.offset.revision m

/-! ### What corresponds -/

/-- Both drafts are faulty alike, or they draft a request and the shifted one. -/
def Drafts (d d' : Api.Draft) : Prop :=
  (∃ why, d.request = .error why ∧ d'.request = .error why) ∨
    ∃ r, d.request = .ok r ∧ o.offset.Fits r ∧ d'.request = .ok (o.offset.request r)

inductive Actions : Action → Action → Prop where
  | request {d d' : Api.Draft} (h : o.Drafts d d') : Actions (.request d) (.request d')
  | same {a : Action} (h : a.IsLocal) : Actions a a

/-- The second site is the first with its past. -/
structure Sites (s s' : Site) : Prop where
  target : s.target = .page
  numbered : s.serverFeed.Numbered
  later : s' = o.site s

inductive Awaiteds : Awaited → Awaited → Prop where
  | receipt (r : Api.Receipt) : Awaiteds (.receipt r) (.receipt r)
  | deliveries {n n' : Nat} (h : Feed.CursorShift o.offset.seq n n') :
    Awaiteds (.deliveries n) (.deliveries n')

inductive Pendings : Pending → Pending → Prop where
  | reply (r : Reply) : Pendings (.reply r) (.reply (o.reply r))
  | load (rest : List Batch) (count : Nat) : Pendings (.load rest count) (.load rest count)
  | answer {a a' : Awaited} (h : o.Awaiteds a a') (origin : Option String) :
    Pendings (.answer a (.direct origin)) (.answer a' (.direct origin))

inductive Progresses : Progress → Progress → Prop where
  | ended (r : Except Fault Reply) : Progresses (.ended r) (.ended (r.map o.reply))
  | calling (call : Call Listener) {p p' : Pending} (h : o.Pendings p p') :
    Progresses (.calling call p) (.calling (call.rename o.listener) p')

/-- What something comes to, and what it comes to with the past. -/
def Comes (x x' : Site × Progress) : Prop := o.Sites x.1 x'.1 ∧ o.Progresses x.2 x'.2

/-- What an action comes to, and what it comes to with the past. -/
def Acts (x x' : Site × Progress × List Notice) : Prop :=
  o.Comes (x.1, x.2.1) (x'.1, x'.2.1) ∧ x'.2.2 = x.2.2

theorem replies_eq_map (rs : List Reply) : o.replies rs = rs.map o.reply := by
  induction rs with
  | nil => rfl
  | cons r rest ih => rw [replies, ih, List.map_cons]

variable {o} {s s' : Site}

/-! ### Operations on a site -/

theorem Sites.later_target (h : o.Sites s s') : s'.target = .page := by
  rw [h.later]
  exact h.target

theorem Sites.later_page (h : o.Sites s s') : s'.page = o.page s.page := by
  rw [h.later]
  rfl

theorem Sites.accept (h : o.Sites s s') (b : Batch) :
    s'.page.accept b = o.moved (s.page.accept b) := by
  rw [h.later_page]
  exact s.page.accept_shift o.listener o.offset.revision b

/-- What is done to the relay alone. -/
theorem Sites.relay (h : o.Sites s s')
    (f : Relay Listener → Relay Listener × Option (Call Listener))
    (hf : ∀ r, f (r.rename o.listener) = Relay.renamed o.listener (f r)) :
    ({ s'.page with relay := (f s'.page.relay).1 }, (f s'.page.relay).2) =
      o.moved ({ s.page with relay := (f s.page.relay).1 }, (f s.page.relay).2) := by
  have hrelay : s'.page.relay = s.page.relay.rename o.listener := by rw [h.later_page]; rfl
  rw [hrelay, hf, h.later_page]
  rfl

theorem Sites.withPage (h : o.Sites s s') (p : Page Listener) :
    o.Sites { s with page := p } { s' with page := o.page p } := by
  obtain ⟨htarget, hnumbered, rfl⟩ := h
  exact ⟨htarget, hnumbered, rfl⟩

theorem comes_ended (h : o.Sites s s') (r : Except Fault Reply) :
    o.Comes (s, .ended r) (s', .ended (r.map o.reply)) := ⟨h, .ended r⟩

theorem acts_look (h : o.Sites s s') (r : Except Fault Reply) :
    o.Acts (s.look r) (s'.look (r.map o.reply)) := ⟨comes_ended h r, rfl⟩

theorem comes_after (h : o.Sites s s') (m : Page Listener × Option (Call Listener))
    {p p' : Pending} (hp : o.Pendings p p') (r : Except Fault Reply) :
    o.Comes (s.after m p r) (s'.after (o.moved m) p' (r.map o.reply)) := by
  obtain ⟨page, _ | call⟩ := m
  · exact ⟨h.withPage page, .ended r⟩
  · exact ⟨h.withPage page, .calling call hp⟩

theorem response_awaited (h : o.Sites s s') {a a' : Awaited} (ha : o.Awaiteds a a') :
    s'.response a' = o.offset.response (s.response a) := by
  obtain ⟨-, hnumbered, rfl⟩ := h
  cases ha with
  | receipt r => exact o.offset.response_receipt r s.page.revision
  | deliveries hn => exact o.offset.response_deliveries hnumbered hn

theorem comes_afterServing (h : o.Sites s s') (m : Page Listener × Option (Call Listener))
    {a a' : Awaited} (ha : o.Awaiteds a a') (origin : Option String) :
    o.Comes (s.afterServing m a (.direct origin))
      (s'.afterServing (o.moved m) a' (.direct origin)) := by
  have hafter := comes_after h m (.answer ha origin)
    (.ok (.response (Site.response { s with page := m.1 } a) origin))
  have hresponse := response_awaited (h.withPage m.1) ha
  have hhears : (Asker.direct origin).hears
      (Site.response { s' with page := (o.moved m).1 } a') =
        .ok (.response (o.offset.response (Site.response { s with page := m.1 } a)) origin) :=
    congrArg (fun r => Except.ok (Reply.response r origin)) hresponse
  simp only [Site.afterServing, hhears]
  exact hafter

theorem comes_load (h : o.Sites s s') (count : Nat) (rest : List Batch) :
    o.Comes (s.load count rest) (s'.load count rest) := by
  induction rest generalizing s s' count with
  | nil => exact comes_ended h _
  | cons b rest ih =>
    have hcontribute : s'.page.contribute b = (s.page.contribute b).map o.moved := by
      rw [h.later_page]
      exact s.page.contribute_shift o.listener o.offset.revision b
    rw [Site.load, Site.load, hcontribute]
    rcases s.page.contribute b with why | ⟨page, _ | call⟩
    · exact comes_ended h _
    · exact ih (h.withPage page) _
    · exact ⟨h.withPage page, .calling call (.load rest _)⟩

theorem comes_resume (h : o.Sites s s') {p p' : Pending} (hp : o.Pendings p p') :
    o.Comes (s.resume p) (s'.resume p') := by
  cases hp with
  | reply r => exact comes_ended h _
  | load rest count => exact comes_load h count rest
  | @answer a a' ha origin =>
    have hhears : (Asker.direct origin).hears (s'.response a') =
        .ok (.response (o.offset.response (s.response a)) origin) :=
      congrArg (fun r => Except.ok (Reply.response r origin)) (response_awaited h ha)
    rw [Site.resume, Site.resume, hhears]
    exact comes_ended h _

theorem sites_record (h : o.Sites s s') (l : Listener) (b : Batch) :
    o.Sites (s.record l b) (s'.record (o.listener l) b) := by
  obtain ⟨htarget, hnumbered, rfl⟩ := h
  cases l with
  | feed name => exact ⟨htarget, hnumbered, rfl⟩
  | serverFeed =>
    refine ⟨htarget, Feed.numbered_record hnumbered b, ?_⟩
    have hrecord := s.serverFeed.record_shift o.offset.seq b
    simp only [Site.record, site, listener, hrecord]
  | script id => exact ⟨htarget, hnumbered, rfl⟩

/-! ### Actions -/

theorem acts_change (h : o.Sites s s') {f : Page Listener → Page Listener}
    (hf : ∀ p, f (o.page p) = o.page (f p)) : o.Acts (s.change f) (s'.change f) := by
  have hsites := h.withPage (f s.page)
  rw [← hf, ← h.later_page] at hsites
  exact ⟨comes_ended hsites _, rfl⟩

theorem acts_contribute (h : o.Sites s s') (past : Bool) (batch : Outcome Batch) :
    o.Acts (s.contribute past batch) (s'.contribute past batch) := by
  have hclosed : s'.page.closed = s.page.closed := by rw [h.later_page]; rfl
  simp only [Site.contribute, h.later_target, h.target, hclosed, true_and, if_true, h.accept]
  split
  · exact acts_look h _
  · split
    · exact ⟨comes_ended h _, rfl⟩
    · exact ⟨comes_after h _ (.reply _) _, rfl⟩

theorem acts_attach (h : o.Sites s s') (l : Listener) :
    o.Acts (s.attach l) (s'.attach (o.listener l)) := by
  have hattach : s'.page.attach (o.listener l) = (s.page.attach l).map o.moved := by
    rw [h.later_page]
    exact s.page.attach_shift o.listener o.offset.revision l
  simp only [Site.attach, h.later_target, h.target, hattach]
  rcases s.page.attach l with why | m
  · exact acts_look h _
  · exact ⟨comes_after h m (.reply _) _, rfl⟩

theorem acts_withBatch (h : o.Sites s s') (v : Value) {f f' : Batch → Site × Progress}
    (hf : ∀ b, o.Comes (f b) (f' b)) : o.Acts (s.withBatch v f) (s'.withBatch v f') := by
  unfold Site.withBatch
  simp only
  rcases (Intake.batch v).result with why | b
  · exact ⟨comes_ended h _, rfl⟩
  · exact ⟨hf b, rfl⟩

/-- The feed of the server is a consumer under its own name. -/
theorem attached_iff (p : Page Listener) :
    ((o.page p).relay.consumer = some .serverFeed) ↔ p.relay.consumer = some .serverFeed := by
  show p.relay.consumer.map o.listener = some .serverFeed ↔ _
  rcases p.relay.consumer with _ | (name | _ | id)
  · simp
  · simp [listener]
  · simp [listener]
  · simp [listener]

theorem plans_page (h : o.Sites s s') {r : Api.Request} (hr : o.offset.Fits r) :
    o.offset.Plans
        (Api.plan s.page s.serverFeed (s.page.relay.consumer = some .serverFeed) r).1
        (Api.plan s'.page s'.serverFeed (s'.page.relay.consumer = some .serverFeed)
          (o.offset.request r)).1 ∧
      (Api.plan s'.page s'.serverFeed (s'.page.relay.consumer = some .serverFeed)
          (o.offset.request r)).2 =
        (Api.plan s.page s.serverFeed (s.page.relay.consumer = some .serverFeed) r).2 := by
  have hattached : decide (s'.page.relay.consumer = some .serverFeed) =
      decide (s.page.relay.consumer = some .serverFeed) := by
    rw [h.later]
    exact decide_eq_decide.2 (attached_iff s.page)
  rw [hattached, h.later]
  exact Offset.plans_plan o.listener h.numbered hr

theorem acts_servePage (h : o.Sites s s') {r : Api.Request} (hr : o.offset.Fits r)
    (origin : Option String) :
    o.Acts (s.servePage r (.direct origin))
      (s'.servePage (o.offset.request r) (.direct origin)) := by
  have hplans := plans_page h hr
  rcases hplan : Api.plan s.page s.serverFeed (s.page.relay.consumer = some .serverFeed) r
    with ⟨plan, notices⟩
  rcases hplan' : Api.plan s'.page s'.serverFeed (s'.page.relay.consumer = some .serverFeed)
    (o.offset.request r) with ⟨plan', notices'⟩
  rw [hplan, hplan'] at hplans
  obtain ⟨hplans, rfl⟩ := hplans
  simp only [Site.servePage, hplan, hplan']
  cases hplans with
  | answer response => exact ⟨comes_ended h _, rfl⟩
  | contribute b receipt =>
    have hserving := comes_afterServing h (s.page.accept b) (.receipt receipt) origin
    rw [← h.accept] at hserving
    exact ⟨hserving, rfl⟩
  | @poll n n' hn =>
    have hmoved := h.relay (·.attach .serverFeed) fun r => r.attach_rename o.listener .serverFeed
    have hserving := comes_afterServing h
      ({ s.page with relay := (s.page.relay.attach .serverFeed).1 },
        (s.page.relay.attach .serverFeed).2) (.deliveries hn) origin
    rw [← hmoved] at hserving
    exact ⟨hserving, rfl⟩
  | reset =>
    have hreset : s'.page.reset = o.page s.page.reset := by
      rw [h.later_page]
      exact s.page.reset_shift o.listener o.offset.revision
    have hclear : s'.serverFeed.clear = s.serverFeed.clear.shift o.offset.seq := by
      rw [h.later]
      rfl
    have hsites : o.Sites { s with page := s.page.reset, serverFeed := s.serverFeed.clear }
        { s' with page := s'.page.reset, serverFeed := s'.serverFeed.clear } := by
      refine ⟨h.target, nofun, ?_⟩
      rw [hreset, hclear, h.later]
      rfl
    exact ⟨comes_ended hsites _, rfl⟩

/-- An action that is done without a request comes to the same, apart from the past. -/
theorem acts_local (h : o.Sites s s') {a : Action} (ha : a.IsLocal) :
    o.Acts (s.act a) (s'.act a) := by
  have htarget := h.later_target
  have hpage := h.later_page
  have hfeed : ∀ name, s'.feed name = s.feed name := fun name => by rw [h.later]; rfl
  have hdisk : s'.disk = s.disk := by rw [h.later]; rfl
  cases a with
  | contribute v | contributePast v =>
    simp only [Site.act, h.target, htarget]
    exact acts_contribute h _ _
  | contributeServed v =>
    simp only [Site.act, h.target, htarget]
    exact acts_contribute h _ _
  | attachValue =>
    have hclosed : s'.page.closed = s.page.closed := by rw [hpage]; rfl
    simp only [Site.act, h.target, htarget, hclosed]
    exact acts_look h _
  | attachFeed name => exact acts_attach h (.feed name)
  | deliver v =>
    have hdeliver := fun b =>
      h.relay (·.deliver b) fun r => r.deliver_rename o.listener b
    simp only [Site.act, h.target, htarget, hdeliver]
    exact acts_withBatch h v fun b => comes_after h _ (.reply .nothing) (.ok .nothing)
  | reset =>
    simp only [Site.act, h.target, htarget]
    exact acts_change h fun p => p.reset_shift o.listener o.offset.revision
  | close =>
    simp only [Site.act, h.target, htarget]
    exact acts_change h fun p => p.close_shift o.listener o.offset.revision
  | closeRelay =>
    simp only [Site.act, h.target, htarget]
    exact acts_change h fun p => rfl
  | resetTable =>
    simp only [Site.act, h.target, htarget]
    exact acts_change h fun p => p.clearTable_shift o.listener o.offset.revision
  | get v | has v =>
    have htable : s'.page.table = s.page.table := by rw [hpage]; rfl
    simp only [Site.act, Site.lookAtTable, h.target, htarget, htable]
    rcases Intake.text v with why | t
    · exact acts_look h _
    · exact acts_look h _
  | traits | snapshot =>
    have htable : s'.page.table = s.page.table := by rw [hpage]; rfl
    simp only [Site.act, Site.lookAtTable, h.target, htarget, htable]
    exact acts_look h _
  | backlog =>
    have hbacklog : s'.page.relay.backlog = s.page.relay.backlog := by rw [hpage]; rfl
    simp only [Site.act, Site.lookAtRelay, h.target, htarget, hbacklog]
    exact acts_look h _
  | hasConsumer =>
    have hconsumer : s'.page.relay.consumer.isSome = s.page.relay.consumer.isSome := by
      rw [hpage]
      exact Option.isSome_map
    simp only [Site.act, Site.lookAtRelay, h.target, htarget, hconsumer]
    exact acts_look h _
  | sharesRelay =>
    simp only [Site.act, Site.lookAtTable, h.target, htarget]
    exact acts_look h _
  | callFeed name v =>
    exact acts_withBatch h v fun b =>
      comes_ended (sites_record h (.feed name) b) (.ok .nothing)
  | latest name =>
    simp only [Site.act, hfeed]
    exact acts_look h _
  | since name v =>
    simp only [Site.act, hfeed]
    by_cases hempty : (s.feed name).deliveries.isEmpty = true
    · rw [if_pos hempty, if_pos hempty]
      exact acts_look h _
    · rw [if_neg hempty, if_neg hempty]
      rcases v.integer with why | n
      · exact acts_look h _
      · exact acts_look h _
  | clearFeed name =>
    have hsites : o.Sites (s.setFeed name (s.feed name).clear)
        (s'.setFeed name (s'.feed name).clear) := by
      rw [h.later]
      exact ⟨h.target, h.numbered, rfl⟩
    exact ⟨comes_ended hsites _, rfl⟩
  | request d => exact ha.elim
  | loadFragment path trait =>
    simp only [Site.act, h.target, htarget, Site.loadFragment, hdisk]
    rcases (Loading.fragment s.disk (Path.ofText path) trait).result with why | b
    · exact ⟨comes_ended h _, rfl⟩
    · exact ⟨comes_load h 0 [b], rfl⟩
  | loadPath path =>
    simp only [Site.act, Site.loadPath, h.target, htarget, hdisk]
    rcases (Loading.batches s.disk (Path.ofText path)).result with why | bs
    · exact ⟨comes_ended h _, rfl⟩
    · exact ⟨comes_load h 0 bs, rfl⟩
  | clientUrl =>
    have hurl : s'.url = s.url := by rw [h.later]; rfl
    simp only [Site.act, hurl]
    exact acts_look h _
  | client call => exact ha.elim
  | clientLoadFragment path trait => exact ha.elim

/-- An action and the corresponding one come to the same, apart from the past. -/
theorem acts_act (h : o.Sites s s') {a a' : Action} (ha : o.Actions a a') :
    o.Acts (s.act a) (s'.act a') := by
  cases ha with
  | @request d d' hd =>
    rcases hd with ⟨why, hd, hd'⟩ | ⟨r, hd, hr, hd'⟩
    · simp only [Site.act, hd, hd']
      exact acts_look h _
    · simp only [Site.act, hd, hd', Site.serve, h.target, h.later_target, if_true]
      exact acts_servePage h hr r.origin
  | same ha => exact acts_local h ha

end Past
end TraitIndex.Scenario
