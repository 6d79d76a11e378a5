import TraitIndex.Scenario.Run

/-! What is pending does not matter until it is done.

    A step whose operation has called a consumer leaves something pending. What happens until the
    call has ended, and every call that follows, does not depend on what that is: the machine looks
    at the innermost thing begun only, and what is pending lies below. So where two steps begin the
    same operation, and what each leaves pending is nothing but a reply, they come to the same site
    with the same events. -/

namespace TraitIndex.Scenario

/-- What is pending is nothing but a reply, which is given at the site as it is then. -/
def Pending.Quiet (p : Pending) (reply : Site → Except Fault Reply) : Prop :=
  ∀ site : Site, site.resume p = (site, .ended (reply site))

theorem quiet_reply (r : Reply) : (Pending.reply r).Quiet fun _ => .ok r := fun _ => rfl

theorem quiet_answer (awaited : Awaited) (asker : Asker) :
    (Pending.answer awaited asker).Quiet fun site => asker.hears (site.response awaited) :=
  fun _ => rfl

namespace Machine

/-! ### What lies below -/

/-- A machine with more below it on the stack, and with notices written before. -/
def above (m : Machine) (below : List Frame) (earlier : List Notice) : Machine :=
  { m with frames := m.frames ++ below, notices := earlier ++ m.notices }

section Above

variable (m : Machine) (below frames : List Frame) (earlier : List Notice)

theorem proceed_above (site : Site) (p : Progress) :
    (m.above below earlier).proceed (frames ++ below) site p =
      (m.proceed frames site p).above below earlier := by
  cases p <;> rfl

theorem noting_above (ns : List Notice) :
    { m.above below earlier with notices := (m.above below earlier).notices ++ ns } =
      { m with notices := m.notices ++ ns }.above below earlier := by
  simp only [above, List.append_assoc]

theorem begin_above (s : Step) :
    (m.above below earlier).begin s = (m.begin s).above below earlier := by
  cases s with
  | act a =>
    simp only [begin]
    rw [← proceed_above, ← noting_above]
    rfl
  | attach s =>
    simp only [begin]
    rw [← proceed_above]
    simp only [above, List.append_assoc]
  | within steps =>
    have htarget : (m.above below earlier).site.target = m.site.target := rfl
    by_cases h : m.site.target = .page
    · rw [begin, begin, htarget, if_pos h, if_pos h]
      rfl
    · rw [begin, begin, htarget, if_neg h, if_neg h]
      rfl

theorem goOn_above (pending : Pending) (moved : Page Listener × Option (Call Listener)) :
    (m.above below earlier).goOn pending (frames ++ below) moved =
      (m.goOn pending frames moved).above below earlier := by
  obtain ⟨page, _ | call⟩ := moved
  · exact proceed_above m below frames earlier _ _
  · exact proceed_above m below frames earlier { m.site with page } (.calling call pending)

theorem endCall_above (call : Call Listener) (pending : Pending) (failed : Bool) :
    (m.above below earlier).endCall call pending failed (frames ++ below) =
      (m.endCall call pending failed frames).above below earlier := by
  cases failed with
  | true =>
    simp only [endCall, if_true, noting_above]
    exact goOn_above _ below frames earlier pending _
  | false => exact goOn_above m below frames earlier pending _

theorem receive_above (r : Except Fault Reply) (f : Frame) :
    (m.above below earlier).receive r (frames ++ below) f =
      (m.receive r frames f).above below earlier := by
  cases f with
  | call call body pending =>
    cases body with
    | feed => exact endCall_above m below frames earlier call pending true
    | script id doing steps raises later =>
      cases r with
      | error why => exact endCall_above m below frames earlier call pending true
      | ok reply => rfl
  | within rest done =>
    cases r with
    | error why => rfl
    | ok reply => rfl

theorem advance_above (f : Frame) :
    (m.above below earlier).advance (frames ++ below) f =
      (m.advance frames f).above below earlier := by
  cases f with
  | call call body pending =>
    cases body with
    | feed =>
      exact endCall_above { m with site := m.site.record call.consumer call.batch } below frames
        earlier call pending false
    | script id doing steps raises later =>
      cases steps with
      | cons s steps => rfl
      | nil =>
        cases raises with
        | true => exact endCall_above m below frames earlier call pending true
        | false =>
          cases later with
          | nil => exact endCall_above m below frames earlier call pending false
          | cons rule later =>
            have hscripts : (m.above below earlier).scripts = m.scripts := rfl
            rw [advance, advance, hscripts]
            cases fire call.batch rule id m.scripts with
            | none => rfl
            | some p => rfl
  | within rest done =>
    cases rest with
    | cons s rest => rfl
    | nil => rfl

/-- Something is begun or is to be begun above what lies below. -/
def IsBusy : Prop := m.frames ≠ [] ∨ ∃ s, m.focus = .run s

variable {m}

/-- A busy machine does not look below. -/
theorem step_above (h : m.IsBusy) :
    ∃ m' : Machine, ∀ below earlier,
      (m.above below earlier).step = some (m'.above below earlier) := by
  rcases hfocus : m.focus with s | r | _
  · refine ⟨m.begin s, fun below earlier => ?_⟩
    rw [← begin_above, step]
    simp only [above, hfocus]
  · rcases hframes : m.frames with _ | ⟨f, frames⟩
    · exact absurd h (by simp [IsBusy, hfocus, hframes])
    · refine ⟨m.receive r frames f, fun below earlier => ?_⟩
      rw [← receive_above, step]
      simp only [above, hfocus, hframes, List.cons_append]
  · rcases hframes : m.frames with _ | ⟨f, frames⟩
    · exact absurd h (by simp [IsBusy, hfocus, hframes])
    · refine ⟨m.advance frames f, fun below earlier => ?_⟩
      rw [← advance_above, step]
      simp only [above, hfocus, hframes, List.cons_append]

end Above

/-! ### The last call -/

/-- The machine where a call is the last thing begun, or where none is left and what was pending
    has been replied. -/
def landed (m : Machine) (last : Option (Call Listener × Body)) (pending : Pending)
    (reply : Site → Except Fault Reply) (earlier : List Notice) : Machine :=
  match last with
  | some (call, body) => m.above [.call call body pending] earlier
  | none => { m with focus := .reply (reply m.site) }.above [] earlier

section Last

variable {m : Machine}

/-- Whatever is pending, the relay of the page goes on in one way. -/
theorem goOn_landed (hframes : m.frames = []) (moved : Page Listener × Option (Call Listener)) :
    ∃ (m' : Machine) (last : Option (Call Listener × Body)), m'.frames = [] ∧
      ∀ below pending reply earlier, pending.Quiet reply →
        (m.above below earlier).goOn pending [] moved = m'.landed last pending reply earlier := by
  obtain ⟨page, _ | call⟩ := moved
  · refine ⟨{ m with site := { m.site with page } }, none, hframes, ?_⟩
    intro below pending reply earlier hquiet
    have hresume := hquiet { m.site with page }
    show (m.above below earlier).proceed [] (Site.resume { m.site with page } pending).1
      (Site.resume { m.site with page } pending).2 = _
    rw [hresume]
    simp only [proceed, landed, above, hframes]
    rfl
  · refine ⟨{ m with
      site := { m.site with page }
      focus := .advance
      events := m.events ++ m.eventFor call }, some (call, m.bodyFor call.consumer), hframes, ?_⟩
    intro below pending reply earlier _
    simp only [goOn, proceed, landed, above, hframes]
    rfl

theorem endCall_landed (hframes : m.frames = []) (call : Call Listener) (failed : Bool) :
    ∃ (m' : Machine) (last : Option (Call Listener × Body)), m'.frames = [] ∧
      ∀ below pending reply earlier, pending.Quiet reply →
        (m.above below earlier).endCall call pending failed [] =
          m'.landed last pending reply earlier := by
  cases failed with
  | true =>
    obtain ⟨m', last, hm', h⟩ := goOn_landed (m :=
      { m with notices := m.notices ++ [.consumerFailed call.batch.traits] }) hframes
      (m.site.page.finish call)
    refine ⟨m', last, hm', fun below pending reply earlier hquiet => ?_⟩
    rw [← h below pending reply earlier hquiet, ← noting_above]
    rfl
  | false =>
    obtain ⟨m', last, hm', h⟩ := goOn_landed hframes (m.site.page.finish call)
    exact ⟨m', last, hm', fun below pending reply earlier hquiet =>
      h below pending reply earlier hquiet⟩

/-- The call that was begun first goes on in one way, whatever is pending. -/
def GoesOn (m : Machine) (call : Call Listener) (body : Body) : Prop :=
  ∃ (m' : Machine) (last : Option (Call Listener × Body)), m'.frames = [] ∧
    ∀ pending reply earlier, pending.Quiet reply →
      (m.above [.call call body pending] earlier).step = some (m'.landed last pending reply earlier)

/-- A call that has ended goes on as its relay does. -/
theorem goesOn_of_endCall {call : Call Listener} {body : Body} (ended : Machine)
    (hended : ended.frames = []) (failed : Bool)
    (h : ∀ pending earlier, (m.above [.call call body pending] earlier).step =
      some ((ended.above [.call call body pending] earlier).endCall call pending failed [])) :
    m.GoesOn call body := by
  obtain ⟨m', last, hm', hlanded⟩ := endCall_landed hended call failed
  refine ⟨m', last, hm', fun pending reply earlier hquiet => ?_⟩
  rw [h pending earlier, hlanded _ pending reply earlier hquiet]

/-- A call that has not ended is still the last thing begun. -/
theorem goesOn_of_above {call : Call Listener} {body : Body} (m' : Machine) (hm' : m'.frames = [])
    (body' : Body)
    (h : ∀ pending earlier, (m.above [.call call body pending] earlier).step =
      some (m'.above [.call call body' pending] earlier)) : m.GoesOn call body :=
  ⟨m', some (call, body'), hm', fun pending _ earlier _ => h pending earlier⟩

theorem goesOn_receive (hframes : m.frames = []) {r : Except Fault Reply}
    (hfocus : m.focus = .reply r) (call : Call Listener) (body : Body) : m.GoesOn call body := by
  have hstep : ∀ pending earlier, (m.above [.call call body pending] earlier).step =
      some ((m.above [.call call body pending] earlier).receive r []
        (.call call body pending)) := by
    intro pending earlier
    simp only [step, above, hfocus, hframes, List.nil_append]
  cases body with
  | feed => exact goesOn_of_endCall m hframes true hstep
  | script id doing steps raises later =>
    cases r with
    | error why => exact goesOn_of_endCall m hframes true hstep
    | ok reply =>
      refine goesOn_of_above { m with
        focus := .advance
        events := m.events ++ (doing.map (Event.did · reply)).toList } hframes
        (.script id none steps raises later) fun pending earlier => ?_
      rw [hstep]
      simp only [receive, above, hframes, List.nil_append]

theorem goesOn_advance (hframes : m.frames = []) (hfocus : m.focus = .advance)
    (call : Call Listener) (body : Body) : m.GoesOn call body := by
  have hstep : ∀ pending earlier, (m.above [.call call body pending] earlier).step =
      some ((m.above [.call call body pending] earlier).advance []
        (.call call body pending)) := by
    intro pending earlier
    simp only [step, above, hfocus, hframes, List.nil_append]
  cases body with
  | feed =>
    exact goesOn_of_endCall { m with site := m.site.record call.consumer call.batch } hframes
      false hstep
  | script id doing steps raises later =>
    cases steps with
    | cons s steps =>
      refine goesOn_of_above { m with focus := .run s } hframes
        (.script id (some s) steps raises later) fun pending earlier => ?_
      rw [hstep]
      simp only [advance, above, hframes, List.nil_append]
    | nil =>
      cases raises with
      | true => exact goesOn_of_endCall m hframes true hstep
      | false =>
        cases later with
        | nil => exact goesOn_of_endCall m hframes false hstep
        | cons rule later =>
          cases hfire : fire call.batch rule id m.scripts with
          | none =>
            refine goesOn_of_above m hframes (.script id doing [] false later)
              fun pending earlier => ?_
            rw [hstep]
            simp only [advance, above, hframes, hfire, List.nil_append]
          | some fired =>
            refine goesOn_of_above { m with scripts := fired.1 } hframes
              (.script id doing fired.2.steps fired.2.raises later) fun pending earlier => ?_
            rw [hstep]
            simp only [advance, above, hframes, hfire, List.nil_append]

theorem goesOn_of_not_busy (h : ¬ m.IsBusy) (call : Call Listener) (body : Body) :
    m.GoesOn call body := by
  rw [IsBusy, not_or, Classical.not_not] at h
  obtain ⟨hframes, hrun⟩ := h
  rcases hfocus : m.focus with s | r | _
  · exact absurd ⟨s, hfocus⟩ hrun
  · exact goesOn_receive hframes hfocus call body
  · exact goesOn_advance hframes hfocus call body

end Last

/-! ### Runs -/

theorem run_of_step {m m' : Machine} (h : m.step = some m') : m.run = m'.run := by
  rw [run]
  split
  · rename_i hnone
    rw [hnone] at h
    exact absurd h (by simp)
  · rename_i m'' hsome
    rw [hsome] at h
    rw [Option.some.inj h]

theorem run_of_end {m : Machine} (h : m.step = none) : m.run = m := by
  rw [run]
  split
  · rfl
  · rename_i m' hsome
    rw [hsome] at h
    exact absurd h (by simp)

/-- What happens until a call has ended, and all that follow it, is the same whatever is pending;
    then that is replied. -/
theorem run_above (m : Machine) (call : Call Listener) (body : Body) :
    ∃ m' : Machine, ∀ pending reply earlier, pending.Quiet reply →
      (m.above [.call call body pending] earlier).run =
        { site := m'.site, scripts := m'.scripts, focus := .reply (reply m'.site)
          events := m'.events, notices := earlier ++ m'.notices } := by
  by_cases hbusy : m.IsBusy
  · obtain ⟨next, hstep⟩ := step_above hbusy
    obtain ⟨m', hrun⟩ := run_above next call body
    refine ⟨m', fun pending reply earlier hpending => ?_⟩
    rw [run_of_step (hstep _ earlier), hrun pending reply earlier hpending]
  · obtain ⟨next, last, hframes, hstep⟩ := goesOn_of_not_busy hbusy call body
    cases last with
    | some last =>
      obtain ⟨m', hrun⟩ := run_above next last.1 last.2
      refine ⟨m', fun pending reply earlier hpending => ?_⟩
      rw [run_of_step (hstep pending reply earlier hpending), landed]
      exact hrun pending reply earlier hpending
    | none =>
      refine ⟨next, fun pending reply earlier hpending => ?_⟩
      rw [run_of_step (hstep pending reply earlier hpending), landed, run_of_end]
      · simp only [above, hframes, List.nil_append]
      · simp only [step, above, hframes, List.nil_append]
termination_by
  let reference := m.above [.call call body (.reply .nothing)] []
  (reference.budget, reference.waiting, reference.work)
decreasing_by
  · exact lex_of_below (step_below (hstep _ _))
  · exact lex_of_below (step_below (hstep _ _ [] (quiet_reply .nothing)))

end Machine

/-! ### Steps of a scenario -/

/-- An action leads to a site, perhaps by starting a call, and is replied when no call is left. -/
def Site.Begins (site : Site) (a : Action) (moved : Site × Option (Call Listener))
    (reply : Site → Except Fault Reply) : Prop :=
  ∃ (progress : Progress) (notices : List Notice), site.act a = (moved.1, progress, notices) ∧
    match moved.2 with
    | none => progress = .ended (reply moved.1)
    | some call => ∃ pending : Pending, pending.Quiet reply ∧ progress = .calling call pending

/-- What is asked of a site with the page as its target is served by that page. -/
theorem Site.act_request {site : Site} (htarget : site.target = .page) {d : Api.Draft}
    {r : Api.Request} (hr : d.request = .ok r) :
    site.act (.request d) = site.servePage r (.direct r.origin) := by
  simp only [act, hr, serve, htarget, if_true]

theorem run_act (stage : Stage) (a : Action) : (stage.machine (.act a)).run =
    ((stage.machine (.act a)).begin (.act a)).run := Machine.run_of_step rfl

/-- An action that starts no call is done at once. -/
theorem perform_ended (stage : Stage) {a : Action} {site : Site}
    {reply : Site → Except Fault Reply} (h : stage.site.Begins a (site, none) reply) :
    ∃ notices, stage.perform (.act a) =
      (⟨site, stage.scripts⟩, { reply := reply site, events := [], notices }) := by
  obtain ⟨progress, notices, hact, rfl⟩ := h
  have hbegin : (stage.machine (.act a)).begin (.act a) =
      { site, scripts := stage.scripts, focus := .reply (reply site), notices } := by
    simp only [Machine.begin, Stage.machine, hact, Machine.proceed, List.nil_append]
  exact ⟨notices, by rw [Stage.perform, run_act, hbegin, Machine.run_of_end rfl]⟩

/-- An action that has ended when it was begun is done to its end. -/
theorem perform_of_act (stage : Stage) {a : Action} {site : Site} {r : Except Fault Reply}
    {notices : List Notice} (h : stage.site.act a = (site, .ended r, notices)) :
    ∃ notices, stage.perform (.act a) =
      (⟨site, stage.scripts⟩, { reply := r, events := [], notices }) := by
  have hbegins : stage.site.Begins a (site, none) fun _ => r := ⟨_, _, h, rfl⟩
  exact perform_ended stage hbegins

/-- Actions that begin the same come to the same stage with the same events. -/
theorem perform_begins (stage : Stage) (moved : Site × Option (Call Listener)) :
    ∃ (stage' : Stage) (events : List Event), ∀ a reply, stage.site.Begins a moved reply →
      ∃ notices, stage.perform (.act a) =
        (stage', { reply := reply stage'.site, events, notices }) := by
  obtain ⟨site, _ | call⟩ := moved
  · exact ⟨⟨site, stage.scripts⟩, [], fun a reply h => perform_ended stage h⟩
  · obtain ⟨m, hrun⟩ := Machine.run_above
      { site, scripts := stage.scripts, focus := .advance
        events := (stage.machine (.within [])).eventFor call } call
      ((stage.machine (.within [])).bodyFor call.consumer)
    refine ⟨⟨m.site, m.scripts⟩, m.events, fun a reply h => ?_⟩
    obtain ⟨progress, notices, hact, pending, hquiet, rfl⟩ := h
    have hbegin : (stage.machine (.act a)).begin (.act a) =
        Machine.above
          { site, scripts := stage.scripts, focus := .advance
            events := (stage.machine (.within [])).eventFor call }
          [.call call ((stage.machine (.within [])).bodyFor call.consumer) pending] notices := by
      simp only [Machine.begin, Stage.machine, hact, Machine.proceed, Machine.above,
        List.nil_append, List.append_nil]
      rfl
    refine ⟨notices ++ m.notices, ?_⟩
    rw [Stage.perform, run_act, hbegin, hrun pending reply notices hquiet]

end TraitIndex.Scenario
