import TraitIndex.Scenario.Machine

/-! Scenarios end.

    Every step of a machine lowers, in this order: the `budget`, what the consumers and the steps
    can still set off; the number of batches `waiting` in the backlog or to be loaded; and the
    `work` on the stack. A consumer that uses the page while it is called pays for it out of the
    budget of its rule, so `run` ends whatever consumers do. -/

namespace TraitIndex.Scenario

/-- What the step in focus can set off. -/
def Focus.weight : Focus → Nat
  | .run s => s.weight
  | _ => 0

/-- How far a focus is from a step. -/
def Focus.work : Focus → Nat
  | .run _ => 0
  | .advance => 1
  | .reply _ => 2

/-- What the steps of something begun can set off. -/
def Frame.weight : Frame → Nat
  | .call _ (.script _ _ steps _ _) _ => stepsWeight steps
  | .call _ .feed _ => 0
  | .within rest _ => stepsWeight rest

/-- The batches still to be contributed, each for itself and for its place in the backlog. -/
def Pending.batches : Pending → Nat
  | .load rest _ => 2 * rest.length
  | _ => 0

/-- The batches that wait for something begun to end. -/
def Frame.batches : Frame → Nat
  | .call _ _ pending => pending.batches
  | .within .. => 0

/-- The rules not yet looked at. -/
def Body.work : Body → Nat
  | .feed => 0
  | .script _ _ _ _ later => later.length

/-- The work on something begun, its steps apart. -/
def Frame.work : Frame → Nat
  | .call _ body _ => 3 + body.work
  | .within .. => 3

/-- A quantity of frames added up. -/
def total (f : Frame → Nat) : List Frame → Nat
  | [] => 0
  | a :: frames => f a + total f frames

@[simp] theorem total_cons (f : Frame → Nat) (a : Frame) (frames : List Frame) :
    total f (a :: frames) = f a + total f frames := rfl

/-- How many batches wait in the backlog of a site. -/
def Site.backlog (site : Site) : Nat := site.page.relay.backlog.length

namespace Machine

/-- What consumers and steps can still set off. -/
def budget (m : Machine) : Nat :=
  scriptsWeight m.scripts + m.focus.weight + total Frame.weight m.frames

/-- The batches in the backlog and those to be loaded. -/
def waiting (m : Machine) : Nat := m.site.backlog + total Frame.batches m.frames

/-- The work in focus and on the stack. -/
def work (m : Machine) : Nat := m.focus.work + total Frame.work m.frames

end Machine

/-! ### What waits -/

/-- Loading to the end leaves in the backlog at most the loaded batches; a call on the way leaves
    fewer to load. -/
theorem backlog_load (site : Site) (count : Nat) (rest : List Batch) :
    (∀ r site', site.load count rest = (site', .ended r) →
      site'.backlog ≤ site.backlog + rest.length) ∧
    (∀ call pending site', site.load count rest = (site', .calling call pending) →
      site'.backlog + pending.batches < site.backlog + 2 * rest.length) := by
  induction rest generalizing site count with
  | nil => simp [Site.load]
  | cons b rest ih =>
    have hb := Page.backlog_accept site.page b
    unfold Site.load Page.contribute
    by_cases hc : site.page.closed = true
    · simp [hc]
    · simp only [hc, Bool.false_eq_true, if_false]
      cases ha : site.page.accept b with
      | mk page next =>
        simp only [ha] at hb
        cases next with
        | none =>
          simp only [Option.map_none, Option.getD_none, Nat.add_zero] at hb
          obtain ⟨h1, h2⟩ := ih { site with page } (count + b.recordCount)
          simp only [Site.backlog, hb, List.length_cons] at *
          refine ⟨fun r s h => ?_, fun c p s h => ?_⟩
          · have := h1 r s h
            omega
          · have := h2 c p s h
            omega
        | some call =>
          simp only [Option.map_some, Option.getD_some] at hb
          refine ⟨by simp, fun c p s h => ?_⟩
          simp only [Prod.mk.injEq, Progress.calling.injEq] at h
          obtain ⟨rfl, rfl, rfl⟩ := h
          simp only [Site.backlog, Pending.batches, List.length_cons]
          omega

/-- Doing what was pending leaves no more waiting than there was, and less if it starts a call. -/
theorem waiting_resume (site : Site) (pending : Pending) :
    (∀ r site', site.resume pending = (site', .ended r) →
      site'.backlog ≤ site.backlog + pending.batches) ∧
    (∀ call next site', site.resume pending = (site', .calling call next) →
      site'.backlog + next.batches < site.backlog + pending.batches) := by
  cases pending with
  | reply r => simp [Site.resume, Pending.batches]
  | load rest count =>
    obtain ⟨h1, h2⟩ := backlog_load site count rest
    simp only [Site.resume, Pending.batches]
    refine ⟨fun r s h => ?_, h2⟩
    have := h1 r s h
    omega
  | answer awaited asker => simp [Site.resume, Pending.batches]

/-! ### Every step lowers the measure -/

/-- A new call has no steps yet. -/
theorem weight_body (m : Machine) (call : Call Listener) (pending : Pending) :
    (Frame.call call (m.bodyFor call.consumer) pending).weight = 0 := by
  cases h : call.consumer <;> simp [Machine.bodyFor, Frame.weight, stepsWeight]

/-- The machine comes after another one: it can set off less, or no more with fewer batches
    waiting, or no more of both with less work. -/
def Machine.Below (m' m : Machine) : Prop :=
  m'.budget < m.budget ∨ m'.budget ≤ m.budget ∧
    (m'.waiting < m.waiting ∨ m'.waiting ≤ m.waiting ∧ m'.work < m.work)

/-- Proceeding costs nothing of what consumers can set off. -/
theorem budget_proceed (m : Machine) (frames : List Frame) (site : Site) (p : Progress) :
    (m.proceed frames site p).budget = scriptsWeight m.scripts + total Frame.weight frames := by
  cases p with
  | ended r => simp [Machine.proceed, Machine.budget, Focus.weight]
  | calling call pending =>
    simp [Machine.proceed, Machine.budget, Focus.weight, weight_body]

/-- What goes on after a call is paid for by the frame of the call. -/
theorem goOn_below (m m0 : Machine) (call : Call Listener) (pending : Pending)
    (frames : List Frame)
    (hb : scriptsWeight m.scripts + total Frame.weight frames ≤ m0.budget)
    (hw : m.site.backlog + pending.batches + total Frame.batches frames ≤ m0.waiting)
    (hk : 3 + total Frame.work frames ≤ m0.work) :
    (m.goOn pending frames (m.site.page.finish call)).Below m0 := by
  have hf := Page.backlog_finish m.site.page call
  generalize m.site.page.finish call = moved at hf ⊢
  obtain ⟨page, next⟩ := moved
  cases next with
  | some c =>
    refine .inr ⟨by rw [Machine.goOn, budget_proceed]; exact hb, .inl ?_⟩
    simp only [Option.map_some, Option.getD_some] at hf
    simp only [Machine.goOn, Machine.proceed, Machine.waiting, total_cons, Frame.batches,
      Site.backlog] at *
    omega
  | none =>
    simp only [Option.map_none, Option.getD_none, Nat.add_zero] at hf
    obtain ⟨h1, h2⟩ := waiting_resume { m.site with page } pending
    simp only [Site.backlog, hf] at h1 h2
    refine .inr ⟨by rw [Machine.goOn, budget_proceed]; exact hb, ?_⟩
    simp only [Machine.goOn]
    generalize Site.resume { m.site with page } pending = resumed at h1 h2 ⊢
    obtain ⟨site', p⟩ := resumed
    cases p with
    | ended r =>
      have := h1 r site' rfl
      simp only [Machine.proceed, Machine.waiting, Machine.work, Focus.work, Site.backlog] at *
      omega
    | calling c next =>
      have := h2 c next site' rfl
      refine .inl ?_
      simp only [Machine.proceed, Machine.waiting, total_cons, Frame.batches, Site.backlog] at *
      omega

/-- A call that ends is paid for by its frame. -/
theorem endCall_below (m m0 : Machine) (call : Call Listener) (pending : Pending) (failed : Bool)
    (frames : List Frame)
    (hb : scriptsWeight m.scripts + total Frame.weight frames ≤ m0.budget)
    (hw : m.site.backlog + pending.batches + total Frame.batches frames ≤ m0.waiting)
    (hk : 3 + total Frame.work frames ≤ m0.work) :
    (m.endCall call pending failed frames).Below m0 := by
  cases failed with
  | true =>
    exact goOn_below { m with notices := m.notices ++ [.consumerFailed call.batch.traits] } m0
      call pending frames hb hw hk
  | false => exact goOn_below m m0 call pending frames hb hw hk

/-- A step begun costs at least itself. -/
theorem begin_below (m : Machine) (s : Step) (h : m.focus = .run s) : (m.begin s).Below m := by
  have hm : m.budget = scriptsWeight m.scripts + s.weight + total Frame.weight m.frames := by
    simp [Machine.budget, h, Focus.weight]
  left
  rw [hm]
  cases s with
  | act a =>
    simp only [Machine.begin, budget_proceed, Step.weight]
    omega
  | attach s =>
    simp only [Machine.begin, budget_proceed, Step.weight, scriptsWeight_append, scriptsWeight]
    omega
  | within steps =>
    by_cases ht : m.site.target = .page
    · simp only [Machine.begin, ht, if_true, Machine.budget, Focus.weight, total_cons,
        Frame.weight, Step.weight]
      omega
    · simp only [Machine.begin, ht, if_false, Machine.budget, Focus.weight, Step.weight]
      omega

/-- A reply taken lowers the measure. -/
theorem receive_below (m : Machine) (r : Except Fault Reply) (f : Frame) (frames : List Frame)
    (h : m.focus = .reply r) (hf : m.frames = f :: frames) : (m.receive r frames f).Below m := by
  have hb : m.budget = scriptsWeight m.scripts + (f.weight + total Frame.weight frames) := by
    simp [Machine.budget, h, hf, Focus.weight]
  have hw : m.waiting = m.site.backlog + (f.batches + total Frame.batches frames) := by
    simp [Machine.waiting, hf]
  have hk : m.work = 2 + (f.work + total Frame.work frames) := by
    simp [Machine.work, h, hf, Focus.work]
  cases f with
  | call call body pending =>
    simp only [Frame.batches] at hw
    simp only [Frame.work] at hk
    have hend : (m.endCall call pending true frames).Below m :=
      endCall_below m m call pending true frames (by omega) (by omega) (by omega)
    cases body with
    | feed => exact hend
    | script id doing steps raises later =>
      cases r with
      | error why => exact hend
      | ok reply =>
        refine .inr ⟨?_, .inr ⟨?_, ?_⟩⟩
        · rw [hb]
          simp [Machine.receive, Machine.budget, Focus.weight, Frame.weight]
        · rw [hw]
          simp [Machine.receive, Machine.waiting, Frame.batches]
        · rw [hk]
          simp [Machine.receive, Machine.work, Focus.work, Frame.work, Body.work]
  | within rest done =>
    simp only [Frame.batches] at hw
    simp only [Frame.work] at hk
    cases r with
    | ok reply =>
      refine .inr ⟨?_, .inr ⟨?_, ?_⟩⟩
      · rw [hb]
        simp [Machine.receive, Machine.budget, Focus.weight, Frame.weight]
      · rw [hw]
        simp [Machine.receive, Machine.waiting, Frame.batches]
      · rw [hk]
        simp [Machine.receive, Machine.work, Focus.work, Frame.work]
    | error why =>
      have hc := Page.backlog_close_le m.site.page
      refine .inr ⟨?_, .inr ⟨?_, ?_⟩⟩
      · rw [hb]
        simp [Machine.receive, Machine.budget, Focus.weight]
      · rw [hw]
        simp only [Machine.receive, Machine.waiting, Site.backlog]
        omega
      · rw [hk]
        simp only [Machine.receive, Machine.work, Focus.work]
        omega

/-- Going on lowers the measure. -/
theorem advance_below (m : Machine) (f : Frame) (frames : List Frame)
    (h : m.focus = .advance) (hf : m.frames = f :: frames) : (m.advance frames f).Below m := by
  have hb : m.budget = scriptsWeight m.scripts + (f.weight + total Frame.weight frames) := by
    simp [Machine.budget, h, hf, Focus.weight]
  have hw : m.waiting = m.site.backlog + (f.batches + total Frame.batches frames) := by
    simp [Machine.waiting, hf]
  have hk : m.work = 1 + (f.work + total Frame.work frames) := by
    simp [Machine.work, h, hf, Focus.work]
  cases f with
  | call call body pending =>
    simp only [Frame.batches] at hw
    simp only [Frame.work] at hk
    have hend : ∀ failed, (m.endCall call pending failed frames).Below m := fun failed =>
      endCall_below m m call pending failed frames (by omega) (by omega) (by omega)
    cases body with
    | feed =>
      refine endCall_below _ m call pending false frames ?_ ?_ ?_
      · simp only
        omega
      · have : (m.site.record call.consumer call.batch).backlog = m.site.backlog := by
          cases call.consumer <;> rfl
        simp only [this]
        omega
      · omega
    | script id doing steps raises later =>
      cases steps with
      | cons s steps =>
        simp only [Frame.weight, stepsWeight] at hb
        refine .inr ⟨?_, .inr ⟨?_, ?_⟩⟩
        · rw [hb]
          simp only [Machine.advance, Machine.budget, Focus.weight, total_cons, Frame.weight]
          omega
        · rw [hw]
          simp [Machine.advance, Machine.waiting, Frame.batches]
        · rw [hk]
          simp only [Machine.advance, Machine.work, Focus.work, total_cons, Frame.work, Body.work]
          omega
      | nil =>
        simp only [Frame.weight, stepsWeight] at hb
        simp only [Body.work] at hk
        cases raises with
        | true => exact hend true
        | false =>
          cases later with
          | nil => exact hend false
          | cons rule later =>
            simp only [Machine.advance]
            cases hfire : fire call.batch rule id m.scripts with
            | none =>
              refine .inr ⟨?_, .inr ⟨?_, ?_⟩⟩
              · rw [hb]
                simp [Machine.budget, h, Focus.weight, Frame.weight, stepsWeight]
              · rw [hw]
                simp [Machine.waiting, Frame.batches]
              · rw [hk]
                simp only [Machine.work, h, Focus.work, total_cons, Frame.work, Body.work,
                  List.length_cons]
                omega
            | some p =>
              obtain ⟨scripts, f⟩ := p
              have := weight_fire hfire
              left
              rw [hb]
              simp only [Machine.budget, h, Focus.weight, total_cons, Frame.weight]
              omega
  | within rest done =>
    simp only [Frame.batches] at hw
    simp only [Frame.work] at hk
    cases rest with
    | cons s rest =>
      simp only [Frame.weight, stepsWeight] at hb
      refine .inr ⟨?_, .inr ⟨?_, ?_⟩⟩
      · rw [hb]
        simp only [Machine.advance, Machine.budget, Focus.weight, total_cons, Frame.weight]
        omega
      · rw [hw]
        simp [Machine.advance, Machine.waiting, Frame.batches]
      · rw [hk]
        simp only [Machine.advance, Machine.work, Focus.work, total_cons, Frame.work]
        omega
    | nil =>
      have hc := Page.backlog_close_le m.site.page
      refine .inr ⟨?_, .inr ⟨?_, ?_⟩⟩
      · rw [hb]
        simp [Machine.advance, Machine.budget, Focus.weight]
      · rw [hw]
        simp only [Machine.advance, Machine.waiting, Site.backlog]
        omega
      · rw [hk]
        simp only [Machine.advance, Machine.work, Focus.work]
        omega

/-- Every step lowers the measure. -/
theorem step_below {m m' : Machine} (h : m.step = some m') : m'.Below m := by
  unfold Machine.step at h
  split at h
  · rename_i s hfocus
    exact Option.some.inj h ▸ begin_below m s hfocus
  · rename_i r f frames hfocus hframes
    exact Option.some.inj h ▸ receive_below m r f frames hfocus hframes
  · rename_i f frames hfocus hframes
    exact Option.some.inj h ▸ advance_below m f frames hfocus hframes
  · simp at h

/-- The measure as it is compared: first what can be set off, then what waits, then the work. -/
theorem lex_of_below {m m' : Machine} (h : m'.Below m) :
    Prod.Lex (· < ·) (Prod.Lex (· < ·) (· < ·)) (m'.budget, m'.waiting, m'.work)
      (m.budget, m.waiting, m.work) := by
  rcases h with h | ⟨hb, h⟩
  · exact .left _ _ h
  · rcases Nat.lt_or_eq_of_le hb with h' | h'
    · exact .left _ _ h'
    · rw [h']
      refine .right _ ?_
      rcases h with h | ⟨hw, h⟩
      · exact .left _ _ h
      · rcases Nat.lt_or_eq_of_le hw with h' | h'
        · exact .left _ _ h'
        · rw [h']
          exact .right _ h

namespace Machine

/-- Steps are done until none is left. -/
def run (m : Machine) : Machine :=
  match _h : m.step with
  | none => m
  | some m' => run m'
termination_by (m.budget, m.waiting, m.work)
decreasing_by exact lex_of_below (step_below _h)

end Machine

/-- What a scenario keeps from step to step: the site, and the consumers that have attached. -/
structure Stage where
  site : Site
  scripts : List Script := []

/-- What came of a step of a scenario. -/
structure Result where
  reply : Except Fault Reply
  events : List Event
  notices : List Notice

/-- The machine that begins a step on a stage. -/
def Stage.machine (stage : Stage) (s : Step) : Machine :=
  { site := stage.site, scripts := stage.scripts, focus := .run s }

/-- A step is done to its end. -/
def Stage.perform (stage : Stage) (s : Step) : Stage × Result :=
  let m := (stage.machine s).run
  let reply := match m.focus with
    | .reply r => r
    | _ => .ok .nothing
  ({ site := m.site, scripts := m.scripts },
    { reply, events := m.events, notices := m.notices })

end TraitIndex.Scenario
