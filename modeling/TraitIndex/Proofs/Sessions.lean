import TraitIndex.Proofs.AtRest
import TraitIndex.Proofs.Playing

/-! Sessions.

    A session does one step of a scenario after another, each to its end. Its moments are those of
    the machine in the middle of a step and those between two steps. A session that keeps to its
    page is a run of the page at every moment, and between two steps the page is at rest. -/

namespace TraitIndex.Scenario.Machine

/-- A machine that has just been set up: a new page, and no consumer is called. -/
structure Fresh (m : Machine) : Prop where
  target : m.site.target = .page
  page : m.site.page = {}
  frames : m.frames = []

/-- The machine that begins another step. What was told and noted so far is kept. -/
def next (m : Machine) (s : Step) : Machine := { m with focus := .run s }

/-- From one moment of a session that keeps to its page to the next one. -/
inductive GoesTo (m : Machine) : Machine → Prop where
  | on {m' : Machine} (h : m.StepsTo m') : GoesTo m m'
  /-- The last step is done and another one begins. -/
  | next (s : Step) (h : m.step = none) : GoesTo m (m.next s)

/-- A later moment of a session. -/
abbrev Reaches : Machine → Machine → Prop := Relation.ReflTransGen GoesTo

/-- Between two steps nothing is under way. -/
theorem frames_of_step_none {m : Machine} (h : m.step = none) : m.frames = [] := by
  unfold step at h
  split at h
  · exact absurd h (by simp)
  · exact absurd h (by simp)
  · exact absurd h (by simp)
  · assumption

/-- A world that shows a moment of a session shows every later one after some moves. -/
theorem shownAfter_session {m m' : Machine} {w : Page.World Listener} (h : m.Shows w)
    (hto : m.Reaches m') : m'.ShownAfter w := by
  induction hto with
  | refl => exact ⟨[], h⟩
  | tail _ hgoes ih =>
    obtain ⟨moves, hshows⟩ := ih
    cases hgoes with
    | on hstep =>
      obtain ⟨moves', hafter⟩ := shownAfter_step hshows hstep.1 hstep.2
      exact ⟨moves ++ moves', by rw [List.foldl_append]; exact hafter⟩
    | next s _ => exact ⟨moves, hshows.target, hshows.page, hshows.calls⟩

/-- Whatever a session does with a new page, there is a run of the page that shows it. -/
theorem shown_in_session {m m' : Machine} (hfresh : m.Fresh) (hto : m.Reaches m') :
    ∃ moves : List (Page.Move Listener), m'.Shows (Page.World.after moves) := by
  have hcalls : m.calls = [] := by
    rw [calls, hfresh.frames]
    rfl
  exact shownAfter_session (w := {}) ⟨hfresh.target, hfresh.page.symm, hcalls.symm⟩ hto

/-- Between two steps of a session no flush goes on. -/
theorem idle_between {m m' : Machine} (hfresh : m.Fresh) (hto : m.Reaches m')
    (hend : m'.step = none) : m'.site.page.relay.flushing = false := by
  obtain ⟨moves, hshows⟩ := shown_in_session hfresh hto
  have hcalls : (Page.World.after moves).atRelay.calls = [] := by
    show (Page.World.after moves).calls = []
    rw [hshows.calls, calls, frames_of_step_none hend]
    rfl
  have hidle := ((Page.World.good_after moves).atRest hcalls).idle
  rw [← hshows.page]
  exact hidle

end TraitIndex.Scenario.Machine
