import Mathlib.Logic.Relation
import TraitIndex.Proofs.WhilePending

/-! Every operation returns.

    Consumers may use what has called them, attach further consumers and make calls start in the
    middle of calls. Still every step that is begun, at whatever depth, gets its reply, and then
    just that is under way again which was when it began: whatever consumers can set off is counted
    by the measure of the machine, and what lies below a step has no part in it. -/

namespace TraitIndex.Scenario.Machine

/-- Some steps lead from one machine to another. -/
def Plays : Machine → Machine → Prop := Relation.ReflTransGen fun m m' => m.step = some m'

/-! ### Where nothing is under way -/

/-- Something is under way, or a step has its reply. -/
def Settled (m : Machine) : Prop := m.frames ≠ [] ∨ ∃ r, m.focus = .reply r

theorem settled_of_cons {m : Machine} {f : Frame} {frames : List Frame}
    (h : m.frames = f :: frames) : m.Settled := .inl (by simp [h])

theorem settled_proceed (m : Machine) (frames : List Frame) (site : Site) (p : Progress) :
    (m.proceed frames site p).Settled := by
  cases p with
  | ended r => exact .inr ⟨r, rfl⟩
  | calling call pending => exact settled_of_cons rfl

theorem settled_begin (m : Machine) (s : Step) : (m.begin s).Settled := by
  cases s with
  | act a => exact settled_proceed ..
  | attach s => exact settled_proceed ..
  | within steps =>
    rw [begin]
    split
    · exact settled_of_cons rfl
    · exact .inr ⟨_, rfl⟩

theorem settled_goOn (m : Machine) (pending : Pending) (frames : List Frame)
    (moved : Page Listener × Option (Call Listener)) : (m.goOn pending frames moved).Settled := by
  obtain ⟨page, _ | call⟩ := moved
  · exact settled_proceed ..
  · exact settled_proceed ..

theorem settled_endCall (m : Machine) (call : Call Listener) (pending : Pending) (failed : Bool)
    (frames : List Frame) : (m.endCall call pending failed frames).Settled := settled_goOn ..

theorem settled_receive (m : Machine) (r : Except Fault Reply) (frames : List Frame) (f : Frame) :
    (m.receive r frames f).Settled := by
  cases f with
  | call call body pending =>
    cases body with
    | feed => exact settled_endCall ..
    | script id doing steps raises later =>
      cases r with
      | error why => exact settled_endCall ..
      | ok reply => exact settled_of_cons rfl
  | within rest done =>
    cases r with
    | error why => exact .inr ⟨_, rfl⟩
    | ok reply => exact settled_of_cons rfl

theorem settled_advance (m : Machine) (frames : List Frame) (f : Frame) :
    (m.advance frames f).Settled := by
  cases f with
  | call call body pending =>
    cases body with
    | feed => exact settled_endCall ..
    | script id doing steps raises later =>
      cases steps with
      | cons s steps => exact settled_of_cons rfl
      | nil =>
        cases raises with
        | true => exact settled_endCall ..
        | false =>
          cases later with
          | nil => exact settled_endCall ..
          | cons rule later =>
            rw [advance]
            split
            · exact settled_of_cons rfl
            · exact settled_of_cons rfl
  | within rest done =>
    cases rest with
    | cons s rest => exact settled_of_cons rfl
    | nil => exact .inr ⟨_, rfl⟩

theorem settled_step {m m' : Machine} (h : m.step = some m') : m'.Settled := by
  unfold step at h
  split at h
  · exact Option.some.inj h ▸ settled_begin ..
  · exact Option.some.inj h ▸ settled_receive ..
  · exact Option.some.inj h ▸ settled_advance ..
  · exact absurd h (by simp)

/-! ### Replies -/

/-- A step that is under way or about to begin gets its reply, whatever lies below. -/
theorem plays_to_reply (m : Machine) (h : m.IsBusy ∨ m.Settled) :
    ∃ (m' : Machine) (r : Except Fault Reply), m'.frames = [] ∧ m'.focus = .reply r ∧
      ∀ below earlier, (m.above below earlier).Plays (m'.above below earlier) := by
  by_cases hbusy : m.IsBusy
  · obtain ⟨next, hnext⟩ := step_above hbusy
    have hstep : m.step = some next := by simpa [above] using hnext [] []
    obtain ⟨m', r, hframes, hfocus, hplays⟩ := plays_to_reply next (.inr (settled_step hstep))
    exact ⟨m', r, hframes, hfocus, fun below earlier =>
      .head (hnext below earlier) (hplays below earlier)⟩
  · obtain ⟨hframes, -⟩ := not_or.1 hbusy
    obtain ⟨r, hfocus⟩ := (h.resolve_left hbusy).resolve_left hframes
    exact ⟨m, r, Classical.not_not.1 hframes, hfocus, fun _ _ => .refl⟩
termination_by (m.budget, m.waiting, m.work)
decreasing_by exact lex_of_below (step_below hstep)

/-- Every step that is begun gets its reply, and then what was under way before is under way. -/
theorem step_replied {m : Machine} {s : Step} (h : m.focus = .run s) :
    ∃ (m' : Machine) (r : Except Fault Reply),
      m.Plays m' ∧ m'.focus = .reply r ∧ m'.frames = m.frames := by
  obtain ⟨m', r, hframes, hfocus, hplays⟩ :=
    plays_to_reply { m with frames := [] } (.inl (.inr ⟨s, h⟩))
  refine ⟨m'.above m.frames [], r, hplays m.frames [], hfocus, ?_⟩
  rw [above, hframes]
  rfl

end TraitIndex.Scenario.Machine
