import TraitIndex.Proofs.Sessions
import TraitIndex.Proofs.WhilePending

/-! Consumers that fail.

    A consumer that has done all it wanted to may fail in the end. Nobody else is to notice: the
    relay goes on from the call as it would have, and what the call was part of has the same result.
    A failure leaves a line in the log, and that is all. So two runs in which the same is done, with
    failures added to the second wherever calls end, agree at every moment but for those lines. -/

namespace TraitIndex

/-! ### Relays and pages -/

namespace Relay

variable {κ : Type}

/-- The event without the failure that it may tell of. -/
def Event.calm : Event κ → Event κ
  | .ended call _ => .ended call false
  | e => e

/-- The world without the failures in its history. -/
def World.calm (w : World κ) : World κ := { w with history := w.history.map Event.calm }

/-- The move without the failure that it may be. -/
def Move.calm : Move κ → Move κ
  | .finish _ => .finish false
  | m => m

end Relay

namespace Page

variable {κ : Type}

/-- The move without the failure that it may be. -/
def Move.calm : Move κ → Move κ
  | .finish _ => .finish false
  | m => m

/-- The world without the failures in its history. -/
def World.calm (w : World κ) : World κ := { w with history := w.history.map Relay.Event.calm }

theorem World.calm_proceed (w : World κ) (e : Relay.Event κ)
    (moved : Page κ × Option (Call κ)) :
    (w.proceed e moved).calm = w.calm.proceed e.calm moved := by
  obtain ⟨page, _ | call⟩ := moved
  · simp only [proceed, calm, List.map_append, List.map_cons, Option.toList_none, List.map_nil]
  · simp only [proceed, calm, List.map_append, List.map_cons, Option.toList_some, List.map_nil,
      Relay.Event.calm]

theorem World.calm_step (w : World κ) (m : Move κ) : (w.step m).calm = w.calm.step m.calm := by
  have hpage : w.calm.page = w.page := rfl
  cases m with
  | contribute b =>
    simp only [step, Move.calm, hpage]
    split
    · exact calm_proceed ..
    · rfl
  | attach c =>
    simp only [step, Move.calm, hpage]
    split
    · exact calm_proceed ..
    · rfl
  | reset => exact calm_proceed ..
  | close =>
    simp only [step, Move.calm, hpage]
    split
    · rfl
    · exact calm_proceed ..
  | finish failed =>
    simp only [step, Move.calm]
    rcases hcalls : w.calls with _ | ⟨call, calls⟩
    · have hcalm : w.calm.calls = [] := hcalls
      simp only [hcalm]
    · have hcalm : w.calm.calls = call :: calls := hcalls
      simp only [hcalm]
      exact calm_proceed ..

/-- A run without its failures leads to the same page with the same calls under way, and the same
    has happened. -/
theorem World.calm_after (moves : List (Move κ)) :
    (after moves).calm = after (moves.map Move.calm) := by
  rw [after, after, List.foldl_map]
  exact (List.foldl_hom calm fun w m => (calm_step w m).symm).symm

theorem Move.calm_ofRelay (m : Relay.Move κ) : (ofRelay m).calm = ofRelay m.calm := by
  cases m <;> rfl

/-- What is so of all runs of a page is seen from its relay in all runs of the relay. -/
theorem World.calm_atRelay (moves : List (Relay.Move κ)) :
    (Relay.World.after moves).calm = Relay.World.after (moves.map Relay.Move.calm) := by
  calc (Relay.World.after moves).calm
      = (after (moves.map .ofRelay)).calm.atRelay := by rw [← atRelay_ofRelay]; rfl
    _ = (after ((moves.map .ofRelay).map Move.calm)).atRelay := by rw [calm_after]
    _ = (after ((moves.map Relay.Move.calm).map .ofRelay)).atRelay := by
      simp only [List.map_map, Function.comp_def, Move.calm_ofRelay]
    _ = Relay.World.after (moves.map Relay.Move.calm) := atRelay_ofRelay _

end Page

/-! ### Sessions -/

namespace Scenario

/-- What happens at a moment of a session. -/
inductive Tick where
  | on
  /-- The session goes on, and if a call ends that has not failed, it fails after all. -/
  | fail
  /-- Another step begins, if nothing is left to do. -/
  | next (s : Step)

/-- The same without a failure. -/
def Tick.calm : Tick → Tick
  | .fail => .on
  | t => t

/-- The line that a failed call leaves in the log. -/
def failure (call : Call Listener) : Notice := .consumerFailed call.batch.traits

namespace Machine

/-- The innermost call, if it has done all that it had to do, and the machine after its failure. -/
def felled? (m : Machine) : Option (Call Listener × Machine) :=
  match m.focus, m.frames with
  | .advance, .call call .feed pending :: frames =>
    let m := { m with site := m.site.record call.consumer call.batch }
    some (call, m.endCall call pending true frames)
  | .advance, .call call (.script _ _ [] false []) pending :: frames =>
    some (call, m.endCall call pending true frames)
  | _, _ => none

/-- The machine after a tick; where nothing is left to do and nothing begins, it stays. -/
def tick (m : Machine) : Tick → Machine
  | .on => m.step.getD m
  | .fail => ((m.felled?.map (·.2)).or m.step).getD m
  | .next s => if m.step.isNone then m.next s else m

/-- The machine after some ticks. -/
def play (m : Machine) (ticks : List Tick) : Machine := ticks.foldl tick m

/-- The calls that a tick makes fail. -/
def felledBy (m : Machine) : Tick → List (Call Listener)
  | .fail => (m.felled?.map (·.1)).toList
  | _ => []

/-- The calls that ticks make fail, in order. -/
def felled (m : Machine) : List Tick → List (Call Listener)
  | [] => []
  | t :: ticks => m.felledBy t ++ (m.tick t).felled ticks

/-- The machine with another log. -/
def noted (m : Machine) (ns : List Notice) : Machine := { m with notices := ns }

/-- A machine does not look at its log. -/
theorem step_noted (m : Machine) :
    (∀ ns, (m.noted ns).step = none) ∨
      ∃ (m' : Machine) (new : List Notice), ∀ ns,
        (m.noted ns).step = some (m'.noted (ns ++ new)) := by
  have habove : ∀ (m : Machine) ns, (m.noted []).above [] ns = m.noted ns := by
    intro m ns
    simp only [above, noted, List.append_nil]
  by_cases hbusy : (m.noted []).IsBusy
  · obtain ⟨m', hstep⟩ := step_above hbusy
    refine .inr ⟨m', m'.notices, fun ns => ?_⟩
    rw [← habove, hstep]
    simp only [above, noted, List.append_nil]
  · refine .inl fun ns => ?_
    rw [IsBusy, not_or, Classical.not_not] at hbusy
    obtain ⟨hframes, hrun⟩ := hbusy
    rcases hfocus : m.focus with s | r | _
    · exact absurd ⟨s, hfocus⟩ hrun
    · simp only [step, noted, hfocus, show m.frames = [] from hframes]
    · simp only [step, noted, hfocus, show m.frames = [] from hframes]

theorem goOn_noted (m : Machine) (ns : List Notice) (pending : Pending) (frames : List Frame)
    (moved : Page Listener × Option (Call Listener)) :
    (m.noted ns).goOn pending frames moved = (m.goOn pending frames moved).noted ns := by
  obtain ⟨page, _ | call⟩ := moved
  · simp only [goOn, noted]
    rcases Site.resume { m.site with page } pending with ⟨site, r | ⟨call, pending⟩⟩
    · rfl
    · rfl
  · rfl

/-- Where a call could end by a failure, the failure costs a line in the log and nothing else. -/
theorem felled_noted (m : Machine) :
    (∀ ns, (m.noted ns).felled? = none) ∨
      ∃ (call : Call Listener) (m' : Machine), ∀ ns, (m.noted ns).step = some (m'.noted ns) ∧
        (m.noted ns).felled? = some (call, m'.noted (ns ++ [failure call])) := by
  rcases hfocus : m.focus with s | r | _
  case run | reply =>
    refine .inl fun ns => ?_
    simp only [felled?, noted, hfocus]
  rcases hframes : m.frames with _ | ⟨⟨call, body, pending⟩ | ⟨rest, done⟩, frames⟩
  case nil | cons.within =>
    refine .inl fun ns => ?_
    simp only [felled?, noted, hfocus, hframes]
  rcases body with _ | ⟨id, doing, steps, raises, later⟩
  · refine .inr ⟨call, goOn { m with site := m.site.record call.consumer call.batch } pending frames
      ((m.site.record call.consumer call.batch).page.finish call), fun ns => ?_⟩
    rw [← goOn_noted, ← goOn_noted]
    simp only [step, felled?, noted, hfocus, hframes]
    exact ⟨rfl, rfl⟩
  rcases steps with _ | ⟨s, steps⟩
  case cons =>
    refine .inl fun ns => ?_
    simp only [felled?, noted, hfocus, hframes]
  rcases raises with _ | _
  case true =>
    refine .inl fun ns => ?_
    simp only [felled?, noted, hfocus, hframes]
  rcases later with _ | ⟨rule, later⟩
  case cons =>
    refine .inl fun ns => ?_
    simp only [felled?, noted, hfocus, hframes]
  · refine .inr ⟨call, m.goOn pending frames (m.site.page.finish call), fun ns => ?_⟩
    rw [← goOn_noted, ← goOn_noted]
    simp only [step, felled?, noted, hfocus, hframes]
    exact ⟨rfl, rfl⟩

/-! ### Two runs -/

/-- The log of a run with failures: what is noted anyway, and what failures leave. -/
abbrev Log := List (Notice ⊕ Call Listener)

namespace Log

/-- All lines of a log. -/
def lines (log : Log) : List Notice := log.map (Sum.elim id failure)

/-- The lines that are noted anyway. -/
def calm (log : Log) : List Notice := log.filterMap Sum.getLeft?

/-- The calls of which lines tell that they failed. -/
def failed (log : Log) : List (Call Listener) := log.filterMap Sum.getRight?

/-- The log where no failure is added. -/
def plain (ns : List Notice) : Log := ns.map .inl

variable (ns : List Notice)

@[simp] theorem lines_plain : (plain ns).lines = ns := by
  simp only [lines, plain, List.map_map]
  exact List.map_id ns

@[simp] theorem calm_plain : (plain ns).calm = ns := by
  simp only [calm, plain, List.filterMap_map]
  exact List.filterMap_some

@[simp] theorem failed_plain : (plain ns).failed = [] := by
  simp only [failed, plain, List.filterMap_map, List.filterMap_eq_nil_iff]
  exact fun _ _ => rfl

end Log

/-- A tick without a failure adds the same to any log. -/
theorem on_noted (m : Machine) : ∃ (m' : Machine) (new : List Notice), ∀ ns,
    (m.noted ns).tick .on = m'.noted (ns ++ new) := by
  rcases m.step_noted with hnone | ⟨m', new, hstep⟩
  · refine ⟨m, [], fun ns => ?_⟩
    rw [tick, hnone, List.append_nil]
    rfl
  · refine ⟨m', new, fun ns => ?_⟩
    rw [tick, hstep]
    rfl

/-- A tick with a failure does what it does without, and adds a line. -/
theorem tick_noted (m : Machine) (t : Tick) :
    ∃ (m' : Machine) (log : Log), ∀ ns,
      (m.noted ns).tick t.calm = m'.noted (ns ++ log.calm) ∧
        (m.noted ns).tick t = m'.noted (ns ++ log.lines) ∧
        (m.noted ns).felledBy t = log.failed := by
  obtain ⟨on, new, hon⟩ := m.on_noted
  cases t with
  | on =>
    refine ⟨on, .plain new, fun ns => ?_⟩
    rw [Log.calm_plain, Log.lines_plain, Log.failed_plain]
    exact ⟨hon ns, hon ns, rfl⟩
  | fail =>
    rcases m.felled_noted with hnone | ⟨call, m', hfelled⟩
    · refine ⟨on, .plain new, fun ns => ?_⟩
      rw [Log.calm_plain, Log.lines_plain, Log.failed_plain, felledBy, hnone ns]
      refine ⟨hon ns, ?_, rfl⟩
      rw [← hon ns, tick, tick, hnone ns]
      rfl
    · refine ⟨m', [.inr call], fun ns => ?_⟩
      obtain ⟨hstep, hfails⟩ := hfelled ns
      refine ⟨?_, ?_, ?_⟩
      · show (m.noted ns).tick .on = m'.noted (ns ++ [])
        rw [tick, hstep, List.append_nil]
        rfl
      · rw [tick, hfails]
        rfl
      · rw [felledBy, hfails]
        rfl
  | next s =>
    rcases m.step_noted with hnone | ⟨m', new, hstep⟩
    · refine ⟨m.next s, [], fun ns => ?_⟩
      have htick : (m.noted ns).tick (.next s) = (m.next s).noted (ns ++ []) := by
        rw [tick, hnone, List.append_nil]
        rfl
      exact ⟨htick, htick, rfl⟩
    · refine ⟨m, [], fun ns => ?_⟩
      have htick : (m.noted ns).tick (.next s) = m.noted (ns ++ []) := by
        rw [tick, hstep, List.append_nil]
        rfl
      exact ⟨htick, htick, rfl⟩

/-- Ticks with failures do what they do without, and add a line for each. -/
theorem play_noted (m : Machine) (ticks : List Tick) :
    ∃ (m' : Machine) (log : Log), ∀ ns ns',
      (m.noted ns).play (ticks.map Tick.calm) = m'.noted (ns ++ log.calm) ∧
        (m.noted ns').play ticks = m'.noted (ns' ++ log.lines) ∧
        (m.noted ns').felled ticks = log.failed := by
  induction ticks generalizing m with
  | nil =>
    refine ⟨m, [], fun ns ns' => ?_⟩
    have hnil : ∀ ns, m.noted ns = m.noted (ns ++ []) := fun ns => by rw [List.append_nil]
    exact ⟨hnil ns, hnil ns', rfl⟩
  | cons t ticks ih =>
    obtain ⟨m', log, htick⟩ := m.tick_noted t
    obtain ⟨m'', log', hplay⟩ := ih m'
    refine ⟨m'', log ++ log', fun ns ns' => ?_⟩
    obtain ⟨hcalm, hlines, hfailed⟩ := hplay (ns ++ log.calm) (ns' ++ log.lines)
    refine ⟨?_, ?_, ?_⟩
    · show ((m.noted ns).tick t.calm).play (ticks.map Tick.calm) = _
      rw [(htick ns).1, hcalm, Log.calm, Log.calm, Log.calm, List.filterMap_append,
        List.append_assoc]
    · show ((m.noted ns').tick t).play ticks = _
      rw [(htick ns').2.1, hlines, Log.lines, Log.lines, Log.lines, List.map_append,
        List.append_assoc]
    · rw [felled, (htick ns').2.1, (htick ns').2.2, hfailed, Log.failed, Log.failed, Log.failed,
        List.filterMap_append]

end Machine

/-- Failures at the ends of calls affect nobody. On a relay and on a page, whatever consumers do,
    a run without its failures leads to the same state with the same calls under way, and the same
    has happened. In a session too, at every moment: the site, the consumers, what is being done
    and what was told are the same; and the logs agree but for one line for each call that was made
    to fail, an error that names its traits. -/
theorem failures_affect_nobody {κ : Type} :
    (∀ moves : List (Relay.Move κ),
      (Relay.World.after moves).calm = Relay.World.after (moves.map Relay.Move.calm)) ∧
      (∀ moves : List (Page.Move κ),
        (Page.World.after moves).calm = Page.World.after (moves.map Page.Move.calm)) ∧
      ∀ (m : Machine) (ticks : List Tick), ∃ log : Machine.Log,
        m.play ticks =
            (m.play (ticks.map Tick.calm)).noted (m.notices ++ log.lines) ∧
          (m.play (ticks.map Tick.calm)).notices = m.notices ++ log.calm ∧
          log.failed = m.felled ticks ∧ ∀ call, (failure call).severity = .error := by
  refine ⟨Page.World.calm_atRelay, Page.World.calm_after, fun m ticks => ?_⟩
  obtain ⟨m', log, hplay⟩ := m.play_noted ticks
  obtain ⟨hcalm, hlines, hfailed⟩ := hplay m.notices m.notices
  have hsame : m.noted m.notices = m := rfl
  rw [hsame] at hcalm hlines hfailed
  refine ⟨log, ?_, ?_, hfailed.symm, fun _ => rfl⟩
  · rw [hlines, hcalm]
    rfl
  · rw [hcalm]
    rfl

/-- A consumer without rules that fails on the batch it is called with. -/
example :
    (Machine.play { site := {}, scripts := [], focus := .run (.attach (.mk "renderer" [])) }
      [.on, .next (.act (.contribute (.map [(.text "T", .list [])]))), .on, .fail]).notices =
        [.consumerFailed ["T"]] := by
  rfl

end Scenario
end TraitIndex
