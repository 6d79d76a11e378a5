import TraitIndex.Proofs.PageRun

/-! Relays and pages at rest.

    An operation has returned when the calls that it started have ended, so between operations no
    call is under way. Whatever consumers did in their calls, the relay is at rest then: no flush
    goes on, and where a consumer is attached nothing waits, for all that was handed to the relay
    has been handed on. A batch that comes to a relay at rest goes to its consumer at once. -/

namespace TraitIndex

/-- What every step only adds to, a run only adds to. -/
theorem prefix_foldl {σ μ ε : Type} {step : σ → μ → σ} {history : σ → List ε}
    (h : ∀ s m, history s <+: history (step s m)) (moves : List μ) (s : σ) :
    history s <+: history (moves.foldl step s) := by
  induction moves generalizing s with
  | nil => exact List.prefix_rfl
  | cons m moves ih => exact (h s m).trans (ih (step s m))

namespace Relay

variable {κ : Type}

/-- What holds of a relay with its history between operations. -/
structure World.AtRest (w : World κ) : Prop where
  idle : w.relay.flushing = false
  attached : w.relay.stateName = "consumer-attached" → w.relay.backlog = []
  waiting : w.relay.backlog ≠ [] → w.relay.stateName = "awaiting-consumer"
  handedOn : w.relay.consumer.isSome = true → started w.history = offered w.history

/-- A batch was handed to a relay after a history, and at once to a consumer; what happened
    afterwards does not matter. -/
def HandedOnAtOnce (before : List (Event κ)) (b : Batch) (c : κ) (h : List (Event κ)) : Prop :=
  before ++ [.offered b, .called ⟨c, b, false⟩] <+: h

theorem stateName_attached_iff (r : Relay κ) :
    r.stateName = "consumer-attached" ↔ r.consumer.isSome = true := by
  unfold stateName
  split
  · rename_i h
    exact iff_of_true rfl h
  · rename_i h
    exact iff_of_false (by decide) h

theorem stateName_awaiting_iff (r : Relay κ) :
    r.stateName = "awaiting-consumer" ↔ r.consumer = none := by
  unfold stateName
  split
  · rename_i h
    refine iff_of_false (by decide) fun hnone => ?_
    rw [hnone] at h
    exact Bool.false_ne_true h
  · rename_i h
    exact iff_of_true rfl (by simpa using h)

namespace World

/-- A good world in which no call is under way is at rest. -/
theorem Good.atRest {w : World κ} (hw : w.Good) (hcalls : w.calls = []) : w.AtRest := by
  have hidle : w.relay.flushing = false := by
    rw [hw.top, hcalls]
    rfl
  have hempty : w.relay.consumer.isSome = true → w.relay.backlog = [] :=
    fun hc => hw.drained hc hidle
  refine ⟨hidle, fun hs => hempty ((stateName_attached_iff _).1 hs), fun hb => ?_, fun hc => ?_⟩
  · refine (stateName_awaiting_iff _).2 ?_
    rcases hc : w.relay.consumer with _ | c
    · rfl
    · exact absurd (hempty (by rw [hc]; rfl)) hb
  · rw [← hw.handed, hempty hc, List.append_nil]

/-- A batch that comes to a relay at rest with a consumer goes to the consumer at once. -/
theorem AtRest.deliver {w : World κ} (hw : w.AtRest) {c : κ} (hc : w.relay.consumer = some c)
    (b : Batch) :
    w.relay.deliver b =
      ({ w.relay with delivered := w.relay.delivered + 1 }, some ⟨c, b, false⟩) := by
  simp only [Relay.deliver, hc, hw.idle, Bool.false_eq_true, if_false]

/-- What happened stays in the history. -/
theorem history_step (w : World κ) (m : Move κ) : w.history <+: (w.step m).history := by
  cases m with
  | deliver b => exact List.prefix_append ..
  | attach c => exact List.prefix_append ..
  | close => exact List.prefix_append ..
  | finish failed =>
    simp only [step]
    split
    · exact List.prefix_rfl
    · exact List.prefix_append ..

/-- A batch that an outermost caller hands to a relay with a consumer is handed on before anything
    else happens. -/
theorem handedOn_deliver {before : List (Move κ)} (hcalls : (after before).calls = []) {c : κ}
    (hc : (after before).relay.consumer = some c) (b : Batch) (rest : List (Move κ)) :
    HandedOnAtOnce (after before).history b c (after (before ++ .deliver b :: rest)).history := by
  have hrest := (good_after before).atRest hcalls
  have hstep : ((after before).step (.deliver b)).history =
      (after before).history ++ [.offered b, .called ⟨c, b, false⟩] := by
    simp only [step, proceed, hrest.deliver hc]
    rfl
  rw [HandedOnAtOnce, ← hstep, after, after, List.foldl_append]
  exact prefix_foldl history_step rest _

end World
end Relay

namespace Page

open Relay (HandedOnAtOnce)

variable {κ : Type}

/-! ### Pages -/

/-- What happened stays in the history. -/
theorem World.history_step (w : World κ) (m : Move κ) : w.history <+: (w.step m).history := by
  rcases w.atRelay_step m with h | ⟨m', h⟩
  · have hsame : (w.step m).history = w.history := congrArg Relay.World.history h
    exact hsame.symm ▸ List.prefix_rfl
  · have hrelay : (w.step m).history = (w.atRelay.step m').history :=
      congrArg Relay.World.history h
    rw [hrelay]
    exact w.atRelay.history_step m'

/-- A batch that an outermost caller contributes to a page with a consumer is handed on before
    anything else happens. -/
theorem World.handedOn_contribute {before : List (Move κ)} (hcalls : (after before).calls = [])
    {c : κ} (hc : (after before).page.relay.consumer = some c) (b : Batch)
    (rest : List (Move κ)) :
    HandedOnAtOnce (after before).history b c
      (after (before ++ .contribute b :: rest)).history := by
  have hrest := (good_after before).atRest hcalls
  have hopen : ¬ (after before).page.closed = true := by
    intro hclosed
    rw [(shut_after before hclosed).alone] at hc
    exact absurd hc (by simp)
  have hcall : ((after before).page.accept b).2 = some ⟨c, b, false⟩ :=
    congrArg Prod.snd (hrest.deliver hc b)
  have hstep : ((after before).step (.contribute b)).history =
      (after before).history ++ [.offered b, .called ⟨c, b, false⟩] := by
    simp only [step, Page.contribute, if_neg hopen, proceed, hcall]
    rfl
  rw [HandedOnAtOnce, ← hstep, after, after, List.foldl_append]
  exact prefix_foldl history_step rest _

/-- Whenever no operation is under way, on a relay or on a page, no flush goes on and nothing waits
    where a consumer is attached; and what an outermost caller hands in while a consumer is
    attached is handed on at once, so it has been when the operation returns. -/
theorem nothing_waits_at_rest :
    (∀ moves : List (Relay.Move κ), (Relay.World.after moves).calls = [] →
      (Relay.World.after moves).AtRest ∧
        ∀ c b rest, (Relay.World.after moves).relay.consumer = some c →
          HandedOnAtOnce (Relay.World.after moves).history b c
            (Relay.World.after (moves ++ .deliver b :: rest)).history) ∧
      ∀ moves : List (Move κ), (World.after moves).calls = [] →
        (World.after moves).atRelay.AtRest ∧
          ∀ c b rest, (World.after moves).page.relay.consumer = some c →
            HandedOnAtOnce (World.after moves).history b c
              (World.after (moves ++ .contribute b :: rest)).history := by
  constructor
  · intro moves hcalls
    exact ⟨(Relay.World.good_after moves).atRest hcalls, fun c b rest hc =>
      Relay.World.handedOn_deliver hcalls hc b rest⟩
  · intro moves hcalls
    exact ⟨(World.good_after moves).atRest hcalls, fun c b rest hc =>
      World.handedOn_contribute hcalls hc b rest⟩

/-- A consumer that is called out of the backlog resets the page, contributes, lets another attach
    and fails: the flush it leaves behind takes the new batch to the new consumer. -/
def overtaken : List (Move Nat) :=
  [.contribute (.single "a" []), .contribute (.single "b" []), .attach 1, .reset,
    .contribute (.single "c" []), .attach 2, .finish true, .finish false]

theorem nothing_waits_at_rest_overtaken :
    (World.after overtaken).calls = [] ∧
      (World.after overtaken).page.relay.consumer = some 2 ∧
      (World.after overtaken).page.relay.backlog = [] ∧
      HandedOnAtOnce (World.after overtaken).history (.single "d" []) 2
        (World.after (overtaken ++ [.contribute (.single "d" []), .finish true])).history := by
  have hcalls : (World.after overtaken).calls = [] := rfl
  have hc : (World.after overtaken).page.relay.consumer = some 2 := rfl
  obtain ⟨hrest, hat⟩ := nothing_waits_at_rest.2 overtaken hcalls
  refine ⟨hcalls, hc, hrest.attached ?_, hat 2 (.single "d" []) [.finish true] hc⟩
  exact (Relay.stateName_attached_iff _).2 (congrArg Option.isSome hc)

end Page
end TraitIndex
