import Mathlib.Data.List.DropRight
import TraitIndex.Relay

/-! Runs of a relay.

    A consumer may use the relay while it is called, and what it does is up to it. So a run is a
    list of moves without a plan: whoever is in control, an outermost caller or the consumer of the
    innermost call that has not ended, makes the next move, and the end of that call, by a failure
    or not, is a move as well. A world holds the relay, the calls that have begun and not ended,
    and the history of what happened. Every moment between operations, and every start of a call,
    is the world after some moves. -/

namespace TraitIndex.Relay

variable {κ : Type}

/-- What can be done next. -/
inductive Move (κ : Type) where
  | deliver (b : Batch)
  | attach (c : κ)
  | close
  /-- The innermost call ends, perhaps by a failure. -/
  | finish (failed : Bool)

/-- What happens in a run. -/
inductive Event (κ : Type) where
  /-- A batch is handed to the relay. -/
  | offered (b : Batch)
  | attached (c : κ)
  /-- The relay is closed. -/
  | cleared
  | called (call : Call κ)
  | ended (call : Call κ) (failed : Bool)

/-- A relay with the calls under way, innermost first, and what happened so far, in order. -/
structure World (κ : Type) where
  relay : Relay κ := {}
  calls : List (Call κ) := []
  history : List (Event κ) := []

namespace World

/-- Something happens that changes the relay and may start a call. -/
def proceed (w : World κ) (e : Event κ) (moved : Relay κ × Option (Call κ)) : World κ where
  relay := moved.1
  calls := moved.2.toList ++ w.calls
  history := w.history ++ e :: moved.2.toList.map .called

/-- A move is made. Where no call is under way none can end. -/
def step (w : World κ) : Move κ → World κ
  | .deliver b => w.proceed (.offered b) (w.relay.deliver b)
  | .attach c => w.proceed (.attached c) (w.relay.attach c)
  | .close => w.proceed .cleared (w.relay.close, none)
  | .finish failed =>
    match w.calls with
    | [] => w
    | call :: calls => { w with calls }.proceed (.ended call failed) (w.relay.finish call)

/-- The world after moves made on a new relay. -/
def after (moves : List (Move κ)) : World κ := moves.foldl step {}

end World

/-! ### What a history tells -/

namespace Event

/-- The event is the closing of the relay. -/
def clears : Event κ → Bool
  | .cleared => true
  | _ => false

/-- The batch that is handed to the relay. -/
def offered? : Event κ → Option Batch
  | .offered b => some b
  | _ => none

/-- The batch that a consumer is called with. -/
def started? : Event κ → Option Batch
  | .called call => some call.batch
  | _ => none

/-- The consumer that attaches. -/
def attached? : Event κ → Option κ
  | .attached c => some c
  | _ => none

end Event

/-- What happened since the relay was last closed. -/
def sinceCleared (h : List (Event κ)) : List (Event κ) := h.rtakeWhile fun e => !e.clears

/-- The batches handed to the relay since it was last closed, in order. -/
def offered (h : List (Event κ)) : List Batch := (sinceCleared h).filterMap Event.offered?

/-- The batches that calls were started with since the relay was last closed, in order. -/
def started (h : List (Event κ)) : List Batch := (sinceCleared h).filterMap Event.started?

/-- The consumer that attached last since the relay was last closed. -/
def newest? (h : List (Event κ)) : Option κ := ((sinceCleared h).filterMap Event.attached?).getLast?

/-- Every call so far was made on the consumer that had attached last at that moment. -/
def CallsNewest (h : List (Event κ)) : Prop :=
  ∀ before call rest, h = before ++ .called call :: rest → newest? before = some call.consumer

section History

variable {h : List (Event κ)} {e : Event κ}

theorem sinceCleared_concat (he : e.clears = false) :
    sinceCleared (h ++ [e]) = sinceCleared h ++ [e] := by
  rw [sinceCleared, List.rtakeWhile_concat_pos _ _ _ (by simp [he])]
  rfl

theorem sinceCleared_cleared : sinceCleared (h ++ [.cleared]) = [] := by
  rw [sinceCleared, List.rtakeWhile_concat_neg _ _ _ (by simp [Event.clears])]

theorem offered_cleared : offered (h ++ [.cleared]) = [] := by
  rw [offered, sinceCleared_cleared]
  rfl

theorem started_cleared : started (h ++ [.cleared]) = [] := by
  rw [started, sinceCleared_cleared]
  rfl

theorem newest?_cleared : newest? (h ++ [.cleared]) = none := by
  rw [newest?, sinceCleared_cleared]
  rfl

theorem offered_concat (he : e.clears = false) :
    offered (h ++ [e]) = offered h ++ e.offered?.toList := by
  rw [offered, sinceCleared_concat he, List.filterMap_append]
  cases e <;> rfl

theorem started_concat (he : e.clears = false) :
    started (h ++ [e]) = started h ++ e.started?.toList := by
  rw [started, sinceCleared_concat he, List.filterMap_append]
  cases e <;> rfl

theorem newest?_concat (he : e.clears = false) :
    newest? (h ++ [e]) = e.attached?.or (newest? h) := by
  rw [newest?, sinceCleared_concat he, List.filterMap_append, List.getLast?_append]
  cases e <;> rfl

/-- One more event keeps the calls right if, should it be a call, it is made on the newest. -/
theorem callsNewest_concat (hc : CallsNewest h)
    (he : ∀ call, e = .called call → newest? h = some call.consumer) :
    CallsNewest (h ++ [e]) := by
  intro before call rest heq
  rcases List.eq_nil_or_concat rest with rfl | ⟨rest, last, rfl⟩
  · obtain ⟨rfl, hlast⟩ := List.append_inj' heq rfl
    exact he call (List.cons.inj hlast).1
  · have hsplit : h ++ [e] = (before ++ .called call :: rest) ++ [last] := by
      rw [heq]
      simp
    obtain ⟨rfl, -⟩ := List.append_inj' hsplit rfl
    exact hc before call rest rfl

end History

/-! ### What an operation hands over -/

/-- Nothing waits while a consumer is attached, unless the backlog is being flushed. -/
def Drained (r : Relay κ) : Prop :=
  r.consumer.isSome = true → r.flushing = false → r.backlog = []

/-- An operation has handed the front of a queue to the consumer, if it has started a call, and has
    left the rest of the queue as the backlog. While a flush is under way it starts none. -/
structure HandsOver (consumer : Option κ) (queue : List Batch) (delivered : Nat) (flush : Bool)
    (moved : Relay κ × Option (Call κ)) : Prop where
  batches : moved.2.toList.map Call.batch ++ moved.1.backlog = queue
  count : moved.1.delivered = delivered + moved.2.toList.length
  attached : moved.1.consumer = consumer
  idle : moved.2 = none → moved.1.flushing = flush
  target : ∀ call, moved.2 = some call →
    consumer = some call.consumer ∧ flush = false ∧ call.fromBacklog = moved.1.flushing
  drained : Drained moved.1

/-- A flush hands over the oldest batch, or it ends. -/
theorem flushNext_handsOver {r : Relay κ} (hf : r.flushing = true) :
    HandsOver r.consumer r.backlog r.delivered false r.flushNext := by
  unfold flushNext
  split
  · rename_i c b rest hc hb
    refine ⟨by simp [hb], rfl, rfl, nofun, ?_, ?_⟩
    · rintro call ⟨⟩
      exact ⟨hc, rfl, hf.symm⟩
    · intro _ hidle
      exact absurd hidle (by simp [hf])
  · rename_i hnone
    refine ⟨rfl, rfl, rfl, fun _ => rfl, nofun, ?_⟩
    intro hsome _
    obtain ⟨c, hc⟩ := Option.isSome_iff_exists.1 hsome
    rcases hb : r.backlog with _ | ⟨b, rest⟩
    · rfl
    · exact (hnone c b rest hc hb).elim

/-- A batch that comes goes behind the backlog, or at once to the consumer if there is none. -/
theorem deliver_handsOver {r : Relay κ} (hd : Drained r) (b : Batch) :
    HandsOver r.consumer (r.backlog ++ [b]) r.delivered r.flushing (r.deliver b) := by
  unfold deliver
  split
  · rename_i c hc
    split
    · rename_i hf
      refine ⟨rfl, rfl, rfl, fun _ => rfl, nofun, ?_⟩
      intro _ hidle
      exact absurd hidle (by simp [hf])
    · rename_i hf
      have hidle : r.flushing = false := by simpa using hf
      have hempty : r.backlog = [] := hd (by rw [hc]; rfl) hidle
      refine ⟨by simp [hempty], rfl, rfl, nofun, ?_, fun _ _ => hempty⟩
      rintro call ⟨⟩
      exact ⟨hc, hidle, hidle.symm⟩
  · rename_i hc
    refine ⟨rfl, rfl, rfl, fun _ => rfl, nofun, ?_⟩
    intro hsome
    exact absurd hsome (by simp [hc])

/-- A consumer that attaches takes over the backlog, from a running flush as well. -/
theorem attach_handsOver (r : Relay κ) (c : κ) :
    HandsOver (some c) r.backlog r.delivered r.flushing (r.attach c) := by
  unfold attach
  split
  · rename_i hf
    refine ⟨rfl, rfl, rfl, fun _ => rfl, nofun, ?_⟩
    intro _ hidle
    exact absurd hidle (by simp [hf])
  · rename_i hf
    have hidle : r.flushing = false := by simpa using hf
    rw [hidle]
    exact flushNext_handsOver (r := { r with consumer := some c, flushing := true }) rfl

/-- The end of a call lets a flush go on, and after a direct call nothing is left to do. -/
theorem finish_handsOver {r : Relay κ} (hd : Drained r) {call : Call κ}
    (hf : r.flushing = call.fromBacklog) :
    HandsOver r.consumer r.backlog r.delivered false (r.finish call) := by
  unfold finish
  split
  · rename_i hb
    exact flushNext_handsOver (hf.trans hb)
  · rename_i hb
    exact ⟨rfl, rfl, rfl, fun _ => hf.trans (by simpa using hb), nofun, hd⟩

/-- Where no consumer listens, the end of a call ends the flush that it is part of, and that is
    all. -/
theorem finish_alone {r : Relay κ} (h : r.consumer = none) (call : Call κ) :
    ∃ flushing, r.finish call = ({ r with flushing }, none) := by
  unfold finish
  split
  · refine ⟨false, ?_⟩
    unfold flushNext
    rw [h]
  · exact ⟨r.flushing, rfl⟩

/-! ### The invariant -/

/-- The innermost of some calls hands over a batch of the backlog. -/
def flushes (calls : List (Call κ)) : Bool := calls.head?.any Call.fromBacklog

/-- If the innermost call is direct and the calls around it are, then all are. -/
theorem direct_of_not_flushes {calls : List (Call κ)} (hf : flushes calls = false)
    (ht : ∀ call ∈ calls.tail, call.fromBacklog = false) :
    ∀ call ∈ calls, call.fromBacklog = false := by
  rcases calls with _ | ⟨top, rest⟩
  · exact nofun
  · intro call hcall
    rcases List.mem_cons.1 hcall with rfl | hrest
    · exact hf
    · exact ht call hrest

/-- What holds of every world that moves lead to. -/
structure World.Good (w : World κ) : Prop where
  handed : started w.history ++ w.relay.backlog = offered w.history
  counted : w.relay.delivered = (started w.history).length
  attached : w.relay.consumer = newest? w.history
  newest : CallsNewest w.history
  drained : Drained w.relay
  /-- A flush is under way exactly when its call is the innermost one. -/
  top : w.relay.flushing = flushes w.calls
  below : ∀ call ∈ w.calls.tail, call.fromBacklog = false

namespace World

section Proceed

variable (w : World κ) {e : Event κ} (moved : Relay κ × Option (Call κ))

theorem history_proceed :
    (w.proceed e moved).history = w.history ++ [e] ++ moved.2.toList.map .called := by
  simp [proceed]

theorem started_proceed (he : e.clears = false) (hs : e.started? = none) :
    started (w.proceed e moved).history = started w.history ++ moved.2.toList.map Call.batch := by
  rw [history_proceed]
  rcases moved.2 with _ | call
  · simp [started_concat he, hs]
  · simp only [Option.toList_some, List.map_cons, List.map_nil]
    rw [started_concat rfl, started_concat he, hs]
    simp [Event.started?]

theorem offered_proceed (he : e.clears = false) :
    offered (w.proceed e moved).history = offered w.history ++ e.offered?.toList := by
  rw [history_proceed]
  rcases moved.2 with _ | call
  · simp [offered_concat he]
  · simp only [Option.toList_some, List.map_cons, List.map_nil]
    rw [offered_concat rfl, offered_concat he]
    simp [Event.offered?]

theorem newest?_proceed (he : e.clears = false) :
    newest? (w.proceed e moved).history = e.attached?.or (newest? w.history) := by
  rw [history_proceed]
  rcases moved.2 with _ | call
  · simp [newest?_concat he]
  · simp only [Option.toList_some, List.map_cons, List.map_nil]
    rw [newest?_concat rfl, newest?_concat he]
    rfl

theorem callsNewest_proceed {w : World κ} {moved : Relay κ × Option (Call κ)}
    (hw : CallsNewest w.history) (he : e.clears = false) (hs : e.started? = none)
    (hto : ∀ call, moved.2 = some call → e.attached?.or (newest? w.history) = some call.consumer) :
    CallsNewest (w.proceed e moved).history := by
  have hcalls : CallsNewest (w.history ++ [e]) := by
    refine callsNewest_concat hw fun call hcall => ?_
    rw [hcall] at hs
    exact absurd hs (by simp [Event.started?])
  rw [history_proceed]
  rcases hm : moved.2 with _ | call
  · simpa using hcalls
  · refine callsNewest_concat hcalls ?_
    rintro call' ⟨⟩
    rw [newest?_concat he]
    exact hto call hm

end Proceed

/-- A new relay is good. -/
theorem good_new : Good ({} : World κ) where
  handed := rfl
  counted := rfl
  attached := rfl
  newest := by
    intro before call rest heq
    simp at heq
  drained := nofun
  top := rfl
  below := nofun

/-- An operation that hands over keeps a world good. The calls under way are those left of the
    world's own, which for the end of a call is one less. -/
theorem good_proceed {w : World κ} (hw : w.Good) {e : Event κ} {calls : List (Call κ)}
    {moved : Relay κ × Option (Call κ)} (he : e.clears = false) (hs : e.started? = none)
    (hm : HandsOver (e.attached?.or w.relay.consumer) (w.relay.backlog ++ e.offered?.toList)
      w.relay.delivered (flushes calls) moved)
    (hcalls : ∀ call ∈ calls.tail, call.fromBacklog = false) :
    ({ w with calls }.proceed e moved).Good where
  handed := by
    rw [started_proceed _ _ he hs, offered_proceed _ _ he, List.append_assoc]
    show started w.history ++ (moved.2.toList.map Call.batch ++ moved.1.backlog) = _
    rw [hm.batches, ← List.append_assoc, hw.handed]
  counted := by
    rw [started_proceed _ _ he hs, List.length_append, List.length_map, ← hw.counted]
    exact hm.count
  attached := by
    rw [newest?_proceed _ _ he, ← hw.attached]
    exact hm.attached
  newest := by
    refine callsNewest_proceed hw.newest he hs fun call hcall => ?_
    rw [← hw.attached]
    exact (hm.target call hcall).1
  drained := hm.drained
  top := by
    show moved.1.flushing = flushes (moved.2.toList ++ calls)
    rcases hn : moved.2 with _ | call
    · exact hm.idle hn
    · exact (hm.target call hn).2.2.symm
  below := by
    show ∀ call ∈ (moved.2.toList ++ calls).tail, call.fromBacklog = false
    rcases hn : moved.2 with _ | call
    · exact hcalls
    · exact direct_of_not_flushes (hm.target call hn).2.1 hcalls

/-- Closing a relay keeps a world good: nothing is handed over and nothing is left. -/
theorem good_close {w : World κ} (hw : w.Good) : (w.step .close).Good where
  handed := by
    show started (w.history ++ [.cleared]) ++ [] = offered (w.history ++ [.cleared])
    rw [started_cleared, offered_cleared]
    rfl
  counted := by
    show 0 = (started (w.history ++ [.cleared])).length
    rw [started_cleared]
    rfl
  attached := newest?_cleared.symm
  newest := callsNewest_concat hw.newest nofun
  drained := nofun
  top := hw.top
  below := hw.below

/-- Every move keeps a world good. -/
theorem good_step {w : World κ} (hw : w.Good) (m : Move κ) : (w.step m).Good := by
  cases m with
  | deliver b =>
    refine good_proceed hw rfl rfl ?_ hw.below
    rw [← hw.top]
    exact deliver_handsOver hw.drained b
  | attach c =>
    refine good_proceed hw rfl rfl ?_ hw.below
    show HandsOver (some c) (w.relay.backlog ++ []) _ _ _
    rw [← hw.top, List.append_nil]
    exact attach_handsOver w.relay c
  | close => exact good_close hw
  | finish failed =>
    simp only [step]
    rcases hc : w.calls with _ | ⟨call, calls⟩
    · exact hw
    · have htop : w.relay.flushing = call.fromBacklog := by rw [hw.top, hc]; rfl
      have hbelow : ∀ c ∈ calls, c.fromBacklog = false := by simpa [hc] using hw.below
      have hrest : flushes calls = false := by
        rcases calls with _ | ⟨next, rest⟩
        · rfl
        · exact hbelow next (List.mem_cons_self ..)
      refine good_proceed hw rfl rfl ?_ fun c hc => hbelow c (List.mem_of_mem_tail hc)
      show HandsOver w.relay.consumer (w.relay.backlog ++ []) _ _ _
      rw [hrest, List.append_nil]
      exact finish_handsOver hw.drained htop

/-- Every world that moves lead to is good. -/
theorem good_after (moves : List (Move κ)) : (after moves).Good := by
  induction moves using List.reverseRecOn with
  | nil => exact good_new
  | append_singleton moves m ih =>
    rw [after, List.foldl_append]
    exact good_step ih m

end World

/-! ### Exactly once, in order -/

/-- At every moment of every run, the batches handed to the relay since it was last closed are those
    that calls were started with, in that order, followed by the backlog; the counter counts those
    calls; and every call was made on the consumer that had attached last. -/
theorem handed_over_exactly_once (moves : List (Move κ)) :
    started (World.after moves).history ++ (World.after moves).relay.backlog =
        offered (World.after moves).history ∧
      (World.after moves).relay.delivered = (started (World.after moves).history).length ∧
      CallsNewest (World.after moves).history := by
  have hw := World.good_after moves
  exact ⟨hw.handed, hw.counted, hw.newest⟩

/-- The first consumer closes the relay in the middle of a flush, hands it a batch, lets another
    consumer attach and fails: the flush goes on with what is there by then. -/
example (a b c : Batch) :
    (World.after [.deliver a, .deliver b, .attach 1, .close, .deliver c, .attach 2,
        .finish true]).history =
      [.offered a, .offered b, .attached 1, .called ⟨1, a, true⟩, .cleared, .offered c,
        .attached 2, .ended ⟨1, a, true⟩ true, .called ⟨2, c, true⟩] := rfl

end TraitIndex.Relay
