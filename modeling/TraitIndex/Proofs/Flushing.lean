import TraitIndex.Proofs.PageRun
import TraitIndex.Proofs.Returning

/-! Flushes.

    A flush begins when a consumer attaches to a relay that is not flushing already, between
    operations or in the middle of a direct call, and lasts until the backlog is empty or nobody is
    attached any more. Whatever the consumers do meanwhile, its calls come one by one, each with the
    batch that has waited longest, and what they leave over has been discarded or left waiting by a
    closing. -/

namespace TraitIndex

namespace Relay

variable {κ : Type}

/-! ### What happens in a flush -/

/-- The event starts or ends a call. -/
def Event.ofCall : Event κ → Bool
  | .called _ | .ended .. => true
  | _ => false

/-- Calls that come one by one, with the one that is under way at last: a call starts only where
    none is under way. -/
inductive OneByOne : List (Event κ) → Option (Call κ) → Prop where
  | nil : OneByOne [] none
  | starts {es : List (Event κ)} (h : OneByOne es none) (call : Call κ) :
    OneByOne (es ++ [.called call]) (some call)
  | ends {es : List (Event κ)} {call : Call κ} (h : OneByOne es (some call)) (failed : Bool) :
    OneByOne (es ++ [.ended call failed]) none
  | beside {es : List (Event κ)} {under : Option (Call κ)} {e : Event κ} (h : OneByOne es under)
    (he : e.ofCall = false) : OneByOne (es ++ [e]) under

/-- What waits after an event. -/
def waits (q : List Batch) : Event κ → List Batch
  | .offered b => q ++ [b]
  | .called _ => q.tail
  | .cleared => []
  | _ => q

/-- The batches that closings discard. -/
def discarded : List Batch → List (Event κ) → List Batch
  | _, [] => []
  | q, e :: es => (if e.clears then q else []) ++ discarded (waits q e) es

/-- The batches that calls are started with. -/
def calledWith (es : List (Event κ)) : List Batch := es.filterMap Event.started?

/-- The batches that are handed in. -/
def handedIn (es : List (Event κ)) : List Batch := es.filterMap Event.offered?

/-- Each call is made with the batch that has waited longest. -/
def TakesOldest : List Batch → List (Event κ) → Prop
  | _, [] => True
  | q, e :: es => (∀ b ∈ e.started?, q.head? = some b) ∧ TakesOldest (waits q e) es

section Queue

variable {q : List Batch} {es : List (Event κ)} {e : Event κ}

theorem takesOldest_append {es' : List (Event κ)} : TakesOldest q (es ++ es') ↔
    TakesOldest q es ∧ TakesOldest (es.foldl waits q) es' := by
  induction es generalizing q with
  | nil => simp [TakesOldest]
  | cons e es ih => simp only [List.cons_append, TakesOldest, ih, List.foldl_cons, and_assoc]

/-- As long as nothing is discarded, what waited and what is handed in comes to the calls in this
    order, and the rest of it waits. -/
theorem calledWith_append_waits (h : TakesOldest q es) (hes : ∀ e ∈ es, e.clears = false) :
    calledWith es ++ es.foldl waits q = q ++ handedIn es := by
  induction es generalizing q with
  | nil => exact (List.append_nil q).symm
  | cons e es ih =>
    obtain ⟨hfirst, hrest⟩ := h
    have hclears := hes e (List.mem_cons_self ..)
    have ih := ih hrest fun e he => hes e (List.mem_cons_of_mem _ he)
    simp only [List.foldl_cons]
    cases e with
    | offered b =>
      show calledWith es ++ _ = q ++ b :: handedIn es
      rw [ih, waits, List.append_assoc]
      rfl
    | called call =>
      obtain ⟨q', rfl⟩ := List.head?_eq_some_iff.1 (hfirst _ rfl)
      show call.batch :: calledWith es ++ _ = _
      rw [List.cons_append, ih]
      rfl
    | cleared => exact absurd hclears (by simp [Event.clears])
    | attached c => exact ih
    | ended call failed => exact ih

/-- Whatever waited or is handed in is called with, discarded, or waits still. -/
theorem length_calledWith (h : TakesOldest q es) :
    (calledWith es).length + (discarded q es).length + (es.foldl waits q).length =
      q.length + (handedIn es).length := by
  induction es generalizing q with
  | nil => simp [calledWith, discarded, handedIn]
  | cons e es ih =>
    obtain ⟨hfirst, hrest⟩ := h
    have ih := ih hrest
    simp only [List.foldl_cons, discarded, List.length_append]
    cases e with
    | offered b =>
      simp only [calledWith, handedIn, List.filterMap_cons, Event.started?, Event.offered?,
        Event.clears, waits, List.length_append, List.length_cons, List.length_nil] at ih ⊢
      simp only [Bool.false_eq_true, if_false, List.length_nil]
      omega
    | called call =>
      obtain ⟨q', rfl⟩ := List.head?_eq_some_iff.1 (hfirst _ rfl)
      simp only [calledWith, handedIn, List.filterMap_cons, Event.started?, Event.offered?,
        Event.clears, waits, List.tail_cons, List.length_cons] at ih ⊢
      simp only [Bool.false_eq_true, if_false, List.length_nil]
      omega
    | cleared =>
      simp only [calledWith, handedIn, List.filterMap_cons, Event.started?, Event.offered?,
        Event.clears, waits, List.length_nil] at ih ⊢
      simp only [if_true]
      omega
    | attached c | ended call failed =>
      simp only [calledWith, handedIn, List.filterMap_cons, Event.started?, Event.offered?,
        Event.clears, waits] at ih ⊢
      simp only [Bool.false_eq_true, if_false, List.length_nil]
      omega

end Queue

/-! ### Flushes of a relay -/

namespace World

/-- A flush has begun in one world, when a consumer attached, and has led to another: it goes on as
    long as the relay is flushing. -/
inductive Flushes (w : World κ) (c : κ) : World κ → Prop where
  | begun (hidle : w.relay.flushing = false) : Flushes w c (w.step (.attach c))
  | goesOn {w' : World κ} (h : Flushes w c w') (hf : w'.relay.flushing = true) (m : Move κ) :
    Flushes w c (w'.step m)

/-- What a flush has led to, by what happened in it and the call of it that is under way. -/
structure Flushed (w : World κ) (c : κ) (w' : World κ) (es : List (Event κ))
    (under : Option (Call κ)) : Prop where
  history : w'.history = w.history ++ .attached c :: es
  /-- Under way are the calls from before the flush and at most one more. -/
  calls : w'.calls = under.toList ++ w.calls
  oneByOne : OneByOne es under
  oldest : TakesOldest w.relay.backlog es
  waiting : w'.relay.backlog = es.foldl waits w.relay.backlog
  running : w'.relay.flushing = under.isSome
  fromBacklog : ∀ call ∈ under, call.fromBacklog = true
  /-- Nobody is attached any more only after a closing. -/
  alone : w'.relay.consumer = none → .cleared ∈ es
  left : w'.relay.flushing = false → w'.relay.backlog ≠ [] → w'.relay.consumer = none

variable {w w' : World κ} {c : κ} {es : List (Event κ)} {under : Option (Call κ)}

/-- Where no call is under way, the flush makes the next one or is over. -/
theorem flushed_flushNext {r : Relay κ} {h : List (Event κ)} (hone : OneByOne es none)
    (hold : TakesOldest w.relay.backlog es) (hwait : r.backlog = es.foldl waits w.relay.backlog)
    (hf : r.flushing = true) (halone : r.consumer = none → .cleared ∈ es)
    (hh : h = w.history ++ .attached c :: (es ++ r.flushNext.2.toList.map .called)) :
    w.Flushed c ⟨r.flushNext.1, r.flushNext.2.toList ++ w.calls, h⟩
      (es ++ r.flushNext.2.toList.map .called) r.flushNext.2 := by
  subst hh
  unfold flushNext
  split
  · rename_i next b rest hc hb
    rw [hb] at hwait
    refine ⟨rfl, rfl, hone.starts _, ?_, ?_, hf, ?_, ?_, ?_⟩
    · refine takesOldest_append.2 ⟨hold, ?_, trivial⟩
      rintro _ ⟨⟩
      rw [← hwait]
      rfl
    · rw [List.foldl_append, ← hwait]
      rfl
    · rintro _ ⟨⟩
      rfl
    · exact fun hnone => absurd (hc.symm.trans hnone) (by simp)
    · exact fun hidle => absurd (hf.symm.trans hidle) (by simp)
  · rename_i hnone
    simp only [Option.toList_none, List.map_nil, List.append_nil]
    refine ⟨rfl, rfl, hone, hold, hwait, rfl, fun _ h => absurd h (by simp), halone, ?_⟩
    intro _ hb
    obtain ⟨b, rest, hb⟩ := List.exists_cons_of_ne_nil hb
    exact Option.eq_none_iff_forall_ne_some.2 fun next hc => hnone next b rest hc hb

/-- Whatever is done in the call of a flush, its end apart, is beside the flush. -/
theorem Flushed.beside (h : w.Flushed c w' es under) (hf : w'.relay.flushing = true) {e : Event κ}
    (he : e.ofCall = false) {r : Relay κ} (hr : r.flushing = true)
    (hwait : r.backlog = waits w'.relay.backlog e)
    (halone : r.consumer = none → w'.relay.consumer = none ∨ e = .cleared) :
    w.Flushed c (w'.proceed e (r, none)) (es ++ [e]) under where
  history := by
    show w'.history ++ [e] = _
    rw [h.history]
    simp
  calls := h.calls
  oneByOne := h.oneByOne.beside he
  oldest := by
    refine takesOldest_append.2 ⟨h.oldest, ?_, trivial⟩
    intro b hb
    cases e with
    | called call => exact absurd he (by simp [Event.ofCall])
    | _ => exact absurd hb (by simp [Event.started?])
  waiting := by
    rw [List.foldl_append, ← h.waiting]
    exact hwait
  running := hr.trans (hf.symm.trans h.running)
  fromBacklog := h.fromBacklog
  alone := by
    intro hnone
    rcases halone hnone with hnone | rfl
    · exact List.mem_append_left _ (h.alone hnone)
    · exact List.mem_append_right _ (List.mem_singleton_self _)
  left := fun hidle => absurd (hr.symm.trans hidle) (by simp)

/-- Every move leads a flush on. -/
theorem Flushed.step (h : w.Flushed c w' es under) (hf : w'.relay.flushing = true) (m : Move κ) :
    ∃ es' under', w.Flushed c (w'.step m) es' under' := by
  cases m with
  | deliver b =>
    have hdeliver : w'.relay.deliver b =
        ({ w'.relay with backlog := w'.relay.backlog ++ [b] }, none) := by
      unfold deliver
      split
      · rw [if_pos hf]
      · rfl
    rw [World.step, hdeliver]
    exact ⟨_, _, h.beside hf rfl hf rfl .inl⟩
  | attach next =>
    have hattach : w'.relay.attach next = ({ w'.relay with consumer := some next }, none) :=
      if_pos hf
    rw [World.step, hattach]
    exact ⟨_, _, h.beside hf rfl hf rfl fun h => absurd h (by simp)⟩
  | close => exact ⟨_, _, h.beside hf rfl hf rfl fun _ => .inr rfl⟩
  | finish failed =>
    obtain ⟨call, rfl⟩ := Option.isSome_iff_exists.1 (h.running.symm.trans hf)
    have hfinish : w'.relay.finish call = w'.relay.flushNext := if_pos (h.fromBacklog call rfl)
    have hstep : w'.step (.finish failed) =
        { w' with calls := w.calls }.proceed (.ended call failed) w'.relay.flushNext := by
      simp only [World.step, h.calls, Option.toList_some, List.singleton_append, hfinish]
    have hold : TakesOldest w.relay.backlog (es ++ [.ended call failed]) :=
      takesOldest_append.2 ⟨h.oldest, fun _ h => absurd h (by simp [Event.started?]), trivial⟩
    have hwait : w'.relay.backlog =
        (es ++ [Event.ended call failed]).foldl waits w.relay.backlog := by
      rw [List.foldl_append, ← h.waiting]
      rfl
    have halone : w'.relay.consumer = none → .cleared ∈ es ++ [.ended call failed] :=
      fun hnone => List.mem_append_left _ (h.alone hnone)
    rw [hstep]
    refine ⟨_, _, flushed_flushNext (h.oneByOne.ends failed) hold hwait hf halone ?_⟩
    simp [h.history]

theorem exists_flushed (h : w.Flushes c w') : ∃ es under, w.Flushed c w' es under := by
  induction h with
  | begun hidle =>
    have hattach : w.relay.attach c =
        flushNext { w.relay with consumer := some c, flushing := true } := by
      rw [attach, hidle]
      rfl
    rw [World.step, hattach]
    exact ⟨_, _, flushed_flushNext .nil trivial rfl rfl (fun h => absurd h (by simp)) rfl⟩
  | goesOn _ hf m ih =>
    obtain ⟨es, under, ih⟩ := ih
    exact ih.step hf m

/-- What a flush has led to: besides, what is handed in comes behind all that waits then, and no
    batch is called with that was not there, nor left out without a closing. -/
structure FlushedInOrder (w : World κ) (c : κ) (w' : World κ) (es : List (Event κ))
    (under : Option (Call κ)) : Prop extends w.Flushed c w' es under where
  order : ∀ before b mid after, es = before ++ .offered b :: (mid ++ after) →
    (∀ e ∈ mid, e.clears = false) →
    calledWith mid ++ (before ++ .offered b :: mid).foldl waits w.relay.backlog =
      before.foldl waits w.relay.backlog ++ b :: handedIn mid
  count : (calledWith es).length + (discarded w.relay.backlog es).length +
    w'.relay.backlog.length = w.relay.backlog.length + (handedIn es).length

theorem Flushed.inOrder (h : w.Flushed c w' es under) : w.FlushedInOrder c w' es under where
  toFlushed := h
  order := by
    intro before b mid after hes hmid
    have hold := h.oldest
    rw [hes, ← List.cons_append, ← List.append_assoc] at hold
    have hold := (takesOldest_append.1 (takesOldest_append.1 hold).1).2
    rw [List.foldl_append]
    exact calledWith_append_waits hold (List.forall_mem_cons.2 ⟨rfl, hmid⟩)
  count := by
    rw [h.waiting]
    exact length_calledWith h.oldest

end World

end Relay

namespace Page

open Relay (waits)

variable {κ : Type}

/-! ### Flushes of a page -/

namespace World

/-- A flush has begun on an open page, when a consumer attached, and has led from one world to
    another. -/
inductive Flushes (w : World κ) (c : κ) : World κ → Prop where
  | begun (hopen : w.page.closed = false) (hidle : w.page.relay.flushing = false) :
    Flushes w c (w.step (.attach c))
  | goesOn {w' : World κ} (h : Flushes w c w') (hf : w'.page.relay.flushing = true) (m : Move κ) :
    Flushes w c (w'.step m)

/-- It is a flush of the relay. -/
theorem Flushes.atRelay {w w' : World κ} {c : κ} (h : w.Flushes c w') :
    w.atRelay.Flushes c w'.atRelay := by
  induction h with
  | begun hopen hidle =>
    have hstep : (w.step (.attach c)).atRelay = w.atRelay.step (.attach c) :=
      (step_ofRelay hopen (.attach c)).2
    rw [hstep]
    exact .begun hidle
  | @goesOn w' _ hf m ih =>
    rcases w'.atRelay_step m with h | ⟨m', h⟩
    · rw [h]
      exact ih
    · rw [h]
      exact ih.goesOn hf m'

end World

/-- Whatever consumers with finitely many things to do have in store, every step that is begun, an
    attachment or a contribution as any other, at whatever depth, gets its reply. And whatever
    consumers do, at every moment of a flush on a relay or on a page its calls have come one by one,
    what was handed in has gone behind all that waited then, and all that waited at the start or was
    handed in has been called with, discarded by a closing, or waits. Once the flush is over it
    waits only if nobody is attached any more, after a closing. -/
theorem flush_is_sequential_and_ends :
    (∀ (m : Scenario.Machine) (s : Scenario.Step), m.focus = .run s →
      ∃ (m' : Scenario.Machine) (r : Except Fault Scenario.Reply),
        m.Plays m' ∧ m'.focus = .reply r ∧ m'.frames = m.frames) ∧
    (∀ (w w' : Relay.World κ) (c : κ), w.Flushes c w' →
      ∃ es under, w.FlushedInOrder c w' es under) ∧
    ∀ (w w' : World κ) (c : κ), w.Flushes c w' →
      ∃ es under, w.atRelay.FlushedInOrder c w'.atRelay es under := by
  refine ⟨fun m s h => m.step_replied h, fun w w' c h => ?_, fun w w' c h => ?_⟩
  · obtain ⟨es, under, hflushed⟩ := Relay.World.exists_flushed h
    exact ⟨es, under, hflushed.inOrder⟩
  · obtain ⟨es, under, hflushed⟩ := Relay.World.exists_flushed h.atRelay
    exact ⟨es, under, hflushed.inOrder⟩

/-- A consumer that contributes when it is called with `a`, and fails. -/
def contributor : Scenario.Script :=
  .mk "renderer" [.mk (some "a") 1 [.act (.contribute (.map [(.text "c", .list [])]))] true]

/-- Two batches wait on a page. -/
def waitingTwo : World Nat :=
  World.after [.contribute (.single "a" []), .contribute (.single "b" [])]

/-- The consumer that is called with the first of them contributes, resets the page, contributes
    again, lets another consumer attach and fails. -/
def resetMidway : World Nat :=
  ((((((waitingTwo.step (.attach 1)).step (.contribute (.single "c" []))).step .reset).step
    (.contribute (.single "d" []))).step (.attach 2)).step (.finish true)).step (.finish false)

theorem flushes_resetMidway : waitingTwo.Flushes 1 resetMidway :=
  ((((((World.Flushes.begun rfl rfl).goesOn rfl _).goesOn rfl _).goesOn rfl _).goesOn rfl _).goesOn
    rfl _).goesOn rfl _

theorem flush_is_sequential_and_ends_midway :
    (∃ (m' : Scenario.Machine) (r : Except Fault Scenario.Reply),
      Scenario.Machine.Plays
          { site := { page := { relay := { backlog := [.single "a" []] } } }
            scripts := [], focus := .run (.attach contributor) } m' ∧
        m'.focus = .reply r ∧ m'.frames = []) ∧
    (∃ es under, (Relay.World.after [.deliver (.single "a" [])]).FlushedInOrder 1
      (Relay.World.after [.deliver (.single "a" []), .attach 1]) es under) ∧
    ∃ es under, waitingTwo.atRelay.FlushedInOrder 1 resetMidway.atRelay es under ∧
      Relay.calledWith es = [.single "a" [], .single "d" []] ∧
      Relay.discarded waitingTwo.page.relay.backlog es = [.single "b" [], .single "c" []] := by
  refine ⟨(flush_is_sequential_and_ends (κ := Nat)).1 _ _ rfl,
    flush_is_sequential_and_ends.2.1 _ _ 1 (.begun rfl), ?_⟩
  obtain ⟨es, under, h⟩ := flush_is_sequential_and_ends.2.2 _ _ 1 flushes_resetMidway
  have hhistory : resetMidway.history = waitingTwo.history ++ .attached 1 ::
      [.called ⟨1, .single "a" [], true⟩, .offered (.single "c" []), .cleared,
        .offered (.single "d" []), .attached 2, .ended ⟨1, .single "a" [], true⟩ true,
        .called ⟨2, .single "d" [], true⟩, .ended ⟨2, .single "d" [], true⟩ false] := rfl
  obtain ⟨-, rfl⟩ := List.cons.inj (List.append_cancel_left (h.history.symm.trans hhistory))
  exact ⟨_, under, h, rfl, rfl⟩

end Page
end TraitIndex
