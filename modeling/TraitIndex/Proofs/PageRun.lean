import TraitIndex.Page
import TraitIndex.Proofs.RelayRun
import TraitIndex.Proofs.Tables

/-! Runs of a page.

    As for a relay, whoever is in control makes the next move, a consumer in the middle of its call
    as well. A contribution is a batch by whatever route it came, for all routes end in the page's
    own `contribute`. What a closed page refuses changes nothing and does not happen, and a closed
    page is not closed again. Seen from its relay a run of a page is a run of the relay. -/

namespace TraitIndex.Page

open Relay (Event offered started)

variable {κ : Type}

/-- What can be done next with a page. -/
inductive Move (κ : Type) where
  | contribute (b : Batch)
  | attach (c : κ)
  | reset
  | close
  /-- The innermost call ends, perhaps by a failure. -/
  | finish (failed : Bool)

/-- A page with the calls under way, innermost first, and what happened so far, in order. -/
structure World (κ : Type) where
  page : Page κ := {}
  calls : List (Call κ) := []
  history : List (Event κ) := []

namespace World

/-- Something happens that changes the page and may start a call. -/
def proceed (w : World κ) (e : Event κ) (moved : Page κ × Option (Call κ)) : World κ where
  page := moved.1
  calls := moved.2.toList ++ w.calls
  history := w.history ++ e :: moved.2.toList.map .called

/-- A move is made. -/
def step (w : World κ) : Move κ → World κ
  | .contribute b =>
    match w.page.contribute b with
    | .ok moved => w.proceed (.offered b) moved
    | .error _ => w
  | .attach c =>
    match w.page.attach c with
    | .ok moved => w.proceed (.attached c) moved
    | .error _ => w
  | .reset => w.proceed .cleared (w.page.reset, none)
  | .close => if w.page.closed then w else w.proceed .cleared (w.page.close, none)
  | .finish failed =>
    match w.calls with
    | [] => w
    | call :: calls => { w with calls }.proceed (.ended call failed) (w.page.finish call)

/-- The world after moves made on a new page. -/
def after (moves : List (Move κ)) : World κ := moves.foldl step {}

/-- What there is to see of a world at the relay of its page. -/
def atRelay (w : World κ) : Relay.World κ := ⟨w.page.relay, w.calls, w.history⟩

end World

/-! ### A page and its relay -/

theorem contribute_ok {p : Page κ} {b : Batch} {moved : Page κ × Option (Call κ)}
    (h : p.contribute b = .ok moved) : p.closed = false ∧ moved = p.accept b := by
  unfold contribute at h
  split at h
  · exact absurd h (by simp)
  · rename_i hc
    exact ⟨by simpa using hc, (Except.ok.inj h).symm⟩

theorem attach_ok {p : Page κ} {c : κ} {moved : Page κ × Option (Call κ)}
    (h : p.attach c = .ok moved) :
    p.closed = false ∧
      moved = ({ p with relay := (p.relay.attach c).1 }, (p.relay.attach c).2) := by
  unfold attach at h
  split at h
  · exact absurd h (by simp)
  · rename_i hc
    exact ⟨by simpa using hc, (Except.ok.inj h).symm⟩

theorem contribute_of_open {p : Page κ} (hopen : p.closed = false) (b : Batch) :
    p.contribute b = .ok (p.accept b) := by
  rw [contribute, hopen]
  rfl

theorem attach_of_open {p : Page κ} (hopen : p.closed = false) (c : κ) :
    p.attach c = .ok ({ p with relay := (p.relay.attach c).1 }, (p.relay.attach c).2) := by
  simp [attach, hopen]

/-- On an open page a contribution is accepted. -/
theorem World.page_step_contribute {w : World κ} (hopen : w.page.closed = false) (b : Batch) :
    (w.step (.contribute b)).page = (w.page.accept b).1 := by
  rw [step, contribute_of_open hopen]
  rfl

/-- On an open page a consumer that attaches concerns the relay only. -/
theorem World.page_step_attach {w : World κ} (hopen : w.page.closed = false) (c : κ) :
    (w.step (.attach c)).page = { w.page with relay := (w.page.relay.attach c).1 } := by
  rw [step, attach_of_open hopen]
  rfl

/-- A move of a page is a move of its relay, or the relay does not take part in it. -/
theorem World.atRelay_step (w : World κ) (m : Move κ) :
    (w.step m).atRelay = w.atRelay ∨ ∃ m', (w.step m).atRelay = w.atRelay.step m' := by
  cases m with
  | contribute b =>
    simp only [step]
    split
    · rename_i moved h
      obtain ⟨-, rfl⟩ := contribute_ok h
      exact .inr ⟨.deliver b, rfl⟩
    · exact .inl rfl
  | attach c =>
    simp only [step]
    split
    · rename_i moved h
      obtain ⟨-, rfl⟩ := attach_ok h
      exact .inr ⟨.attach c, rfl⟩
    · exact .inl rfl
  | reset => exact .inr ⟨.close, rfl⟩
  | close =>
    simp only [step]
    split
    · exact .inl rfl
    · rename_i hc
      refine .inr ⟨.close, ?_⟩
      rw [Page.close, if_neg hc]
      rfl
  | finish failed =>
    simp only [step]
    split
    · exact .inl rfl
    · rename_i call calls hc
      refine .inr ⟨.finish failed, ?_⟩
      simp only [Relay.World.step, atRelay, hc]
      rfl

/-- Seen from the relay, a run of a page is a run of the relay. -/
theorem World.atRelay_after (moves : List (Move κ)) :
    ∃ moves', (after moves).atRelay = Relay.World.after moves' := by
  induction moves using List.reverseRecOn with
  | nil => exact ⟨[], rfl⟩
  | append_singleton moves m ih =>
    obtain ⟨moves', ih⟩ := ih
    rw [after, List.foldl_append]
    rcases World.atRelay_step (after moves) m with h | ⟨m', h⟩
    · exact ⟨moves', h.trans ih⟩
    · refine ⟨moves' ++ [m'], ?_⟩
      rw [Relay.World.after, List.foldl_append]
      exact h.trans (congrArg (·.step m') ih)

/-- The move of a page that is a move of its relay. -/
def Move.ofRelay : Relay.Move κ → Move κ
  | .deliver b => .contribute b
  | .attach c => .attach c
  | .close => .reset
  | .finish failed => .finish failed

/-- On an open page a move of the relay can be made, and leaves the page open. -/
theorem World.step_ofRelay {w : World κ} (hopen : w.page.closed = false) (m : Relay.Move κ) :
    (w.step (.ofRelay m)).page.closed = false ∧
      (w.step (.ofRelay m)).atRelay = w.atRelay.step m := by
  cases m with
  | deliver b =>
    rw [Move.ofRelay, step, contribute_of_open hopen]
    exact ⟨hopen, rfl⟩
  | attach c =>
    rw [Move.ofRelay, step, attach_of_open hopen]
    exact ⟨hopen, rfl⟩
  | close => exact ⟨hopen, rfl⟩
  | finish failed =>
    rcases hcalls : w.calls with _ | ⟨call, calls⟩
    · simp only [Move.ofRelay, step, Relay.World.step, atRelay, hcalls]
      exact ⟨hopen, trivial⟩
    · simp only [Move.ofRelay, step, Relay.World.step, atRelay, hcalls]
      exact ⟨hopen, rfl⟩

/-- Every run of a relay is what is seen, from the relay, of a run of a page. -/
theorem World.atRelay_ofRelay (moves : List (Relay.Move κ)) :
    (after (moves.map .ofRelay)).atRelay = Relay.World.after moves := by
  suffices h : (after (moves.map .ofRelay)).page.closed = false ∧
      (after (moves.map .ofRelay)).atRelay = Relay.World.after moves from h.2
  induction moves using List.reverseRecOn with
  | nil => exact ⟨rfl, rfl⟩
  | append_singleton moves m ih =>
    obtain ⟨hopen, hrelay⟩ := ih
    rw [List.map_append, after, Relay.World.after, List.foldl_append, List.foldl_append]
    obtain ⟨hopen', hstep⟩ := World.step_ofRelay hopen m
    exact ⟨hopen', hstep.trans (congrArg (·.step m) hrelay)⟩

/-- The relay of a page is as good in every run as it is on its own. -/
theorem World.good_after (moves : List (Move κ)) : (after moves).atRelay.Good := by
  obtain ⟨moves', h⟩ := atRelay_after moves
  rw [h]
  exact Relay.World.good_after moves'

/-! ### Closed pages -/

/-- A closed page without anything in it. -/
structure Inert (p : Page κ) : Prop where
  closed : p.closed = true
  table : p.table = .empty
  backlog : p.relay.backlog = []
  alone : p.relay.consumer = none
  uncounted : p.relay.delivered = 0

section Inert

variable {p : Page κ}

theorem Inert.contribute (h : p.Inert) (b : Batch) : p.contribute b = .error .contributionRefused :=
  if_pos h.closed

theorem Inert.attach (h : p.Inert) (c : κ) : p.attach c = .error .attachmentRefused :=
  if_pos h.closed

/-- Starting over counts as a change, and changes nothing else. -/
theorem Inert.reset_eq (h : p.Inert) : p.reset = { p with revision := p.revision + 1 } := by
  obtain ⟨table, revision, ⟨consumer, backlog, flushing, delivered⟩, closed⟩ := p
  obtain ⟨-, rfl, rfl, rfl, rfl⟩ := h
  rfl

/-- The end of a call starts no other. -/
theorem Inert.finish (h : p.Inert) (call : Call κ) :
    (p.finish call).1.Inert ∧ (p.finish call).2 = none := by
  obtain ⟨flushing, hrelay⟩ := Relay.finish_alone h.alone call
  rw [Page.finish, hrelay]
  exact ⟨⟨h.closed, h.table, h.backlog, h.alone, h.uncounted⟩, rfl⟩

theorem inert_close (hopen : ¬ p.closed = true) : p.close.Inert := by
  rw [Page.close, if_neg hopen]
  exact ⟨rfl, rfl, rfl, rfl, rfl⟩

end Inert

/-- A page that is closed is inert. -/
def World.Shut (w : World κ) : Prop := w.page.closed = true → w.page.Inert

theorem World.shut_step {w : World κ} (hw : w.Shut) (m : Move κ) : (w.step m).Shut := by
  cases m with
  | contribute b =>
    simp only [step]
    split
    · rename_i moved h
      obtain ⟨hopen, rfl⟩ := contribute_ok h
      intro hclosed
      exact absurd (hopen.symm.trans hclosed) (by simp)
    · exact hw
  | attach c =>
    simp only [step]
    split
    · rename_i moved h
      obtain ⟨hopen, rfl⟩ := attach_ok h
      intro hclosed
      exact absurd (hopen.symm.trans hclosed) (by simp)
    · exact hw
  | reset => exact fun hclosed => ⟨hclosed, rfl, rfl, rfl, rfl⟩
  | close =>
    simp only [step]
    split
    · exact hw
    · rename_i hopen
      exact fun _ => inert_close hopen
  | finish failed =>
    simp only [step]
    split
    · exact hw
    · rename_i call calls _
      intro hclosed
      exact ((hw hclosed).finish call).1

theorem World.shut_after (moves : List (Move κ)) : (after moves).Shut := by
  induction moves using List.reverseRecOn with
  | nil => exact fun hclosed => absurd hclosed (by simp [after])
  | append_singleton moves m ih =>
    rw [after, List.foldl_append]
    exact shut_step ih m

/-! ### The table -/

/-- The table holds what was contributed since the page was last cleared, and nothing else. -/
def World.Recorded (w : World κ) : Prop := w.page.table = Table.ofBatches (offered w.history)

/-- What happens apart from contributions and clearings leaves the table as it is. -/
theorem World.recorded_proceed {w : World κ} (hw : w.Recorded) {e : Event κ}
    {calls : List (Call κ)} {moved : Page κ × Option (Call κ)} (he : e.clears = false)
    (ho : e.offered? = none) (ht : moved.1.table = w.page.table) :
    ({ w with calls }.proceed e moved).Recorded := by
  have h : offered ({ w with calls }.proceed e moved).history = offered w.history := by
    have hr := Relay.World.offered_proceed w.atRelay (moved.1.relay, moved.2) he
    rw [ho] at hr
    exact hr.trans (List.append_nil _)
  rw [Recorded, h]
  exact ht.trans hw

/-- A page that is cleared starts over in its table and in what happened. -/
theorem World.recorded_cleared {w : World κ} {p : Page κ} (ht : p.table = .empty) :
    (w.proceed .cleared (p, none)).Recorded := by
  have h : offered (w.proceed .cleared (p, none)).history = [] := Relay.offered_cleared
  rw [Recorded, h]
  exact ht

/-- Every move keeps the table in step with the contributions. -/
theorem World.recorded_step {w : World κ} (hw : w.Recorded) (m : Move κ) : (w.step m).Recorded := by
  cases m with
  | contribute b =>
    simp only [step]
    split
    · rename_i moved h
      obtain ⟨-, rfl⟩ := contribute_ok h
      have ho : offered (w.proceed (.offered b) (w.page.accept b)).history =
          offered w.history ++ [b] :=
        Relay.World.offered_proceed w.atRelay ((w.page.accept b).1.relay, (w.page.accept b).2) rfl
      rw [Recorded, ho, Table.ofBatches_concat, ← hw]
      rfl
    · exact hw
  | attach c =>
    simp only [step]
    split
    · rename_i moved h
      obtain ⟨-, rfl⟩ := attach_ok h
      exact recorded_proceed hw rfl rfl rfl
    · exact hw
  | reset => exact recorded_cleared rfl
  | close =>
    simp only [step]
    split
    · exact hw
    · rename_i hc
      refine recorded_cleared ?_
      rw [Page.close, if_neg hc]
      rfl
  | finish failed =>
    simp only [step]
    split
    · exact hw
    · exact recorded_proceed hw rfl rfl rfl

theorem World.recorded_after (moves : List (Move κ)) : (after moves).Recorded := by
  induction moves using List.reverseRecOn with
  | nil => rfl
  | append_singleton moves m ih =>
    rw [after, List.foldl_append]
    exact recorded_step ih m

/-- At every moment of every run, the table is that of the batches that calls were started with
    since the page was last cleared, in that order, and then those of the backlog. So at the start
    of a call its batch is in the table: its traits are listed, and what it has for a trait stands
    there as one piece. -/
theorem table_follows_calls (moves : List (Move κ)) :
    (World.after moves).page.table =
        Table.ofBatches
          (started (World.after moves).history ++ (World.after moves).page.relay.backlog) ∧
      ∀ before call, (World.after moves).history = before ++ [.called call] → ∀ trait,
        (trait ∈ call.batch.traits → trait ∈ (World.after moves).page.table.traits) ∧
          call.batch.get trait <:+: (World.after moves).page.table.get trait := by
  have htable : (World.after moves).page.table =
      Table.ofBatches
        (started (World.after moves).history ++ (World.after moves).page.relay.backlog) := by
    rw [World.recorded_after moves]
    exact congrArg Table.ofBatches (World.good_after moves).handed.symm
  refine ⟨htable, ?_⟩
  intro before call hcall trait
  have hmem : call.batch ∈
      started (World.after moves).history ++ (World.after moves).page.relay.backlog := by
    rw [hcall, Relay.started_concat rfl]
    simp [Event.started?]
  rw [htable]
  refine ⟨fun ht => ?_, Table.get_infix_ofBatches hmem trait⟩
  exact (Table.mem_traits_ofBatches _ trait).2 ⟨call.batch, hmem, ht⟩

end TraitIndex.Page
