import Mathlib.Data.List.DropRight
import TraitIndex.Proofs.PageRun
import TraitIndex.Proofs.Polling

/-! Runs of a served page.

    Contributions, requests and polls follow one another in any order. A world holds the service,
    the latest number that each poller was told, and the history of what happened: batches that
    came, new starts, and what pollers were told. Pollers are told apart by numbers. -/

namespace TraitIndex.Api

/-- What can be done next. -/
inductive Move where
  /-- A batch is contributed to the page past its server. -/
  | contribute (v : Value)
  | request (r : Request)
  | poll (poller : Nat)

/-- What happens in a run. -/
inductive Event where
  | contributed (b : Batch)
  /-- Page and feed start over. -/
  | cleared
  | told (poller : Nat) (ds : List Delivery)

/-- What a request makes happen. -/
def Plan.events : Plan → List Event
  | .contribute b _ => [.contributed b]
  | .reset => [.cleared]
  | _ => []

/-- A service with its pollers, and what happened so far, in order. -/
structure World where
  service : Service := {}
  /-- The latest number that a poller was told, zero before its first poll. -/
  seen : Nat → Nat := fun _ => 0
  history : List Event := []

namespace World

/-- A poller has asked: nothing is told where nothing can be read. -/
def tell (w : World) (p : Nat) : Service × Option (Nat × List Delivery) → World
  | (service, none) => { w with service }
  | (service, some (latest, ds)) =>
    { service
      seen := fun q => if q = p then latest else w.seen q
      history := w.history ++ [.told p ds] }

/-- A move is made. -/
def step (w : World) : Move → World
  | .contribute v =>
    match (Intake.batch v).result with
    | .error _ => w
    | .ok b =>
      match w.service.page.contribute b with
      | .error _ => w
      | .ok (page, call) =>
        { w with
          service := Service.settle w.service.feed page call
          history := w.history ++ [.contributed b] }
  | .request r =>
    { w with
      service := (w.service.answer r).1
      history := w.history ++ (w.service.planned r).events }
  | .poll p => w.tell p (w.service.poll (w.seen p))

/-- The world after moves made on a new page. -/
def after (moves : List Move) : World := moves.foldl step {}

end World

/-! ### What a history tells -/

namespace Event

/-- The event is a new start. -/
def clears : Event → Bool
  | .cleared => true
  | _ => false

/-- The batch that came. -/
def contributed? : Event → Option Batch
  | .contributed b => some b
  | _ => none

/-- What a poller was told. -/
def toldTo (poller : Nat) : Event → List Delivery
  | .told q ds => if q = poller then ds else []
  | _ => []

end Event

/-- The batches that came, in order. -/
def contributed (h : List Event) : List Batch := h.filterMap Event.contributed?

/-- What a poller was told, in order. -/
def told (poller : Nat) (h : List Event) : List Delivery := h.flatMap (Event.toldTo poller)

/-- What happened since the last new start. -/
def sinceCleared (h : List Event) : List Event := h.rtakeWhile fun e => !e.clears

/-- What happened up to the last new start. -/
def untilCleared (h : List Event) : List Event := h.rdropWhile fun e => !e.clears

section History

variable {h : List Event} {e : Event} {p : Nat}

theorem untilCleared_append_sinceCleared (h : List Event) : untilCleared h ++ sinceCleared h = h :=
  List.rdropWhile_append_rtakeWhile

theorem sinceCleared_concat (he : e.clears = false) :
    sinceCleared (h ++ [e]) = sinceCleared h ++ [e] := by
  rw [sinceCleared, List.rtakeWhile_concat_pos _ _ _ (by simp [he])]
  rfl

theorem untilCleared_concat (he : e.clears = false) :
    untilCleared (h ++ [e]) = untilCleared h := by
  rw [untilCleared, List.rdropWhile_concat_pos _ _ _ (by simp [he])]
  rfl

theorem sinceCleared_cleared : sinceCleared (h ++ [.cleared]) = [] := by
  rw [sinceCleared, List.rtakeWhile_concat_neg _ _ _ (by simp [Event.clears])]

theorem untilCleared_cleared : untilCleared (h ++ [.cleared]) = h ++ [.cleared] := by
  rw [untilCleared, List.rdropWhile_concat_neg _ _ _ (by simp [Event.clears])]

theorem contributed_concat : contributed (h ++ [e]) = contributed h ++ e.contributed?.toList := by
  rw [contributed, List.filterMap_append]
  cases e <;> rfl

theorem told_concat : told p (h ++ [e]) = told p h ++ e.toldTo p := by
  rw [told, List.flatMap_append, List.flatMap_singleton]
  rfl

theorem contributed_split (h : List Event) :
    contributed h = contributed (untilCleared h) ++ contributed (sinceCleared h) := by
  rw [contributed, contributed, contributed, ← List.filterMap_append,
    untilCleared_append_sinceCleared]

theorem told_split (p : Nat) (h : List Event) :
    told p h = told p (untilCleared h) ++ told p (sinceCleared h) := by
  rw [told, told, told, ← List.flatMap_append, untilCleared_append_sinceCleared]

end History

/-! ### What every run keeps -/

namespace World

/-- What holds of every world. -/
structure Good (w : World) : Prop where
  keeps : w.service.Keeps (contributed (sinceCleared w.history))
  seen_le : ∀ p, w.seen p ≤ w.service.feed.latest
  told_since : ∀ p, told p (sinceCleared w.history) =
    w.service.feed.deliveries.filter fun d => decide (d.seq ≤ w.seen p)
  rising : ∀ p, (told p w.history).Pairwise (·.seq < ·.seq)
  bounded : ∀ p, ∀ d ∈ told p w.history, d.seq ≤ w.seen p
  whole : ∀ p, ∀ d ∈ told p w.history, d.batch.toJson.isWhole = true
  in_order : ∀ p, ((told p (untilCleared w.history)).map Delivery.batch).Sublist
    (contributed (untilCleared w.history))

/-- What a poller was told, it was told in the order in which it came. -/
theorem Good.told_sublist {w : World} (h : w.Good) (p : Nat) :
    ((told p w.history).map Delivery.batch).Sublist (contributed w.history) := by
  rw [told_split, List.map_append, contributed_split]
  refine (h.in_order p).append ?_
  have hkept : w.service.feed.batches.Sublist (contributed (sinceCleared w.history)) := by
    rw [← h.keeps.kept]
    exact List.sublist_append_left _ _
  rw [h.told_since p]
  exact (List.filter_sublist.map _).trans hkept

/-- A poller who has seen the latest number was told all that came, unless some of it waits. -/
theorem Good.told_all {w : World} (h : w.Good) {p : Nat}
    (hseen : w.seen p = w.service.feed.latest) (hbacklog : w.service.page.relay.backlog = []) :
    (told p (sinceCleared w.history)).map Delivery.batch =
      contributed (sinceCleared w.history) := by
  have hall : told p (sinceCleared w.history) = w.service.feed.deliveries := by
    rw [h.told_since p, hseen]
    exact List.filter_eq_self.2 fun d hd => decide_eq_true (h.keeps.ordered.bounded d hd)
  rw [hall, ← h.keeps.kept, hbacklog, List.append_nil]
  rfl

theorem good_new : ({} : World).Good where
  keeps := Service.keeps_new
  seen_le _ := Nat.le_refl _
  told_since _ := rfl
  rising _ := List.Pairwise.nil
  bounded _ _ hd := absurd hd List.not_mem_nil
  whole _ _ hd := absurd hd List.not_mem_nil
  in_order _ := List.Sublist.refl _

variable {w : World}

/-- The feed goes on, pollers are told nothing and nothing starts over. -/
theorem Good.later (h : w.Good) {service : Service} {history : List Event}
    (hkeeps : service.Keeps (contributed (sinceCleared history)))
    (hextends : w.service.feed.Extends service.feed)
    (huntil : untilCleared history = untilCleared w.history)
    (htold : ∀ p, told p (sinceCleared history) = told p (sinceCleared w.history)) :
    ({ w with service, history } : World).Good := by
  have hall : ∀ p, told p history = told p w.history := fun p => by
    rw [told_split, huntil, htold, ← told_split]
  exact {
    keeps := hkeeps
    seen_le := fun p => Nat.le_trans (h.seen_le p) hextends.latest
    told_since := fun p => by
      rw [htold, h.told_since p, hextends.filter_le (h.seen_le p)]
    rising := fun p => by
      rw [hall]
      exact h.rising p
    bounded := fun p => by
      rw [hall]
      exact h.bounded p
    whole := fun p => by
      rw [hall]
      exact h.whole p
    in_order := fun p => by
      rw [huntil]
      exact h.in_order p }

theorem Good.accept (h : w.Good) (b : Batch) :
    ({ w with service := w.service.accept b, history := w.history ++ [.contributed b] } :
      World).Good := by
  refine h.later ?_ (h.keeps.extends_accept b) (untilCleared_concat rfl) fun p => ?_
  · rw [sinceCleared_concat rfl, contributed_concat]
    exact h.keeps.accept b
  · rw [sinceCleared_concat rfl, told_concat]
    exact List.append_nil _

theorem Good.attach (h : w.Good) : ({ w with service := w.service.attach } : World).Good :=
  h.later h.keeps.attach h.keeps.extends_attach rfl fun _ => rfl

theorem Good.listening (h : w.Good) : ({ w with service := w.service.listening } : World).Good :=
  h.later h.keeps.listening h.keeps.extends_listening rfl fun _ => rfl

theorem Good.clear (h : w.Good) :
    ({ w with service := w.service.clear, history := w.history ++ [.cleared] } : World).Good := by
  have hall : ∀ p, told p (w.history ++ [.cleared]) = told p w.history := fun p => by
    rw [told_concat]
    exact List.append_nil _
  exact {
    keeps := by
      rw [sinceCleared_cleared]
      exact h.keeps.clear
    seen_le := h.seen_le
    told_since := fun p => by
      rw [sinceCleared_cleared]
      rfl
    rising := fun p => by
      rw [hall]
      exact h.rising p
    bounded := fun p => by
      rw [hall]
      exact h.bounded p
    whole := fun p => by
      rw [hall]
      exact h.whole p
    in_order := fun p => by
      rw [untilCleared_cleared, hall, contributed_concat]
      exact (h.told_sublist p).trans (List.sublist_append_left _ _) }

/-- A poller is told what came after the number it has seen, and what is the latest. -/
theorem Good.tell (h : w.Good) {p : Nat} (hwhole : tellable w.service.feed (w.seen p) = true) :
    ({ w with
        seen := fun q => if q = p then w.service.feed.latest else w.seen q
        history := w.history ++ [.told p (w.service.feed.since (w.seen p))] } : World).Good := by
  have hordered := h.keeps.ordered
  have hsame : ∀ q, q ≠ p → ∀ history,
      told q (history ++ [.told p (w.service.feed.since (w.seen p))]) = told q history := by
    intro q hq history
    rw [told_concat, Event.toldTo, if_neg (Ne.symm hq), List.append_nil]
  have hmore : ∀ history, told p (history ++ [.told p (w.service.feed.since (w.seen p))]) =
      told p history ++ w.service.feed.since (w.seen p) := by
    intro history
    rw [told_concat, Event.toldTo, if_pos rfl]
  exact {
    keeps := by
      rw [sinceCleared_concat rfl, contributed_concat]
      exact (List.append_nil (contributed (sinceCleared w.history))).symm ▸ h.keeps
    seen_le := fun q => by
      by_cases hq : q = p
      · simp only [hq, if_true, Nat.le_refl]
      · simp only [hq, if_false]
        exact h.seen_le q
    told_since := fun q => by
      rw [sinceCleared_concat rfl]
      by_cases hq : q = p
      · subst hq
        rw [hmore, h.told_since q, hordered.filter_le_append_since]
        simp only [if_true]
        exact (List.filter_eq_self.2 fun d hd => decide_eq_true (hordered.bounded d hd)).symm
      · rw [hsame q hq, h.told_since q]
        simp only [hq, if_false]
    rising := fun q => by
      by_cases hq : q = p
      · subst hq
        rw [hmore]
        refine List.pairwise_append.2 ⟨h.rising q, hordered.rising.filter _, ?_⟩
        intro d hd e he
        have hafter := of_decide_eq_true (List.mem_filter.1 he).2
        have hbefore := h.bounded q d hd
        omega
      · rw [hsame q hq]
        exact h.rising q
    bounded := fun q d hd => by
      by_cases hq : q = p
      · subst hq
        simp only [if_true]
        rw [hmore] at hd
        rcases List.mem_append.1 hd with hd | hd
        · exact Nat.le_trans (h.bounded q d hd) (h.seen_le q)
        · exact hordered.bounded d (List.mem_filter.1 hd).1
      · simp only [hq, if_false]
        rw [hsame q hq] at hd
        exact h.bounded q d hd
    whole := fun q d hd => by
      by_cases hq : q = p
      · subst hq
        rw [hmore] at hd
        rcases List.mem_append.1 hd with hd | hd
        · exact h.whole q d hd
        · exact List.all_eq_true.1 hwhole d hd
      · rw [hsame q hq] at hd
        exact h.whole q d hd
    in_order := fun q => by
      rw [untilCleared_concat rfl]
      exact h.in_order q }

/-! ### Steps and runs -/

theorem step_contribute (w : World) (v : Value) :
    w.step (.contribute v) = w ∨ ∃ b, w.step (.contribute v) =
      { w with service := w.service.accept b, history := w.history ++ [.contributed b] } := by
  rw [step]
  split
  · exact .inl rfl
  · rename_i b _
    split
    · exact .inl rfl
    · rename_i page call hmoved
      obtain ⟨-, h⟩ := Page.contribute_ok hmoved
      obtain ⟨rfl, rfl⟩ := Prod.mk.inj h
      exact .inr ⟨b, rfl⟩

theorem tell_service (w : World) (p : Nat) (polled : Service × Option (Nat × List Delivery)) :
    (w.tell p polled).service = polled.1 := by
  rcases polled with ⟨service, _ | _⟩ <;> rfl

theorem latest_le_step (w : World) (m : Move) :
    w.service.feed.latest ≤ (w.step m).service.feed.latest := by
  cases m with
  | contribute v =>
    obtain h | ⟨b, h⟩ := w.step_contribute v
    · rw [h]
    · rw [h]
      exact Service.latest_settle _ _ _
  | request r => exact w.service.latest_answer r
  | poll p =>
    rw [step, tell_service]
    exact w.service.latest_poll (w.seen p)

/-- A poll is answered while the latest number can be written and what is to be told can be
    sent. -/
theorem Good.step_poll (h : w.Good) {p : Nat}
    (hlatest : Integer.isWritable (w.step (.poll p)).service.feed.latest = true)
    (hwhole : tellable w.service.listening.feed (w.seen p) = true) :
    w.step (.poll p) =
      { service := w.service.listening
        seen := fun q => if q = p then w.service.listening.feed.latest else w.seen q
        history := w.history ++ [.told p (w.service.listening.feed.since (w.seen p))] } := by
  rw [step, tell_service] at hlatest
  rw [step, h.keeps.poll_eq (h.seen_le p) hlatest, if_pos hwhole]
  rfl

/-- A poll that cannot be answered attaches the feed and tells nothing. -/
theorem Good.step_poll_half (h : w.Good) {p : Nat}
    (hlatest : Integer.isWritable (w.step (.poll p)).service.feed.latest = true)
    (hhalf : tellable w.service.listening.feed (w.seen p) = false) :
    w.step (.poll p) = { w with service := w.service.listening } := by
  rw [step, tell_service] at hlatest
  rw [step, h.keeps.poll_eq (h.seen_le p) hlatest, hhalf]
  rfl

/-- Answered or not, a poll attaches the feed, and that is all it does to the service. -/
theorem Good.service_step_poll (h : w.Good) {p : Nat}
    (hlatest : Integer.isWritable (w.step (.poll p)).service.feed.latest = true) :
    (w.step (.poll p)).service = w.service.listening := by
  cases hwhole : tellable w.service.listening.feed (w.seen p) with
  | true => rw [h.step_poll hlatest hwhole]
  | false => rw [h.step_poll_half hlatest hwhole]

/-- What a poller was told since the last new start makes a table that can be sent, for it could be
    sent piece by piece. -/
theorem Good.current_whole (h : w.Good) (p : Nat) :
    (Table.ofBatches ((told p (sinceCleared w.history)).map Delivery.batch)).toJson.isWhole =
      true := by
  refine Json.isWhole_ofBatches fun b hb => ?_
  obtain ⟨d, hd, rfl⟩ := List.mem_map.1 hb
  refine h.whole p d ?_
  rw [told_split]
  exact List.mem_append_right _ hd

theorem good_step (h : w.Good) (m : Move)
    (hlatest : Integer.isWritable (w.step m).service.feed.latest = true) : (w.step m).Good := by
  cases m with
  | contribute v =>
    obtain hstep | ⟨b, hstep⟩ := w.step_contribute v
    · rw [hstep]
      exact h
    · rw [hstep]
      exact h.accept b
  | request r =>
    rw [step, Service.answer_fst]
    cases w.service.planned r with
    | answer response =>
      simp only [Service.after, Plan.events, List.append_nil]
      exact h
    | contribute b receipt => exact h.accept b
    | poll since =>
      simp only [Service.after, Plan.events, List.append_nil]
      exact h.attach
    | reset => exact h.clear
  | poll p =>
    cases hwhole : tellable w.service.listening.feed (w.seen p) with
    | true =>
      rw [h.step_poll hlatest hwhole]
      exact h.listening.tell hwhole
    | false =>
      rw [h.step_poll_half hlatest hwhole]
      exact h.listening

theorem after_concat (moves : List Move) (m : Move) : after (moves ++ [m]) = (after moves).step m :=
  List.foldl_concat step {} m moves

theorem good_after {moves : List Move}
    (hlatest : Integer.isWritable (after moves).service.feed.latest = true) :
    (after moves).Good := by
  induction moves using List.reverseRecOn with
  | nil => exact good_new
  | append_singleton moves m ih =>
    rw [after_concat] at hlatest ⊢
    have hle := (after moves).latest_le_step m
    exact good_step (ih (Integer.isWritable_mono hle hlatest)) m hlatest

end World

/-! ### The table that is read -/

theorem rowsToJson_filter_eq {rows : List (Text × List Implementor)}
    {shown : Text × List Implementor → Bool} :
    Table.rowsToJson (rows.filter shown) = Table.rowsToJson rows ↔
      ∀ row ∈ rows, shown row = true := by
  constructor
  · intro h
    have hlength := congrArg List.length (Json.object.inj h)
    rw [List.length_map, List.length_map] at hlength
    exact List.length_filter_eq_length_iff.1 hlength
  · intro h
    rw [List.filter_eq_self.2 h]

theorem filterRows_keeps_none (t : Table) : t.filterRows (keeps none) = t.rows := by
  rw [Table.filterRows]
  simp only [filter_keeps_none]
  exact List.map_id' t.rows

/-- A table without halves of pairs is read as it is exactly when every trait is shown there. -/
theorem implementors_whole {κ : Type} {page : Page κ} {r : Request}
    (hflag : filter? r = .ok none) (htrait : r.parameter? "trait" = none)
    (hwhole : page.table.toJson.isWhole = true) :
    implementors page r = ⟨200, .document page.table.toJson⟩ ↔
      ∀ trait ∈ page.table.traits, isListed trait = true := by
  have hanswer : implementors page r = .success
      (Table.rowsToJson (page.table.rows.filter fun row => isListed row.1)) := by
    simp only [implementors, hflag, htrait, filterRows_keeps_none]
  rw [hanswer, Response.success, Response.giving_eq_iff, Table.toJson]
  constructor
  · rintro ⟨-, hsame, -⟩
    rw [Table.traits, List.forall_mem_map]
    exact rowsToJson_filter_eq.1 hsame
  · intro hlisted
    rw [Table.traits, List.forall_mem_map] at hlisted
    have hsame := rowsToJson_filter_eq.2 hlisted
    exact ⟨rfl, hsame, hsame ▸ hwhole⟩

/-- A new page to which a trait with its records came. -/
def withTrait (trait : Text) (records : List Implementor) : World :=
  { service :=
      { page :=
          { table := .single trait records
            revision := 1
            relay := { backlog := [.single trait records] } } }
    history := [.contributed (.single trait records)] }

section WithTrait

variable {v : Value} {trait : Text} {records : List Implementor}

theorem World.after_trait (hv : (Intake.batch v).result = .ok (.single trait records)) :
    World.after [.contribute v] = withTrait trait records := by
  have haccept : World.after [.contribute v] =
      { service := ({} : Service).accept (.single trait records)
        history := [.contributed (.single trait records)] } := by
    rw [World.after, List.foldl_cons, World.step, hv]
    rfl
  rw [haccept, Service.accept_waiting rfl]
  rfl

theorem good_withTrait (trait : Text) (records : List Implementor) :
    (withTrait trait records).Good := by
  have haccept : withTrait trait records =
      { service := ({} : Service).accept (.single trait records)
        history := [.contributed (.single trait records)] } := by
    rw [Service.accept_waiting rfl]
    rfl
  rw [haccept]
  exact World.good_new.accept _

/-- The feed attaches when a poller asks, and the numbers can be written. -/
theorem listening_withTrait (trait : Text) (records : List Implementor) :
    Integer.isWritable ((withTrait trait records).step (.poll 0)).service.feed.latest = true ∧
      ∃ delivered, (withTrait trait records).service.listening =
        { page :=
            { table := .single trait records
              revision := 1
              relay := { consumer := some (), delivered } }
          feed := ({} : Feed).record (.single trait records) } := by
  have hgood := good_withTrait trait records
  have hzero : Integer.isWritable ((withTrait trait records).seen 0) = true :=
    Integer.isWritable_digit (n := 0) (by decide)
  have hlistening : (withTrait trait records).service.listening =
      (withTrait trait records).service.attach := rfl
  obtain ⟨delivered, hattach⟩ := Service.attach_eq hgood.keeps.idle
  have hservice : ((withTrait trait records).step (.poll 0)).service =
      (withTrait trait records).service.listening := by
    rw [World.step, World.tell_service, Service.poll_fst _ _ (Service.request_getDeliveries hzero),
      Service.answer_pollRequest hgood.keeps.opened hzero]
  rw [hlistening, hattach] at hservice
  refine ⟨?_, delivered, hlistening.trans hattach⟩
  rw [hservice]
  exact Integer.isWritable_digit (n := 1) (by decide)

theorem tellable_single (trait : Text) (records : List Implementor) :
    tellable (({} : Feed).record (.single trait records)) 0 =
      (Table.single trait records).toJson.isWhole := Bool.and_true _

/-- A trait comes and a poller asks for the first time. -/
theorem World.after_trait_and_poll (hv : (Intake.batch v).result = .ok (.single trait records))
    (hwhole : (Table.single trait records).toJson.isWhole = true) :
    ∃ delivered,
      World.after ([.contribute v] ++ [.poll 0]) =
        { service :=
            { page :=
                { table := .single trait records
                  revision := 1
                  relay := { consumer := some (), delivered } }
              feed := ({} : Feed).record (.single trait records) }
          seen := fun q => if q = 0 then 1 else 0
          history := [.contributed (.single trait records),
            .told 0 [⟨1, .single trait records⟩]] } := by
  obtain ⟨hlatest, delivered, hlistening⟩ := listening_withTrait trait records
  have htellable : tellable (withTrait trait records).service.listening.feed
      ((withTrait trait records).seen 0) = true := by
    rw [hlistening]
    exact (tellable_single trait records).trans hwhole
  refine ⟨delivered, ?_⟩
  rw [World.after_concat, World.after_trait hv,
    (good_withTrait trait records).step_poll hlatest htellable, hlistening]
  rfl

end WithTrait

/-- Over whatever run that ends with a poll: the numbers that the poller was told rise, over every
    new start, and their batches came in this order. The poll is answered exactly if no batch that
    came since the last number it was told has half of a pair; else all it does is to attach the
    feed. Where it is answered, what the poller was told since the last new start is all that came
    since. So, merged batch after batch, it is the table of the page, and it is what a request for
    all implementors is answered with if and only if every trait is shown there. -/
theorem pollers_follow_the_page (moves : List Move) (p : Nat)
    (hlatest : Integer.isWritable (World.after (moves ++ [.poll p])).service.feed.latest = true) :
    let before := World.after moves
    let w := World.after (moves ++ [.poll p])
    let current := (told p (sinceCleared w.history)).map Delivery.batch
    ((told p w.history).map Delivery.seq).Pairwise (· < ·) ∧
    ((told p w.history).map Delivery.batch).Sublist (contributed w.history) ∧
    (tellable w.service.feed (before.seen p) = false →
      w = { before with service := before.service.listening }) ∧
    (tellable w.service.feed (before.seen p) = true →
      w.history = before.history ++ [.told p (w.service.feed.since (before.seen p))] ∧
      current = contributed (sinceCleared w.history) ∧
      Table.ofBatches current = w.service.page.table ∧
      ∀ r, Route.find r = .ok .implementors → filter? r = .ok none →
        r.parameter? "trait" = none →
        ((w.service.answer r).2.1 = ⟨200, .document (Table.ofBatches current).toJson⟩ ↔
          ∀ trait ∈ w.service.page.table.traits, isListed trait = true)) := by
  intro before w current
  have hw : w = before.step (.poll p) := World.after_concat moves (.poll p)
  have hlatest' : Integer.isWritable (before.step (.poll p)).service.feed.latest = true :=
    hw ▸ hlatest
  have hle := before.latest_le_step (.poll p)
  have hbefore : before.Good := World.good_after (Integer.isWritable_mono hle hlatest')
  have hgood : w.Good := hw ▸ World.good_step hbefore (.poll p) hlatest'
  have hservice : w.service = before.service.listening := by
    rw [hw]
    exact hbefore.service_step_poll hlatest'
  refine ⟨List.pairwise_map.2 (hgood.rising p), hgood.told_sublist p, fun hhalf => ?_,
    fun hwhole => ?_⟩
  · rw [hservice] at hhalf
    exact hw.trans (hbefore.step_poll_half hlatest' hhalf)
  have hpolled : w = _ := hw.trans (hbefore.step_poll hlatest' (hservice ▸ hwhole))
  have hcurrent : current = contributed (sinceCleared w.history) := by
    refine hgood.told_all ?_ ?_
    · rw [hpolled]
      exact if_pos rfl
    · rw [hservice]
      exact hbefore.keeps.backlog_listening
  have htable : Table.ofBatches current = w.service.page.table := by
    rw [hcurrent, hgood.keeps.table]
  have hcurrentWhole : (Table.ofBatches current).toJson.isWhole = true := hgood.current_whole p
  refine ⟨?_, hcurrent, htable, fun r hfind hflag htrait => ?_⟩
  · rw [hservice, hpolled]
  · rw [htable, Service.answer_of_answer (plan_implementors hfind)]
    exact implementors_whole hflag htrait (htable ▸ hcurrentWhole)

/-- A trait without implementors comes, is told, and is all there is to read. One with a signature
    that has half of a pair comes and is not told. -/
theorem pollers_follow_the_page_once :
    (let w := World.after ([.contribute (.map [(.text "Clone", .list [])])] ++ [.poll 0])
     told 0 w.history = [⟨1, .single "Clone" []⟩] ∧
      (w.service.answer (implementorsRequest [])).2.1 =
        ⟨200, .document
          (Table.ofBatches ((told 0 (sinceCleared w.history)).map Delivery.batch)).toJson⟩) ∧
    let half : Value := .map [(.text "displayText", .text (.ofList [.half 0]))]
    let w := World.after ([.contribute (.map [(.text "Clone", .list [half])])] ++ [.poll 0])
    told 0 w.history = [] ∧ w.service.feed.latest = 1 := by
  constructor
  · have hbatch : (Intake.batch (.map [(.text "Clone", .list [])])).result =
        .ok (.single "Clone" []) := rfl
    obtain ⟨delivered, hw⟩ := World.after_trait_and_poll hbatch rfl
    have hlatest : Integer.isWritable (World.after
        ([.contribute (.map [(.text "Clone", .list [])])] ++ [.poll 0])).service.feed.latest =
        true := by
      rw [hw]
      exact Integer.isWritable_digit (n := 1) (by decide)
    obtain ⟨-, -, -, hanswered⟩ := pollers_follow_the_page _ 0 hlatest
    have htellable : tellable (({} : Feed).record (.single "Clone" [])) 0 = true := rfl
    obtain ⟨-, -, -, hread⟩ := hanswered (by rw [hw]; exact htellable)
    refine ⟨by rw [hw]; rfl, (hread (implementorsRequest []) rfl rfl rfl).2 ?_⟩
    rw [hw]
    show ∀ trait ∈ [("Clone" : Text)], isListed trait = true
    decide
  · intro half w
    let record : Implementor := { displayText := .ofList [.half 0] }
    have hbatch : (Intake.batch (.map [(.text "Clone", .list [half])])).result =
        .ok (.single "Clone" [record]) := rfl
    obtain ⟨hlatest, delivered, hlistening⟩ := listening_withTrait "Clone" [record]
    have hafter := World.after_concat [.contribute (.map [(.text "Clone", .list [half])])] (.poll 0)
    rw [World.after_trait hbatch] at hafter
    obtain ⟨-, -, hunanswered, -⟩ := pollers_follow_the_page
      [.contribute (.map [(.text "Clone", .list [half])])] 0 (by rw [hafter]; exact hlatest)
    have hhalf : tellable (({} : Feed).record (.single "Clone" [record])) 0 = false := rfl
    have hstep := (good_withTrait "Clone" [record]).step_poll_half hlatest
      (by rw [hlistening]; exact hhalf)
    rw [show w = _ from hunanswered (by rw [hafter, hstep, hlistening]; exact hhalf),
      World.after_trait hbatch, hlistening]
    exact ⟨rfl, rfl⟩

/-- A trait whose name starts with `_sa` comes and is told, and is not to be read. -/
theorem told_trait_not_read :
    let w := World.after ([.contribute (.map [(.text "_sa", .list [])])] ++ [.poll 0])
    told 0 (sinceCleared w.history) = [⟨1, .single "_sa" []⟩] ∧
      (w.service.answer (implementorsRequest [])).2.1 = ⟨200, .document (.object [])⟩ ∧
      (Table.ofBatches ((told 0 (sinceCleared w.history)).map Delivery.batch)).toJson ≠
        .object [] := by
  have hbatch : (Intake.batch (.map [(.text "_sa", .list [])])).result = .ok (.single "_sa" []) := rfl
  obtain ⟨delivered, hw⟩ := World.after_trait_and_poll hbatch rfl
  intro w
  have htold : told 0 (sinceCleared w.history) = [⟨1, .single "_sa" []⟩] := by
    rw [show w = _ from hw]
    rfl
  refine ⟨htold, ?_, ?_⟩
  · rw [show w = _ from hw, Service.answer_of_answer (plan_implementors rfl)]
    rfl
  · rw [htold]
    exact fun h => absurd (Json.object.inj h) (List.cons_ne_nil _ _)

end TraitIndex.Api
