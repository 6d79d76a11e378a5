import TraitIndex.Api.Service
import TraitIndex.Proofs.Tables

/-! A page with a feed of its own.

    Nobody but its feed listens to a served page. So every batch that came since the page started
    over is kept by the feed or waits for it, in the order it came, and the table is what all of
    them come to. The numbers in the feed only rise, over every new start. -/

namespace TraitIndex

/-! ### Feeds -/

namespace Feed

/-- The batches that the feed keeps, in order. -/
def batches (f : Feed) : List Batch := f.deliveries.map Delivery.batch

/-- The numbers of a feed rise, and none is above the latest. -/
structure Ordered (f : Feed) : Prop where
  rising : f.deliveries.Pairwise (·.seq < ·.seq)
  bounded : ∀ d ∈ f.deliveries, d.seq ≤ f.latest

/-- A feed later on: what came since has higher numbers. -/
structure Extends (f f' : Feed) : Prop where
  latest : f.latest ≤ f'.latest
  more : ∃ ds, f'.deliveries = f.deliveries ++ ds ∧ ∀ d ∈ ds, f.latest < d.seq

theorem Extends.refl (f : Feed) : f.Extends f := ⟨Nat.le_refl _, [], by simp⟩

theorem Extends.trans {f g k : Feed} (h : f.Extends g) (h' : g.Extends k) : f.Extends k := by
  obtain ⟨ds, hds, hnew⟩ := h.more
  obtain ⟨ds', hds', hnew'⟩ := h'.more
  refine ⟨Nat.le_trans h.latest h'.latest, ds ++ ds', by rw [hds', hds, List.append_assoc], ?_⟩
  intro d hd
  rcases List.mem_append.1 hd with hd | hd
  · exact hnew d hd
  · exact Nat.lt_of_le_of_lt h.latest (hnew' d hd)

theorem batches_record (f : Feed) (b : Batch) : (f.record b).batches = f.batches ++ [b] :=
  List.map_append

theorem Ordered.record {f : Feed} (h : f.Ordered) (b : Batch) : (f.record b).Ordered where
  rising := by
    refine List.pairwise_append.2 ⟨h.rising, List.pairwise_singleton _ _, ?_⟩
    intro d hd e he
    rw [List.mem_singleton.1 he]
    exact Nat.lt_succ_of_le (h.bounded d hd)
  bounded d hd := by
    rcases List.mem_append.1 hd with hd | hd
    · exact Nat.le_succ_of_le (h.bounded d hd)
    · rw [List.mem_singleton.1 hd]
      exact Nat.le_refl _

theorem extends_record (f : Feed) (b : Batch) : f.Extends (f.record b) :=
  ⟨Nat.le_succ _, [⟨f.latest + 1, b⟩], rfl, by simp⟩

theorem batches_foldl_record (f : Feed) (bs : List Batch) :
    (bs.foldl Feed.record f).batches = f.batches ++ bs := by
  induction bs generalizing f with
  | nil => exact (List.append_nil _).symm
  | cons b rest ih => rw [List.foldl_cons, ih, batches_record, List.append_assoc]; rfl

theorem Ordered.foldl_record {f : Feed} (h : f.Ordered) (bs : List Batch) :
    (bs.foldl Feed.record f).Ordered := by
  induction bs generalizing f with
  | nil => exact h
  | cons b rest ih => exact ih (h.record b)

theorem extends_foldl_record (f : Feed) (bs : List Batch) :
    f.Extends (bs.foldl Feed.record f) := by
  induction bs generalizing f with
  | nil => exact .refl f
  | cons b rest ih => exact (f.extends_record b).trans (ih (f.record b))

theorem Ordered.clear {f : Feed} : f.clear.Ordered := ⟨List.Pairwise.nil, by simp [Feed.clear]⟩

/-- What came up to a number is the same later on. -/
theorem Extends.filter_le {f f' : Feed} (h : f.Extends f') {n : Nat} (hn : n ≤ f.latest) :
    (f'.deliveries.filter fun d => decide (d.seq ≤ n)) =
      f.deliveries.filter fun d => decide (d.seq ≤ n) := by
  obtain ⟨ds, hds, hnew⟩ := h.more
  have hnone : (ds.filter fun d => decide (d.seq ≤ n)) = [] := by
    refine List.filter_eq_nil_iff.2 fun d hd => ?_
    have := hnew d hd
    rw [decide_eq_true_eq]
    omega
  rw [hds, List.filter_append, hnone, List.append_nil]

/-- What came up to a number and what came after it is all there is. -/
theorem Ordered.filter_le_append_since {f : Feed} (h : f.Ordered) (n : Nat) :
    (f.deliveries.filter fun d => decide (d.seq ≤ n)) ++ f.since n = f.deliveries := by
  obtain ⟨deliveries, latest⟩ := f
  have hrising := h.rising
  simp only [since] at hrising ⊢
  clear h
  induction deliveries with
  | nil => rfl
  | cons d rest ih =>
    rw [List.pairwise_cons] at hrising
    by_cases hd : d.seq ≤ n
    · have hnot : ¬ ((n : Int) < d.seq) := by omega
      simp only [List.filter_cons, hd, hnot, decide_true, decide_false, if_true,
        Bool.false_eq_true, if_false, List.cons_append]
      rw [ih hrising.2]
    · have hlt : (n : Int) < d.seq := by omega
      have hnone : (rest.filter fun d => decide (d.seq ≤ n)) = [] := by
        refine List.filter_eq_nil_iff.2 fun e he => ?_
        have := hrising.1 e he
        rw [decide_eq_true_eq]
        omega
      rw [hnone, List.nil_append] at ih
      simp only [List.filter_cons, hd, hlt, decide_true, decide_false, if_true,
        Bool.false_eq_true, if_false, hnone, List.nil_append]
      rw [ih hrising.2]

end Feed

/-! ### The operations of a service -/

namespace Api.Service

/-- A batch is accepted by the page and goes where it goes. -/
def accept (s : Service) (b : Batch) : Service :=
  settle s.feed (s.page.accept b).1 (s.page.accept b).2

/-- The feed attaches to the page. -/
def attach (s : Service) : Service :=
  settle s.feed { s.page with relay := (s.page.relay.attach ()).1 } (s.page.relay.attach ()).2

/-- Page and feed start over. -/
def clear (s : Service) : Service := { page := s.page.reset, feed := s.feed.clear }

theorem settle_none (feed : Feed) (page : Page Unit) : settle feed page none = { page, feed } := by
  rw [settle]

/-- A batch that goes to the feed at once is all that the feed is called with. -/
theorem settle_direct (feed : Feed) (page : Page Unit) (b : Batch) :
    settle feed page (some ⟨(), b, false⟩) = { page, feed := feed.record b } := by
  rw [settle]
  exact settle_none _ _

/-- A flush calls the feed with a batch and then with the backlog, and ends. -/
theorem settle_flush (feed : Feed) (page : Page Unit) (b : Batch)
    (hconsumer : page.relay.consumer = some ()) :
    ∃ delivered, settle feed page (some ⟨(), b, true⟩) =
      { page := { page with relay := ⟨some (), [], false, delivered⟩ }
        feed := (b :: page.relay.backlog).foldl Feed.record feed } := by
  obtain ⟨table, revision, ⟨consumer, backlog, flushing, delivered⟩, closed⟩ := page
  obtain rfl : consumer = some () := hconsumer
  induction backlog generalizing feed b delivered with
  | nil =>
    refine ⟨delivered, ?_⟩
    rw [settle]
    exact settle_none _ _
  | cons b' rest ih =>
    obtain ⟨delivered', h⟩ := ih (feed.record b) b' (delivered + 1)
    refine ⟨delivered', ?_⟩
    rw [settle]
    exact h

/-- No number is taken back. -/
theorem latest_settle (feed : Feed) (page : Page Unit) (call : Option (Call Unit)) :
    feed.latest ≤ (settle feed page call).feed.latest := by
  fun_induction settle feed page call with
  | case1 => exact Nat.le_refl _
  | case2 feed page call ih => exact Nat.le_trans (Nat.le_succ _) ih

/-- What holds of a service that was sent some batches since it started over. -/
structure Keeps (s : Service) (sent : List Batch) : Prop where
  opened : s.page.closed = false
  idle : s.page.relay.flushing = false
  table : s.page.table = Table.ofBatches sent
  kept : s.feed.batches ++ s.page.relay.backlog = sent
  emptied : s.page.relay.consumer.isSome = true → s.page.relay.backlog = []
  ordered : s.feed.Ordered

variable {s : Service} {sent : List Batch}

theorem keeps_new : ({} : Service).Keeps [] where
  opened := rfl
  idle := rfl
  table := rfl
  kept := rfl
  emptied _ := rfl
  ordered := ⟨List.Pairwise.nil, fun _ hd => absurd hd List.not_mem_nil⟩

/-- While no feed is attached a batch joins the backlog. -/
theorem accept_waiting (h : s.page.relay.consumer = none) (b : Batch) :
    s.accept b =
      { page := { s.page.merge b with
          relay := { s.page.relay with backlog := s.page.relay.backlog ++ [b] } }
        feed := s.feed } := by
  have haccept : s.page.accept b = ({ s.page.merge b with
      relay := { s.page.relay with backlog := s.page.relay.backlog ++ [b] } }, none) := by
    simp only [Page.accept, Page.merge, Relay.deliver, h]
  rw [accept, haccept, settle_none]

/-- The feed that is attached is called with a batch at once. -/
theorem accept_attached (h : s.page.relay.consumer = some ())
    (hidle : s.page.relay.flushing = false) (b : Batch) :
    ∃ delivered, s.accept b =
      { page := { s.page.merge b with relay := { s.page.relay with delivered } }
        feed := s.feed.record b } := by
  have haccept : s.page.accept b = ({ s.page.merge b with
      relay := { s.page.relay with delivered := s.page.relay.delivered + 1 } },
      some ⟨(), b, false⟩) := by
    simp only [Page.accept, Page.merge, Relay.deliver, h, hidle, Bool.false_eq_true, if_false]
  rw [accept, haccept, settle_direct]
  exact ⟨_, rfl⟩

theorem Keeps.accept (h : s.Keeps sent) (b : Batch) : (s.accept b).Keeps (sent ++ [b]) := by
  have htable : (s.page.merge b).table = Table.ofBatches (sent ++ [b]) := by
    rw [Table.ofBatches_concat, ← h.table]
    rfl
  rcases hc : s.page.relay.consumer with _ | ⟨⟩
  · rw [accept_waiting hc b]
    exact {
      opened := h.opened
      idle := h.idle
      table := htable
      kept := by rw [← h.kept, List.append_assoc]
      emptied := fun hsome => by simp [hc] at hsome
      ordered := h.ordered }
  · obtain ⟨delivered, haccept⟩ := accept_attached hc h.idle b
    have hempty := h.emptied (by rw [hc]; rfl)
    rw [haccept]
    exact {
      opened := h.opened
      idle := h.idle
      table := htable
      kept := by
        show (s.feed.record b).batches ++ s.page.relay.backlog = _
        rw [Feed.batches_record, ← h.kept, hempty, List.append_nil, List.append_nil]
      emptied := fun _ => hempty
      ordered := h.ordered.record b }

theorem Keeps.extends_accept (h : s.Keeps sent) (b : Batch) : s.feed.Extends (s.accept b).feed := by
  rcases hc : s.page.relay.consumer with _ | ⟨⟩
  · rw [accept_waiting hc b]
    exact .refl _
  · obtain ⟨delivered, haccept⟩ := accept_attached hc h.idle b
    rw [haccept]
    exact s.feed.extends_record b

/-- The feed that attaches takes the backlog. -/
theorem attach_eq (hidle : s.page.relay.flushing = false) :
    ∃ delivered, s.attach =
      { page := { s.page with relay := ⟨some (), [], false, delivered⟩ }
        feed := s.page.relay.backlog.foldl Feed.record s.feed } := by
  obtain ⟨⟨table, revision, ⟨consumer, backlog, flushing, delivered⟩, closed⟩, feed⟩ := s
  obtain rfl : flushing = false := hidle
  cases backlog with
  | nil =>
    refine ⟨delivered, ?_⟩
    rw [attach]
    exact settle_none _ _
  | cons b rest =>
    rw [attach]
    exact settle_flush feed ⟨table, revision, ⟨some (), rest, true, delivered + 1⟩, closed⟩ b rfl

theorem Keeps.attach (h : s.Keeps sent) : s.attach.Keeps sent := by
  obtain ⟨delivered, hattach⟩ := attach_eq h.idle
  rw [hattach]
  exact {
    opened := h.opened
    idle := rfl
    table := h.table
    kept := by
      rw [Feed.batches_foldl_record, ← h.kept]
      exact List.append_nil _
    emptied := fun _ => rfl
    ordered := h.ordered.foldl_record _ }

theorem Keeps.extends_attach (h : s.Keeps sent) : s.feed.Extends s.attach.feed := by
  obtain ⟨delivered, hattach⟩ := attach_eq h.idle
  rw [hattach]
  exact s.feed.extends_foldl_record _

theorem Keeps.clear (h : s.Keeps sent) : s.clear.Keeps [] where
  opened := h.opened
  idle := h.idle
  table := rfl
  kept := rfl
  emptied _ := rfl
  ordered := Feed.Ordered.clear

/-! ### Requests -/

/-- The service after the operation that a request comes to. -/
def after (s : Service) : Plan → Service
  | .answer _ => s
  | .contribute b _ => s.accept b
  | .poll _ => s.attach
  | .reset => s.clear

/-- What a request to the service comes to. -/
def planned (s : Service) (r : Request) : Plan :=
  (plan s.page s.feed s.page.relay.consumer.isSome r).1

theorem answer_fst (s : Service) (r : Request) : (s.answer r).1 = s.after (s.planned r) := by
  simp only [answer, planned]
  rcases plan s.page s.feed s.page.relay.consumer.isSome r with ⟨_ | _ | _ | _, notices⟩
  all_goals rfl

theorem latest_after (s : Service) (p : Plan) : s.feed.latest ≤ (s.after p).feed.latest := by
  cases p with
  | answer | reset => exact Nat.le_refl _
  | contribute b receipt => exact latest_settle _ _ _
  | poll since => exact latest_settle _ _ _

theorem latest_answer (s : Service) (r : Request) :
    s.feed.latest ≤ (s.answer r).1.feed.latest := by
  rw [answer_fst]
  exact s.latest_after _

theorem answer_of_answer {r : Request} {response : Response} {notices : List Notice}
    (h : plan s.page s.feed s.page.relay.consumer.isSome r = (.answer response, notices)) :
    s.answer r = (s, response, notices) := by
  simp only [answer, h]

end Api.Service
end TraitIndex
