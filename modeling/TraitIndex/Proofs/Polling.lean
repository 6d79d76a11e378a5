import Mathlib.Data.List.DropRight
import TraitIndex.Client
import TraitIndex.Proofs.Reading
import TraitIndex.Proofs.ServedPage
import TraitIndex.Proofs.TakingIn
import TraitIndex.Proofs.Transport

/-! Pollers of a served page.

    A poller asks for what came after the number it has seen and keeps the number it is told. In
    between batches come from all sides, requests of others too, and the page may start over. What
    a poller has been told since then is what the feed has up to the poller's number, and right
    after a poll that is everything: merged batch after batch, it is the table of the page. -/

namespace TraitIndex

/-! ### What is told -/

/-- A delivery as it is read in an answer, its batch taken in like any other. -/
def Delivery.read? (j : Json) : Option Delivery :=
  match j.member? "seq", j.member? "batch" with
  | some (.int seq), some batch =>
    match (Intake.batch (.ofJson batch)).result with
    | .ok b => some ⟨seq.toNat, b⟩
    | .error _ => none
  | _, _ => none

/-- The latest number and the deliveries of an answer. -/
def Feed.read? (j : Json) : Option (Nat × List Delivery) :=
  match j.member? "latest", j.member? "deliveries" with
  | some (.int latest), some (.list items) => (items.mapM Delivery.read?).map (latest.toNat, ·)
  | _, _ => none

theorem Delivery.read?_toJson (d : Delivery) : Delivery.read? d.toJson = some d := by
  have hseq : d.toJson.member? "seq" = some (.int d.seq) := rfl
  have hbatch : d.toJson.member? "batch" = some d.batch.toJson := rfl
  simp only [Delivery.read?, hseq, hbatch, Intake.batch_toJson, Int.toNat_natCast]

theorem Delivery.mapM_read? (ds : List Delivery) :
    (ds.map Delivery.toJson).mapM Delivery.read? = some ds := by
  induction ds with
  | nil => rfl
  | cons d rest ih =>
    rw [List.map_cons, List.mapM_cons, Delivery.read?_toJson, ih]
    rfl

namespace Api

/-- The members of the answer that tells deliveries. -/
def deliveriesFields (feed : Feed) (seen : Nat) : List (Text × Json) :=
  [("latest", .int feed.latest), ("deliveries", .list ((feed.since seen).map Delivery.toJson))]

theorem read?_deliveriesFields (feed : Feed) (seen : Nat) :
    Feed.read? (.object (deliveriesFields feed seen)) = some (feed.latest, feed.since seen) := by
  have hlatest : Json.member? (.object (deliveriesFields feed seen)) "latest" =
      some (.int feed.latest) := rfl
  have hdeliveries : Json.member? (.object (deliveriesFields feed seen)) "deliveries" =
      some (.list ((feed.since seen).map Delivery.toJson)) := rfl
  simp only [Feed.read?, hlatest, hdeliveries, Delivery.mapM_read?, Option.map_some,
    Int.toNat_natCast]

/-- No batch that came after a number has half of a pair. -/
def tellable (feed : Feed) (seen : Nat) : Bool :=
  (feed.since seen).all fun d => d.batch.toJson.isWhole

theorem isWhole_deliveriesFields (feed : Feed) (seen : Nat) :
    Json.isWhole (.object (deliveriesFields feed seen)) = tellable feed seen := by
  have hdelivery : ∀ d : Delivery, Json.isWhole d.toJson = d.batch.toJson.isWhole :=
    fun d => Bool.and_true _
  have hlist : Json.allWhole ((feed.since seen).map Delivery.toJson) = tellable feed seen := by
    rw [tellable, Bool.eq_iff_iff, Json.allWhole_iff, List.forall_mem_map, List.all_eq_true]
    simp only [hdelivery]
  rw [← hlist]
  exact Bool.and_true _

/-- The answer can be sent and read while the latest number can be written. -/
theorem parseSent_deliveriesFields {feed : Feed} (hordered : feed.Ordered)
    (hlatest : Integer.isWritable feed.latest = true) {seen : Nat}
    (hwhole : tellable feed seen = true) :
    ∃ text : String, Json.compact (.object (deliveriesFields feed seen)) = text ∧
      Json.parseSent text.toUTF8 = .ok (.object (deliveriesFields feed seen)) := by
  have hmem : ∀ d ∈ feed.since seen, Integer.isWritable d.seq = true := by
    intro d hd
    have hle := hordered.bounded d (List.mem_filter.1 hd).1
    exact Integer.isWritable_mono hle hlatest
  have hnames : ([("latest" : Text), "deliveries"]).Nodup := by decide
  have hparts : ([("seq" : Text), "batch"]).Nodup := by decide
  refine Json.parseSent_plain ⟨hlatest, Json.allSendable_iff.2 ?_, trivial⟩
    ⟨hnames, trivial, Json.allPlain_iff.2 ?_, trivial⟩
    ((isWhole_deliveriesFields feed seen).trans hwhole)
  · intro x hx
    obtain ⟨d, hd, rfl⟩ := List.mem_map.1 hx
    exact ⟨hmem d hd, Json.sendable_table d.batch, trivial⟩
  · intro x hx
    obtain ⟨d, -, rfl⟩ := List.mem_map.1 hx
    exact ⟨hparts, trivial, Json.plain_table d.batch, trivial⟩

/-! ### A poll -/

namespace Service

variable {s : Service} {sent : List Batch}

/-- The service when its feed is attached, as it is or after it has attached. -/
def listening (s : Service) : Service := if s.page.relay.consumer.isSome then s else s.attach

/-- A poller asks for what came after the number it has seen, and reads the answer if there is one
    that it can read. -/
def poll (s : Service) (seen : Nat) : Service × Option (Nat × List Delivery) :=
  let call := Client.Call.getDeliveries (.int seen)
  match call.request with
  | .error _ => (s, none)
  | .ok r =>
    let (s, response, _) := s.answer r
    match call.interpret response.status (response.text?.getD "") with
    | .ok (.document j) => (s, Feed.read? j)
    | _ => (s, none)

/-- The request of a poller. -/
def pollRequest (seen : Nat) : Request :=
  { method := "GET", path := "/api/deliveries", query := [("since", toString seen)] }

theorem request_getDeliveries {seen : Nat} (h : Integer.isWritable seen = true) :
    (Client.Call.getDeliveries (.int seen)).request = .ok (pollRequest seen) := by
  have hwritable : Value.writable seen = .ok (seen : Int) := if_pos h
  have htext : toString (seen : Int) = toString seen := rfl
  simp only [Client.Call.request, Value.integer, bind, Except.bind, hwritable, htext]
  rfl

theorem cursor_toString {seen : Nat} (h : Integer.isWritable seen = true) :
    Query.cursor (.text (toString seen)) = .ok seen := by
  have hread : Value.integer (.text (toString seen)) = .ok (seen : Int) := by
    have := Integer.read?_toString (n := seen) (Integer.isWritable_iff.1 h)
    simp only [Value.integer, this, Option.map_some, Option.getD_some]
  have hne : Text.ofString (toString seen) ≠ "" := by
    intro he
    have hchars := Digits.toString_eq seen
    rw [he] at hchars
    exact (Digits.ofNat seen).nonempty hchars.symm
  unfold Query.cursor
  split
  · rename_i heq
    exact absurd heq (by simp)
  · rename_i heq
    exact absurd (Value.text.inj heq) hne
  · rw [hread]
    simp

theorem answer_pollRequest (hopen : s.page.closed = false) {seen : Nat}
    (h : Integer.isWritable seen = true) :
    s.answer (pollRequest seen) =
      (s.listening, .success (.object (deliveriesFields s.listening.feed seen)), []) := by
  have hfind : Route.find (pollRequest seen) = .ok .deliveries := rfl
  have hsince : givenSince (pollRequest seen) = .text (toString seen) := rfl
  have hplan : ∀ attached : Bool, pollPlan s.page s.feed attached (pollRequest seen) =
      if attached then .answer (deliveries s.feed seen) else .poll seen := by
    intro attached
    simp only [pollPlan, hsince, cursor_toString h, hopen, Bool.false_eq_true, if_false]
  unfold listening
  cases hattached : s.page.relay.consumer.isSome with
  | true =>
    have hanswer : planAt .deliveries s.page s.feed true (pollRequest seen) =
        return .answer (deliveries s.feed seen) := by
      rw [planAt, hplan]
      rfl
    have := plan_of_answer hfind (by decide) hanswer
    rw [← hattached] at this
    exact answer_of_answer this
  | false =>
    have hpoll : plan s.page s.feed s.page.relay.consumer.isSome (pollRequest seen) =
        (.poll seen, []) := by
      simp only [plan, hfind, planAt, hattached, hplan, Outcome.pure_eq]
      rfl
    simp only [answer, hpoll]
    rfl

/-- Only a number that can be written can be asked with. -/
theorem request_of_not_writable {seen : Nat} (h : ¬ Integer.isWritable seen = true) :
    (Client.Call.getDeliveries (.int seen)).request = .error .digitLimit := by
  have hwritable : Value.writable seen = .error .digitLimit := if_neg h
  simp only [Client.Call.request, Value.integer, bind, Except.bind, hwritable]

/-- Whatever a poller reads, the service is as its request leaves it. -/
theorem poll_fst (s : Service) (seen : Nat) {r : Request}
    (hrequest : (Client.Call.getDeliveries (.int seen)).request = .ok r) :
    (s.poll seen).1 = (s.answer r).1 := by
  unfold poll
  simp only [hrequest]
  split <;> rfl

theorem poll_of_not_writable (s : Service) {seen : Nat} (h : ¬ Integer.isWritable seen = true) :
    s.poll seen = (s, none) := by
  unfold poll
  simp only [request_of_not_writable h]

theorem latest_poll (s : Service) (seen : Nat) : s.feed.latest ≤ (s.poll seen).1.feed.latest := by
  by_cases h : Integer.isWritable seen = true
  · rw [s.poll_fst seen (request_getDeliveries h)]
    exact s.latest_answer _
  · rw [s.poll_of_not_writable h]

/-- A poll that is answered with a document comes to what is read in it. -/
theorem poll_of_answer {s' : Service} {seen : Nat} {r : Request} {response : Response}
    {notices : List Notice} {text : String} {j : Json}
    (hrequest : (Client.Call.getDeliveries (.int seen)).request = .ok r)
    (hanswer : s.answer r = (s', response, notices)) (hstatus : response.status = 200)
    (htext : response.text? = some text) (hparse : Json.parseSent text.toUTF8 = .ok j) :
    s.poll seen = (s', Feed.read? j) := by
  have hinterpret : (Client.Call.getDeliveries (.int seen)).interpret 200 text =
      .ok (.document j) := by
    simp only [Client.Call.interpret, hparse, ne_eq, not_true_eq_false, if_false]
    rfl
  unfold poll
  simp only [hrequest, hanswer, hstatus, htext, Option.getD_some, hinterpret]

theorem Keeps.listening (h : s.Keeps sent) : s.listening.Keeps sent := by
  unfold Service.listening
  split
  · exact h
  · exact h.attach

theorem Keeps.extends_listening (h : s.Keeps sent) : s.feed.Extends s.listening.feed := by
  unfold Service.listening
  split
  · exact .refl _
  · exact h.extends_attach

/-- Nothing waits for a feed that is attached. -/
theorem Keeps.backlog_listening (h : s.Keeps sent) : s.listening.page.relay.backlog = [] := by
  unfold Service.listening
  split
  · rename_i hattached
    exact h.emptied hattached
  · obtain ⟨delivered, hattach⟩ := attach_eq h.idle
    rw [hattach]

/-- A poll that is answered with anything but success comes to nothing. -/
theorem poll_of_failure {s' : Service} {seen : Nat} {r : Request} {response : Response}
    {notices : List Notice} (hrequest : (Client.Call.getDeliveries (.int seen)).request = .ok r)
    (hanswer : s.answer r = (s', response, notices)) (hstatus : response.status ≠ 200) :
    s.poll seen = (s', none) := by
  unfold poll
  simp only [hrequest, hanswer, Client.Call.interpret, hstatus, ne_eq, not_false_eq_true, if_true]

/-- A poller whose number is not above the latest is answered, and reads what it is told, if that
    can be sent. -/
theorem Keeps.poll_eq (h : s.Keeps sent) {seen : Nat} (hseen : seen ≤ s.feed.latest)
    (hlatest : Integer.isWritable (s.poll seen).1.feed.latest = true) :
    s.poll seen = (s.listening,
      if tellable s.listening.feed seen then
        some (s.listening.feed.latest, s.listening.feed.since seen)
      else none) := by
  have hwritable : Integer.isWritable seen = true := by
    have hle := Nat.le_trans hseen (s.latest_poll seen)
    exact Integer.isWritable_mono hle hlatest
  rw [s.poll_fst seen (request_getDeliveries hwritable),
    answer_pollRequest h.opened hwritable] at hlatest
  have hrequest := request_getDeliveries hwritable
  have hanswer := answer_pollRequest h.opened hwritable
  have hwhole := isWhole_deliveriesFields s.listening.feed seen
  cases htellable : tellable s.listening.feed seen with
  | true =>
    rw [htellable] at hwhole
    obtain ⟨text, htext, hparse⟩ :=
      parseSent_deliveriesFields h.listening.ordered hlatest htellable
    rw [Response.success_of_isWhole hwhole] at hanswer
    rw [poll_of_answer hrequest hanswer rfl (Response.text?_document htext 200) hparse,
      read?_deliveriesFields]
    rfl
  | false =>
    rw [htellable] at hwhole
    rw [Response.success, Response.giving_of_not_isWhole hwhole] at hanswer
    rw [poll_of_failure hrequest hanswer (by decide)]
    rfl

end Service
end Api
end TraitIndex
