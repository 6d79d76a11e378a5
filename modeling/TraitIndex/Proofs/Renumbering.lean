import TraitIndex.Proofs.Polling

/-! Pages and feeds under other numbers.

    The revision of a page and the numbers of a feed only ever count on, and the names of consumers
    are nothing but names. So a page and a feed do the same under other names and with numbers that
    are shifted by a constant: what they come to is shifted alike, and so is what the server tells
    of them. A poller that passes in a shifted number is told the same deliveries, shifted. -/

namespace TraitIndex

variable {κ κ' : Type}

/-! ### Relays -/

/-- The call of a consumer under another name. -/
def Call.rename (f : κ → κ') (call : Call κ) : Call κ' :=
  { consumer := f call.consumer, batch := call.batch, fromBacklog := call.fromBacklog }

namespace Relay

/-- The relay with consumers under other names. -/
def rename (f : κ → κ') (r : Relay κ) : Relay κ' :=
  { consumer := r.consumer.map f, backlog := r.backlog
    flushing := r.flushing, delivered := r.delivered }

/-- What an operation comes to, under other names. -/
def renamed (f : κ → κ') (moved : Relay κ × Option (Call κ)) : Relay κ' × Option (Call κ') :=
  (moved.1.rename f, moved.2.map (Call.rename f))

variable (f : κ → κ') (r : Relay κ)

theorem flushNext_rename : (r.rename f).flushNext = renamed f r.flushNext := by
  rcases r with ⟨_ | c, _ | ⟨b, backlog⟩, flushing, delivered⟩
  · rfl
  · rfl
  · rfl
  · rfl

theorem attach_rename (c : κ) : (r.rename f).attach (f c) = renamed f (r.attach c) := by
  have hflushing : (r.rename f).flushing = r.flushing := rfl
  unfold attach
  rw [hflushing]
  split
  · rfl
  · exact flushNext_rename f { r with consumer := some c, flushing := true }

theorem deliver_rename (b : Batch) : (r.rename f).deliver b = renamed f (r.deliver b) := by
  rcases r with ⟨_ | c, backlog, _ | _, delivered⟩
  · rfl
  · rfl
  · rfl
  · rfl

theorem finish_rename (call : Call κ) :
    (r.rename f).finish (call.rename f) = renamed f (r.finish call) := by
  have hbacklog : (call.rename f).fromBacklog = call.fromBacklog := rfl
  unfold finish
  rw [hbacklog]
  split
  · exact flushNext_rename f r
  · rfl

theorem stateName_rename : (r.rename f).stateName = r.stateName := by
  simp only [stateName, rename, Option.isSome_map]

end Relay

/-! ### Pages -/

namespace Page

/-- The page with consumers under other names and its revision shifted. -/
def shift (f : κ → κ') (k : Nat) (p : Page κ) : Page κ' :=
  { table := p.table, revision := p.revision + k, relay := p.relay.rename f, closed := p.closed }

/-- What an operation comes to, shifted. -/
def shifted (f : κ → κ') (k : Nat) (moved : Page κ × Option (Call κ)) :
    Page κ' × Option (Call κ') :=
  (moved.1.shift f k, moved.2.map (Call.rename f))

variable (f : κ → κ') (k : Nat) (p : Page κ)

theorem clearTable_shift : (p.shift f k).clearTable = p.clearTable.shift f k := by
  simp only [clearTable, shift, Nat.add_right_comm]

theorem reset_shift : (p.shift f k).reset = p.reset.shift f k := by
  unfold reset
  rw [clearTable_shift]
  rfl

theorem close_shift : (p.shift f k).close = p.close.shift f k := by
  have hclosed : (p.shift f k).closed = p.closed := rfl
  unfold close
  rw [hclosed, reset_shift]
  split
  · rfl
  · rfl

theorem merge_shift (b : Batch) : (p.shift f k).merge b = (p.merge b).shift f k := by
  simp only [merge, shift, Nat.add_right_comm]

theorem accept_shift (b : Batch) : (p.shift f k).accept b = shifted f k (p.accept b) := by
  have hrelay : ((p.merge b).shift f k).relay = (p.merge b).relay.rename f := rfl
  simp only [accept, merge_shift, hrelay, Relay.deliver_rename]
  rfl

theorem contribute_shift (b : Batch) :
    (p.shift f k).contribute b = (p.contribute b).map (shifted f k) := by
  have hclosed : (p.shift f k).closed = p.closed := rfl
  unfold contribute
  rw [hclosed, accept_shift]
  split
  · rfl
  · rfl

theorem attach_shift (c : κ) :
    (p.shift f k).attach (f c) = (p.attach c).map (shifted f k) := by
  have hclosed : (p.shift f k).closed = p.closed := rfl
  have hrelay : (p.shift f k).relay = p.relay.rename f := rfl
  unfold attach
  rw [hclosed, hrelay, Relay.attach_rename]
  split
  · rfl
  · rfl

theorem finish_shift (call : Call κ) :
    (p.shift f k).finish (call.rename f) = shifted f k (p.finish call) := by
  have hrelay : (p.shift f k).relay = p.relay.rename f := rfl
  simp only [finish, hrelay, Relay.finish_rename]
  rfl

end Page

/-! ### Feeds -/

/-- The delivery under a shifted number. -/
def Delivery.shift (k : Nat) (d : Delivery) : Delivery := { d with seq := d.seq + k }

namespace Feed

/-- The feed with its numbers shifted. -/
def shift (k : Nat) (f : Feed) : Feed :=
  { deliveries := f.deliveries.map (Delivery.shift k), latest := f.latest + k }

/-- No delivery has the number zero, which is that of a poller that has seen nothing. -/
def Numbered (f : Feed) : Prop := ∀ d ∈ f.deliveries, 0 < d.seq

variable {f : Feed} {k : Nat}

theorem numbered_record (h : f.Numbered) (b : Batch) : (f.record b).Numbered := by
  intro d hd
  rcases List.mem_append.1 hd with hd | hd
  · exact h d hd
  · rw [List.mem_singleton.1 hd]
    exact Nat.succ_pos _

theorem record_shift (f : Feed) (k : Nat) (b : Batch) :
    (f.shift k).record b = (f.record b).shift k := by
  simp only [record, shift, List.map_append, List.map_cons, List.map_nil, Delivery.shift,
    Nat.add_right_comm]

/-- A number that was passed in, and the shifted one; who passes in none passes in none. -/
def CursorShift (k n n' : Nat) : Prop := n' = n + k ∨ n = 0 ∧ n' = 0

/-- Whoever passes in a shifted number is told the same deliveries. -/
theorem since_shift (h : f.Numbered) {n n' : Nat} (hn : CursorShift k n n') :
    (f.shift k).since n' = (f.since n).map (Delivery.shift k) := by
  rw [since, since, shift, List.filter_map]
  refine congrArg (List.map _) (List.filter_congr fun d hd => ?_)
  have hpos := h d hd
  have hseq : (d.shift k).seq = d.seq + k := rfl
  refine decide_eq_decide.2 ?_
  rw [hseq]
  rcases hn with rfl | ⟨rfl, rfl⟩
  · omega
  · omega

end Feed

namespace Api

/-! ### What the server tells -/

/-- By how much numbers are shifted. -/
structure Offset where
  revision : Nat
  seq : Nat

namespace Offset

variable (o : Offset)

/-- By how much a number is shifted under a name in a document. -/
def under (name : Text) : Nat :=
  if name = "globalRevision" then o.revision
  else if name ∈ ([("seq" : Text), "latest", "latestDelivery"]) then o.seq
  else 0

mutual

/-- The document with revisions and numbers of deliveries shifted. -/
def json : Json → Json
  | .list items => .list (jsons items)
  | .object members => .object (fields members)
  | j => j

def jsons : List Json → List Json
  | [] => []
  | j :: rest => json j :: jsons rest

def fields : List (Text × Json) → List (Text × Json)
  | [] => []
  | (name, .int n) :: rest => (name, .int (n + o.under name)) :: fields rest
  | (name, j) :: rest => (name, json j) :: fields rest

end

/-- What a response says, shifted. -/
def body : Body → Body
  | .document j => .document (o.json j)
  | b => b

/-- The response with its numbers shifted. -/
def response (r : Response) : Response := { r with body := o.body r.body }

/-- A cursor that is passed in, shifted if it is one. -/
def since (s : String) : String :=
  match Query.cursor (.text s) with
  | .ok n => toString (n + o.seq)
  | .error _ => s

/-- A pair of a query with its cursor shifted. -/
def pair (p : String × String) : String × String :=
  if p.1 = "since" then (p.1, o.since p.2) else p

/-- The request with its cursors shifted. -/
def request (r : Request) : Request := { r with query := r.query.map o.pair }

theorem jsons_eq_map (items : List Json) : o.jsons items = items.map o.json := by
  induction items with
  | nil => rfl
  | cons j rest ih => rw [jsons, ih, List.map_cons]

theorem response_forMethod (r : Response) (method : String) :
    o.response (r.forMethod method) = (o.response r).forMethod method := by
  unfold Response.forMethod
  split
  · rfl
  · rfl

mutual

/-- Numbers have no halves of pairs. -/
theorem isWhole_json : ∀ j : Json, (o.json j).isWhole = j.isWhole
  | .null => rfl
  | .bool _ => rfl
  | .int _ => rfl
  | .float _ => rfl
  | .text _ => rfl
  | .list items => allWhole_jsons items
  | .object members => fieldsWhole_fields members

theorem allWhole_jsons : ∀ items : List Json, Json.allWhole (o.jsons items) = Json.allWhole items
  | [] => rfl
  | j :: rest => by rw [jsons, Json.allWhole, Json.allWhole, isWhole_json, allWhole_jsons]

theorem fieldsWhole_fields : ∀ members : List (Text × Json),
    Json.fieldsWhole (o.fields members) = Json.fieldsWhole members
  | [] => rfl
  | (name, j) :: rest => by
    have hrest := fieldsWhole_fields rest
    have hj := isWhole_json j
    cases j with
    | int n => rw [fields, Json.fieldsWhole, Json.fieldsWhole, hrest]; rfl
    | _ => rw [fields, Json.fieldsWhole, Json.fieldsWhole, hj, hrest]; exact nofun

end

/-- A document can be given shifted if it can be given. -/
theorem response_giving (status : Nat) (j : Json) :
    o.response (.giving status j) = .giving status (o.json j) := by
  have hwhole := o.isWhole_json j
  cases h : j.isWhole with
  | true =>
    rw [h] at hwhole
    rw [Response.giving_of_isWhole h, Response.giving_of_isWhole hwhole]
    rfl
  | false =>
    rw [h] at hwhole
    rw [Response.giving_of_not_isWhole h, Response.giving_of_not_isWhole hwhole]
    rfl

theorem response_refused (status : Nat) (detail : Text) :
    o.response (.refused status detail) = .refused status detail := o.response_giving status _

theorem response_refusedFor (status : Nat) (why : Fault) :
    o.response (.refusedFor status why) = .refusedFor status why := o.response_refused status _

/-! What says nothing about revisions and deliveries is told as it is. -/

theorem jsons_records (rs : List Implementor) :
    o.jsons (rs.map Implementor.toJson) = rs.map Implementor.toJson := by
  rw [jsons_eq_map, List.map_map]
  rfl

theorem json_rows (rows : List (Text × List Implementor)) :
    o.json (Table.rowsToJson rows) = Table.rowsToJson rows := by
  refine congrArg Json.object ?_
  induction rows with
  | nil => rfl
  | cons row rest ih =>
    rw [List.map_cons, fields, ih]
    · rw [json, jsons_records]
    · exact nofun

theorem response_traits (page : Page κ) : o.response (traits page) = traits page := by
  have hentry : ∀ row : Text × List Implementor,
      o.json (.object [("traitId", .text row.1), ("implementorCount", .int row.2.length)]) =
        .object [("traitId", .text row.1), ("implementorCount", .int row.2.length)] := by
    intro row
    have hunder : o.under "implementorCount" = 0 := rfl
    simp [json, fields, hunder]
  rw [traits, Response.success, response_giving, json, jsons_eq_map, List.map_map]
  exact congrArg (fun items => Response.giving 200 (.list items))
    (List.map_congr_left fun row _ => hentry row)

theorem response_implementors (page : Page κ) (r : Request) :
    o.response (implementors page r) = implementors page r := by
  unfold implementors
  split
  · exact o.response_refusedFor _ _
  · split
    · simp only [Response.success, response_giving, json_rows]
    · split
      · exact o.response_refusedFor _ _
      · split
        · rw [Response.success, response_giving, json, jsons_records]
        · exact o.response_refused _ _

/-! What says something about them is told of the shifted page and feed. -/

theorem json_delivery (d : Delivery) : o.json d.toJson = (d.shift o.seq).toJson := by
  have hbatch : o.json d.batch.toJson = d.batch.toJson := o.json_rows d.batch.rows
  have hfields : o.fields [("seq", .int d.seq), ("batch", d.batch.toJson)] =
      [(("seq" : Text), .int (d.seq + o.seq)), ("batch", o.json d.batch.toJson)] := rfl
  simp only [Delivery.toJson, json, hfields, hbatch, Delivery.shift, Int.natCast_add]

theorem response_deliveries {feed : Feed} (h : feed.Numbered) {n n' : Nat}
    (hn : Feed.CursorShift o.seq n n') :
    deliveries (feed.shift o.seq) n' = o.response (deliveries feed n) := by
  have hitems : ((feed.shift o.seq).since n').map Delivery.toJson =
      o.jsons ((feed.since n).map Delivery.toJson) := by
    rw [Feed.since_shift h hn, jsons_eq_map, List.map_map, List.map_map]
    exact List.map_congr_left fun d _ => (o.json_delivery d).symm
  have hlatest : (feed.shift o.seq).latest = feed.latest + o.seq := rfl
  rw [deliveries, hitems, hlatest, Int.natCast_add, deliveries, Response.success, Response.success,
    response_giving]
  rfl

theorem response_events (f : κ → κ') (page : Page κ) (feed : Feed) :
    events (page.shift f o.revision) (feed.shift o.seq) = o.response (events page feed) := by
  have hstate : (page.shift f o.revision).relay.stateName = page.relay.stateName :=
    page.relay.stateName_rename f
  rw [events, hstate, events, Response.success, Response.success, response_giving]
  rfl

theorem response_receipt (receipt : Receipt) (revision : Nat) :
    receipt.response (revision + o.revision) = o.response (receipt.response revision) := by
  cases receipt with
  | batch b =>
    have htraits : o.jsons (b.traits.map Json.text) = b.traits.map Json.text := by
      rw [jsons_eq_map, List.map_map]
      rfl
    have hmembers : o.json (.object [("ok", .bool true), ("traits", .list (b.traits.map Json.text)),
        ("globalRevision", .int revision)]) =
        .object [("ok", .bool true), ("traits", .list (o.jsons (b.traits.map Json.text))),
          ("globalRevision", .int (revision + o.revision))] := rfl
    rw [Receipt.response, Receipt.response, Response.success, Response.success, response_giving,
      hmembers, htraits]
    rfl
  | fragment trait b =>
    rw [Receipt.response, Receipt.response, Response.success, Response.success, response_giving]
    rfl

/-! ### What requests come to -/

variable {o} {r : Request}

/-- The cursors that are passed in stay short enough to be read. -/
def Fits (o : Offset) (r : Request) : Prop :=
  ∀ s n, ("since", s) ∈ r.query → Query.cursor (.text s) = .ok n →
    Integer.isWritable (n + o.seq : Nat) = true

theorem cursor_since {s : String}
    (h : ∀ n, Query.cursor (.text s) = .ok n → Integer.isWritable (n + o.seq : Nat) = true) :
    Query.cursor (.text (o.since s)) = (Query.cursor (.text s)).map (· + o.seq) := by
  unfold since
  rcases hs : Query.cursor (.text s) with why | n
  · simp only [hs]
    rfl
  · exact Service.cursor_toString (h n hs)

theorem pair_fst (p : String × String) : (o.pair p).1 = p.1 := by
  unfold pair
  split
  · rfl
  · rfl

theorem parameter?_request (r : Request) (name : String) :
    (o.request r).parameter? name =
      (r.parameter? name).map fun s => if name = "since" then o.since s else s := by
  have hnamed : (fun p : String × String => decide (p.1 = name)) ∘ o.pair =
      fun p => decide (p.1 = name) := by
    funext p
    simp only [Function.comp_apply, pair_fst]
  simp only [Request.parameter?, request, ← List.map_reverse, List.find?_map, hnamed]
  generalize hfound : List.find? _ r.query.reverse = found
  rcases found with _ | p
  · rfl
  · have hname : p.1 = name := by simpa using List.find?_some hfound
    simp only [Option.map_some, pair, hname]
    split
    · rfl
    · rfl

/-- Without a change to the cursors there is no change. -/
theorem parameter?_other (r : Request) {name : String} (h : name ≠ "since") :
    (o.request r).parameter? name = r.parameter? name := by
  rw [parameter?_request]
  simp only [h, if_false, Option.map_id_fun', id]

variable (o) in
/-- What a request comes to, and what the shifted one does. -/
inductive Plans : Plan → Plan → Prop where
  | answer (r : Response) : Plans (.answer r) (.answer (o.response r))
  | contribute (b : Batch) (receipt : Receipt) :
    Plans (.contribute b receipt) (.contribute b receipt)
  | poll {n n' : Nat} (h : Feed.CursorShift o.seq n n') : Plans (.poll n) (.poll n')
  | reset : Plans .reset .reset

variable (o) in
/-- Both fail alike, or what they come to corresponds; the notices are the same. -/
def Outcomes (x y : Outcome Plan) : Prop :=
  x.notices = y.notices ∧
    ((∃ why, x.result = .error why ∧ y.result = .error why) ∨
      ∃ p q, x.result = .ok p ∧ y.result = .ok q ∧ o.Plans p q)

theorem plans_same {r : Response} (h : o.response r = r) : o.Plans (.answer r) (.answer r) := by
  have hplans := Plans.answer (o := o) r
  rw [h] at hplans
  exact hplans

theorem outcomes_pure {p q : Plan} (h : o.Plans p q) : o.Outcomes (pure p) (pure q) :=
  ⟨rfl, .inr ⟨p, q, rfl, rfl, h⟩⟩

theorem outcomes_bind {α : Type} (x : Outcome α) {f g : α → Outcome Plan}
    (h : ∀ a, o.Outcomes (f a) (g a)) : o.Outcomes (x >>= f) (x >>= g) := by
  rcases x with ⟨why | a, notices⟩
  · exact ⟨rfl, .inl ⟨why, rfl, rfl⟩⟩
  · obtain ⟨hnotices, hresult⟩ := h a
    exact ⟨congrArg (notices ++ ·) hnotices, hresult⟩

variable {page : Page κ} {feed : Feed} {attached : Bool}

theorem outcomes_contribution (f : κ → κ') (batch : Outcome Batch) (receipt : Batch → Receipt) :
    o.Outcomes (contribution page batch receipt)
      (contribution (page.shift f o.revision) batch receipt) := by
  have hclosed : (page.shift f o.revision).closed = page.closed := rfl
  unfold contribution
  rw [hclosed]
  split
  · exact outcomes_pure (plans_same (o.response_refusedFor _ _))
  · exact outcomes_bind batch fun b => outcomes_pure (.contribute b (receipt b))

theorem outcomes_fragmentPlan (f : κ → κ') (fields : List (Text × Json)) :
    o.Outcomes (fragmentPlan page fields) (fragmentPlan (page.shift f o.revision) fields) := by
  unfold fragmentPlan
  split
  · split
    · exact outcomes_pure (plans_same (o.response_refusedFor _ _))
    · exact outcomes_bind _ fun b => outcomes_contribution f (.done b) _
  · exact outcomes_pure (plans_same (o.response_refused _ _))

theorem response_members {response : Response} (h : members r = .error response) :
    o.response response = response := by
  rcases refused_of_members h with rfl | rfl
  · exact o.response_refused _ _
  · rfl

theorem response_find {response : Response} (h : Route.find r = .error response) :
    o.response response = response := by
  rcases refused_of_find h with rfl | rfl
  · exact o.response_refused _ _
  · exact o.response_refused _ _

theorem implementors_shift (f : κ → κ') (page : Page κ) (r : Request) :
    implementors (page.shift f o.revision) (o.request r) = implementors page r := by
  have htable : (page.shift f o.revision).table = page.table := rfl
  simp only [implementors, filter?, parameter?_other r (by decide : "synthetic" ≠ "since"),
    parameter?_other r (by decide : "trait" ≠ "since"), htable]

/-- The cursor of a request and that of the shifted request. -/
theorem cursors (hr : o.Fits r) :
    (∃ why, Query.cursor (givenSince r) = .error why ∧
        Query.cursor (givenSince (o.request r)) = .error why) ∨
      ∃ n n', Query.cursor (givenSince r) = .ok n ∧
        Query.cursor (givenSince (o.request r)) = .ok n' ∧ Feed.CursorShift o.seq n n' := by
  unfold givenSince
  rw [parameter?_request]
  rcases hsince : r.parameter? "since" with _ | s
  · exact .inr ⟨0, 0, rfl, rfl, .inr ⟨rfl, rfl⟩⟩
  · have hmem : ("since", s) ∈ r.query := by
      obtain ⟨⟨name, s'⟩, hfound, rfl⟩ := Option.map_eq_some_iff.1 hsince
      obtain rfl : name = "since" := by simpa using List.find?_some hfound
      exact List.mem_reverse.1 (List.mem_of_find?_eq_some hfound)
    have hshifted := cursor_since fun n hn => hr s n hmem hn
    simp only [Option.map_some, if_true, hshifted]
    rcases Query.cursor (.text s) with why | n
    · exact .inl ⟨why, rfl, rfl⟩
    · exact .inr ⟨n, n + o.seq, rfl, rfl, .inl rfl⟩

theorem plans_pollPlan (f : κ → κ') (hfeed : feed.Numbered) (hr : o.Fits r) :
    o.Plans (pollPlan page feed attached r)
      (pollPlan (page.shift f o.revision) (feed.shift o.seq) attached (o.request r)) := by
  have hclosed : (page.shift f o.revision).closed = page.closed := rfl
  unfold pollPlan
  rw [hclosed]
  rcases cursors hr with ⟨why, hcursor, hcursor'⟩ | ⟨n, n', hcursor, hcursor', hn⟩
  · rw [hcursor, hcursor']
    exact plans_same (o.response_refusedFor _ _)
  · rw [hcursor, hcursor']
    simp only
    split
    · rw [o.response_deliveries hfeed hn]
      exact .answer _
    · split
      · exact plans_same (o.response_refusedFor _ _)
      · exact .poll hn

theorem outcomes_planAt (f : κ → κ') (hfeed : feed.Numbered) (hr : o.Fits r) (route : Route) :
    o.Outcomes (planAt route page feed attached r)
      (planAt route (page.shift f o.revision) (feed.shift o.seq) attached (o.request r)) := by
  have hmembers : members (o.request r) = members r := rfl
  cases route with
  | health | description => exact outcomes_pure (plans_same rfl)
  | reset => exact outcomes_pure .reset
  | events =>
    rw [planAt, planAt, response_events]
    exact outcomes_pure (.answer _)
  | traits => exact outcomes_pure (plans_same (o.response_traits page))
  | implementors =>
    rw [planAt, planAt, implementors_shift]
    exact outcomes_pure (plans_same (o.response_implementors page r))
  | batches =>
    rw [planAt, planAt, hmembers]
    rcases hfields : members r with response | fields
    · exact outcomes_pure (plans_same (response_members hfields))
    · exact outcomes_contribution f _ _
  | fragments =>
    rw [planAt, planAt, hmembers]
    rcases hfields : members r with response | fields
    · exact outcomes_pure (plans_same (response_members hfields))
    · exact outcomes_fragmentPlan f fields
  | deliveries => exact outcomes_pure (plans_pollPlan f hfeed hr)

/-- A shifted request to a shifted page with a shifted feed comes to the same, shifted. -/
theorem plans_plan (f : κ → κ') (hfeed : feed.Numbered) (hr : o.Fits r) :
    o.Plans (plan page feed attached r).1
        (plan (page.shift f o.revision) (feed.shift o.seq) attached (o.request r)).1 ∧
      (plan (page.shift f o.revision) (feed.shift o.seq) attached (o.request r)).2 =
        (plan page feed attached r).2 := by
  have hfind : Route.find (o.request r) = Route.find r := rfl
  have hmethod : (o.request r).method = r.method := rfl
  unfold plan
  rw [hfind, hmethod]
  rcases hroute : Route.find r with response | route
  · refine ⟨plans_same ?_, rfl⟩
    rw [response_forMethod, response_find hroute]
  · have hplanned : o.Outcomes (planAt route page feed attached r)
        (planAt route (page.shift f o.revision) (feed.shift o.seq) attached (o.request r)) :=
      outcomes_planAt f hfeed hr route
    obtain ⟨hnotices, hresult⟩ := hplanned
    simp only
    rw [← hnotices]
    rcases hresult with ⟨why, hresult, hresult'⟩ | ⟨p, q, hresult, hresult', hplans⟩
    · rw [hresult, hresult']
      exact ⟨plans_same rfl, rfl⟩
    · rw [hresult, hresult']
      cases hplans with
      | answer response =>
        refine ⟨?_, rfl⟩
        simp only
        rw [← response_forMethod]
        exact .answer _
      | contribute b receipt => exact ⟨.contribute b receipt, rfl⟩
      | poll hn => exact ⟨.poll hn, rfl⟩
      | reset => exact ⟨.reset, rfl⟩

end Offset
end Api
end TraitIndex
