import TraitIndex.Proofs.ClientContribution
import TraitIndex.Proofs.Reading

/-! Requests that change nothing.

    A request comes to an answer, which changes nothing, or to one operation on the page with an
    answer that tells success. So whatever is not told as success has changed nothing, at whichever
    layer it failed, unless success was to be told in an answer that cannot be sent. Nor does a
    request that only reads, and all reading is of this kind but a poll, which attaches the feed. A
    poll is a request for the path of the deliveries, slashes at its end and one line feed
    apart. -/

namespace TraitIndex

namespace Api

/-! ### Plans -/

/-- The statuses that there are. -/
def statuses : List Nat := [200, 400, 404, 405, 409, 422, 500]

/-- The request is to read, and not at the path of the deliveries. -/
def Request.ReadsOnly (r : Request) : Prop :=
  r.method = "GET" ∧ Text.trimSlashes r.path ∉ ["/api/deliveries", "/api/deliveries\n"]

/-- An answer comes under one of the statuses. -/
def Plan.Told (p : Plan) : Prop := ∀ response, p = .answer response → response.status ∈ statuses

theorem told_answer {response : Response} (h : response.status ∈ statuses) :
    (Plan.answer response).Told := by
  rintro _ ⟨⟩
  exact h

theorem status_giving {status : Nat} (h : status ∈ statuses) (j : Json) :
    (Response.giving status j).status ∈ statuses := by
  unfold Response.giving
  split
  · exact h
  · exact (by decide : 500 ∈ statuses)

theorem status_success (j : Json) : (Response.success j).status ∈ statuses :=
  status_giving (List.mem_cons_self ..) j

theorem status_refused {status : Nat} (h : status ∈ statuses) (detail : Text) :
    (Response.refused status detail).status ∈ statuses := status_giving h _

theorem status_refusedFor {status : Nat} (h : status ∈ statuses) (why : Fault) :
    (Response.refusedFor status why).status ∈ statuses := status_refused h _

theorem status_forMethod (response : Response) (method : String) :
    (response.forMethod method).status = response.status := by
  unfold Response.forMethod
  split
  · rfl
  · rfl

variable {κ : Type} {page : Page κ} {feed : Feed} {attached : Bool} {r : Request} {p : Plan}

theorem status_implementors (page : Page κ) (r : Request) :
    (implementors page r).status ∈ statuses := by
  unfold implementors
  split
  · exact status_refusedFor (by decide) _
  · split
    · exact status_success _
    · split
      · exact status_refusedFor (by decide) _
      · split
        · exact status_success _
        · exact status_refused (by decide) _

theorem status_members {response : Response} (h : members r = .error response) :
    response.status ∈ statuses := by
  rcases refused_of_members h with rfl | rfl
  · exact status_refused (by decide) _
  · exact (by decide : 422 ∈ statuses)

theorem told_contribution {batch : Outcome Batch} {receipt : Batch → Receipt}
    (h : (contribution page batch receipt).result = .ok p) : p.Told := by
  unfold contribution at h
  split at h
  · rw [← Except.ok.inj h]
    exact told_answer (status_refusedFor (by decide) _)
  · obtain ⟨b, -, hb⟩ := Outcome.ok_of_bind_ok h
    rw [← Except.ok.inj hb]
    rintro _ ⟨⟩

theorem told_fragmentPlan {fields : List (Text × Json)}
    (h : (fragmentPlan page fields).result = .ok p) : p.Told := by
  unfold fragmentPlan at h
  split at h
  · split at h
    · rw [← Except.ok.inj h]
      exact told_answer (status_refusedFor (by decide) _)
    · obtain ⟨b, -, hb⟩ := Outcome.ok_of_bind_ok h
      exact told_contribution hb
  · rw [← Except.ok.inj h]
    exact told_answer (status_refused (by decide) _)

theorem told_pollPlan (page : Page κ) (feed : Feed) (attached : Bool) (r : Request) :
    (pollPlan page feed attached r).Told := by
  unfold pollPlan
  split
  · exact told_answer (status_refusedFor (by decide) _)
  · split
    · exact told_answer (status_success _)
    · split
      · exact told_answer (status_refusedFor (by decide) _)
      · rintro _ ⟨⟩

theorem told_planAt {route : Route} (h : (planAt route page feed attached r).result = .ok p) :
    p.Told := by
  cases route with
  | batches =>
    simp only [planAt] at h
    split at h
    · rename_i hmembers
      rw [← Except.ok.inj h]
      exact told_answer (status_members hmembers)
    · exact told_contribution h
  | fragments =>
    simp only [planAt] at h
    split at h
    · rename_i hmembers
      rw [← Except.ok.inj h]
      exact told_answer (status_members hmembers)
    · exact told_fragmentPlan h
  | deliveries =>
    rw [← Except.ok.inj h]
    exact told_pollPlan page feed attached r
  | reset =>
    rw [← Except.ok.inj h]
    rintro _ ⟨⟩
  | implementors =>
    rw [← Except.ok.inj h]
    exact told_answer (status_implementors page r)
  | description =>
    rw [← Except.ok.inj h]
    exact told_answer (by decide)
  | health | events | traits =>
    rw [← Except.ok.inj h]
    exact told_answer (status_success _)

theorem told_plan (page : Page κ) (feed : Feed) (attached : Bool) (r : Request) :
    (plan page feed attached r).1.Told := by
  unfold plan
  split
  · rename_i response hfind
    refine told_answer ?_
    rw [status_forMethod]
    rcases refused_of_find hfind with rfl | rfl
    · exact status_refused (by decide) _
    · exact status_refused (by decide) _
  · rename_i route hfind
    have htold : ∀ p, (planAt route page feed attached r).result = .ok p → p.Told :=
      fun p => told_planAt
    simp only
    split
    · rename_i response hplanned
      refine told_answer ?_
      rw [status_forMethod]
      exact htold _ hplanned _ rfl
    · rename_i p _ hplanned
      exact htold p hplanned
    · exact told_answer (by decide)

theorem path_of_exactly {path : String} (h : Route.exactly? path = some .deliveries) :
    path ∈ ["/api/deliveries", "/api/deliveries\n"] := by
  obtain ⟨⟨name, route⟩, hfound, hroute⟩ := Option.map_eq_some_iff.1 h
  obtain rfl : route = .deliveries := hroute
  have hname : ∀ entry ∈ Route.table, entry.2 = .deliveries → entry.1 = "/api/deliveries" := by
    decide
  obtain rfl : name = "/api/deliveries" := hname _ (List.mem_of_find?_eq_some hfound) rfl
  have htaken := List.find?_some hfound
  rcases of_decide_eq_true htaken with rfl | rfl
  · exact List.mem_cons_self ..
  · decide

/-- Where the deliveries are found, nothing but slashes and a line feed follows their path. -/
theorem path_of_deliveries {path : String} (h : Route.at? path = some .deliveries) :
    Text.trimSlashes path ∈ ["/api/deliveries", "/api/deliveries\n"] := by
  rcases Option.or_eq_some_iff.1 h with hexact | ⟨-, htrimmed⟩
  · have htrim : ∀ path ∈ ["/api/deliveries", "/api/deliveries\n"],
        Text.trimSlashes path = path := by decide
    have hpath := path_of_exactly hexact
    rw [htrim path hpath]
    exact hpath
  · exact path_of_exactly htrimmed

/-- A request that only reads comes to an answer. -/
theorem plan_readsOnly (h : r.ReadsOnly) (page : Page κ) (feed : Feed) (attached : Bool) :
    ∃ response notices, plan page feed attached r = (.answer response, notices) := by
  obtain ⟨hmethod, hpath⟩ := h
  rcases hfind : Route.find r with response | route
  · exact ⟨response.forMethod r.method, [], by rw [plan, hfind]⟩
  · obtain ⟨hroute, hget⟩ := found_of_find hfind
    have hanswer : ∀ response, planAt route page feed attached r = ⟨.ok (.answer response), []⟩ →
        ∃ response notices, plan page feed attached r = (.answer response, notices) := by
      intro response hplanned
      exact ⟨response.forMethod r.method, [], by simp only [plan, hfind, hplanned]⟩
    rw [hmethod] at hget
    cases route with
    | batches | fragments | reset => exact absurd hget (by decide)
    | deliveries => exact absurd (path_of_deliveries hroute) hpath
    | health | events | traits | implementors | description => exact hanswer _ rfl

/-- So one that comes to an operation on the page does not only read. -/
theorem not_readsOnly_of_plan {notices : List Notice}
    (hplan : plan page feed attached r = (p, notices)) (hne : ∀ response, p ≠ .answer response) :
    ¬ r.ReadsOnly := by
  intro h
  obtain ⟨response, _, hanswer⟩ := plan_readsOnly h page feed attached
  exact hne response (congrArg Prod.fst (hplan.symm.trans hanswer))

end Api

namespace Scenario

/-! ### Requests to a site -/

/-- One who asked is told success, or would be if the answer could be sent. -/
def Tells (origin : Option String) (reply : Except Fault Reply) : Prop :=
  ∃ response : Api.Response, reply = .ok (.response response origin) ∧
    (response.status = 200 ∨ response.status = 500 ∧ response.body = .unsendable)

variable {site : Site} {d : Api.Draft} {r : Api.Request}

theorem tells_success (origin : Option String) (j : Json) :
    Tells origin (.ok (.response (.success j) origin)) := by
  refine ⟨_, rfl, ?_⟩
  cases h : j.isWhole with
  | true => exact .inl (by rw [Api.Response.success_of_isWhole h])
  | false =>
    rw [Api.Response.success, Api.Response.giving_of_not_isWhole h]
    exact .inr ⟨rfl, rfl⟩

theorem tells_receipt (origin : Option String) (receipt : Api.Receipt) (revision : Nat) :
    Tells origin (.ok (.response (receipt.response revision) origin)) := by
  cases receipt with
  | batch b => exact tells_success origin _
  | fragment trait b => exact tells_success origin _

theorem tells_awaited (site : Site) (awaited : Awaited) (origin : Option String) :
    Tells origin ((Asker.direct origin).hears (site.response awaited)) := by
  cases awaited with
  | receipt receipt => exact tells_receipt origin receipt _
  | deliveries n => exact tells_success origin _

/-- A request is answered on the spot and changes nothing, or it is no request that only reads and
    begins something of which success will be told. -/
def Site.Takes (site : Site) (a : Action) (r : Api.Request) : Prop :=
  (∃ response : Api.Response, response.status ∈ Api.statuses ∧
      site.Begins a (site, none) fun _ => .ok (.response response r.origin)) ∨
    ¬ r.ReadsOnly ∧ ∃ moved reply, site.Begins a moved reply ∧ ∀ site', Tells r.origin (reply site')

theorem takes_page (htarget : site.target = .page) (hr : d.request = .ok r) :
    site.Takes (.request d) r := by
  have hact := site.act_request htarget hr
  have htold := Api.told_plan site.page site.serverFeed
    (site.page.relay.consumer = some .serverFeed) r
  rcases hplan : Api.plan site.page site.serverFeed
    (site.page.relay.consumer = some .serverFeed) r with ⟨plan, notices⟩
  rw [hplan] at htold
  simp only [Site.servePage, hplan] at hact
  have hchanges := Api.not_readsOnly_of_plan hplan
  cases plan with
  | answer response => exact .inl ⟨response, htold response rfl, _, _, hact, rfl⟩
  | contribute b receipt =>
    exact .inr ⟨hchanges (by simp), _, _, begins_afterServing hact, fun _ => tells_awaited ..⟩
  | poll n =>
    exact .inr ⟨hchanges (by simp), _, _, begins_afterServing hact, fun _ => tells_awaited ..⟩
  | reset =>
    exact .inr ⟨hchanges (by simp), (_, none), fun _ => .ok (.response Api.healthy r.origin),
      ⟨_, _, hact, rfl⟩, fun _ => ⟨Api.healthy, rfl, .inl rfl⟩⟩

/-- So does a server with a page of its own. -/
theorem takes_own (htarget : ¬ site.target = .page) (hr : d.request = .ok r) :
    site.Takes (.request d) r := by
  have htold := Api.told_plan site.own.page site.own.feed site.own.page.relay.consumer.isSome r
  have hact : site.act (.request d) = ({ site with own := (site.own.answer r).1 },
      .ended (.ok (.response (site.own.answer r).2.1 r.origin)), (site.own.answer r).2.2) := by
    simp only [Site.act, hr, Site.serve, htarget, if_false]
    rfl
  rcases hplan : Api.plan site.own.page site.own.feed site.own.page.relay.consumer.isSome r
    with ⟨plan, notices⟩
  rw [hplan] at htold
  simp only [Api.Service.answer, hplan] at hact
  have hchanges := Api.not_readsOnly_of_plan hplan
  cases plan with
  | answer response => exact .inl ⟨response, htold response rfl, _, _, hact, rfl⟩
  | contribute b receipt =>
    exact .inr ⟨hchanges (by simp), (_, none), fun _ => _, ⟨_, _, hact, rfl⟩,
      fun _ => tells_receipt r.origin receipt _⟩
  | poll n =>
    exact .inr ⟨hchanges (by simp), (_, none), fun _ => _, ⟨_, _, hact, rfl⟩,
      fun _ => tells_success r.origin _⟩
  | reset =>
    exact .inr ⟨hchanges (by simp), (_, none), fun _ => _, ⟨_, _, hact, rfl⟩,
      fun _ => ⟨Api.healthy, rfl, .inl rfl⟩⟩

theorem takes (site : Site) (hr : d.request = .ok r) : site.Takes (.request d) r := by
  by_cases htarget : site.target = .page
  · exact takes_page htarget hr
  · exact takes_own htarget hr

end Scenario
end TraitIndex
