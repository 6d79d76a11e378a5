import TraitIndex.Proofs.Reading
import TraitIndex.Proofs.SentBatch
import TraitIndex.Proofs.WhilePending

/-! Contributing through a client.

    A batch that a client sends goes over the wire as a document and is taken in by the server. It
    leaves the page, its consumers and everything that they do as the batch under the texts of its
    keys leaves them where it is contributed on the spot: of two keys with one text the client sends
    only the later, so where no two keys have one text there is no difference at all. -/

namespace TraitIndex

/-! ### The server's side -/

namespace Api

variable {κ : Type} {page : Page κ} {feed : Feed} {attached : Bool} {r : Request}

/-- A batch in the body of a request is contributed to an open page. -/
theorem plan_batches {fields : List (Text × Json)} {b : Batch}
    (hfind : Route.find r = .ok .batches) (hopen : page.closed = false)
    (hbody : Json.parseSent r.body.toUTF8 = .ok (.object fields))
    (hbatch : (Intake.batch (.map (Value.ofFields fields))).result = .ok b) :
    (plan page feed attached r).1 = .contribute b (.batch b) := by
  have hmembers : members r = .ok fields := by
    rw [members, hbody]
  have hplanned : (planAt .batches page feed attached r).result =
      .ok (.contribute b (.batch b)) := by
    rw [planAt, hmembers]
    simp only [contribution, hopen, Bool.false_eq_true, if_false]
    rcases hbatch' : Intake.batch (.map (Value.ofFields fields)) with ⟨result, notices⟩
    rw [hbatch'] at hbatch
    obtain rfl : result = .ok b := hbatch
    rfl
  simp only [plan, hfind, hplanned]

end Api

namespace Scenario

open Client Intake

/-! ### The client's side -/

/-- Clients of the site reach an endpoint at a path, and take its answers. -/
def Site.Reaches (site : Site) (base : Url) (path : String) (route : Api.Route) : Prop :=
  (Url.ofString (Server.clientUrl site.url) >>= Url.sendable) = .ok base ∧
    Api.Route.at? (base.extend { path := path.toList }).place = some route ∧
    (base.extend { path := path.toList }).isLegible = true

/-- What a client sends to an endpoint that it reaches is taken by the server of the page. -/
theorem Site.ask_of_reaches {site : Site} {base : Url} {path body : String} {route : Api.Route}
    {call : Client.Call} (htarget : site.target = .page) (hreach : site.Reaches base path route)
    (hmethod : "POST" ∈ route.methods)
    (hrequest : call.request = .ok { method := "POST", path, body }) :
    ∃ r : Api.Request, r.body = body ∧ Api.Route.find r = .ok route ∧
      site.ask call = site.servePage r (.client call (base.extend { path := path.toList })) := by
  obtain ⟨hbase, hroute, -⟩ := hreach
  obtain ⟨r, hr⟩ : ∃ r : Api.Request, r = { method := "POST", path, body } := ⟨_, rfl⟩
  have haddress : r.addressBehind base = base.extend { path := path.toList } := by
    rw [hr]
    rfl
  refine ⟨r.behind base, by rw [hr]; rfl, ?_, ?_⟩
  · have hpath : (r.behind base).path = (base.extend { path := path.toList }).place := by
      rw [Api.Request.behind, haddress]
    have hsent : (r.behind base).method ∈ route.methods := by
      rw [hr]
      exact hmethod
    rw [Api.Route.find, hpath, hroute]
    exact if_pos hsent
  · have hrequestFor : site.requestFor call = .ok (r, base) := by
      rw [Site.requestFor, hrequest, hr]
      obtain ⟨u, hu, hsendable⟩ := ok_of_bind_ok hbase
      rw [hu]
      show (Url.sendable u >>= fun base => _) = _
      rw [hsendable]
      rfl
    simp only [Site.ask, hrequestFor, Site.serve, htarget, if_true, haddress]

theorem interpret_contribute {batch : Value} {text : String} {fields : List (Text × Json)}
    {xs : List Json} (hparse : Json.parseSent text.toUTF8 = .ok (.object fields))
    (htraits : Fields.get? fields "traits" = some (.list xs)) :
    (Call.contribute batch).interpret 200 text = .ok (.items xs) := by
  simp only [Call.interpret, hparse, ne_eq, not_true_eq_false, if_false, bind, Except.bind,
    memberOr, htraits, Option.getD_some]
  rfl

/-- What a client hears of a success is made of the text of its document. -/
theorem hears_success (call : Client.Call) {address : Url} (haddress : address.isLegible = true)
    {j : Json} {text : String} (htext : j.compact = text) :
    (Asker.client call address).hears (.success j) =
      (call.interpret 200 text).map Reply.client := by
  have hwhole : j.isWhole = true := by
    rw [← Json.isWhole_compact, htext, Text.isWhole_ofString]
  rw [Api.Response.success_of_isWhole hwhole, Asker.hears, if_pos haddress,
    Api.Response.text?_document htext]
  rfl

/-- What a client hears of a contribution: the traits of the batch. -/
theorem hears_receipt {batch : Value} {address : Url} (haddress : address.isLegible = true)
    {b : Batch} (hwhole : ∀ t ∈ b.traits, t.isWhole = true) {revision : Nat}
    (h : Integer.isWritable revision = true) :
    (Asker.client (.contribute batch) address).hears
        ((Api.Receipt.batch b).response revision) =
      .ok (.client (.items (b.traits.map .text))) := by
  obtain ⟨fields, hfields⟩ : ∃ fields : List (Text × Json), fields =
      [(("ok" : Text), .bool true), ("traits", .list (b.traits.map Json.text)),
        ("globalRevision", .int revision)] := ⟨_, rfl⟩
  have hresponse : (Api.Receipt.batch b).response revision = .success (.object fields) := by
    rw [hfields]
    rfl
  have hnames : ([("ok" : Text), "traits", "globalRevision"]).Nodup := by decide
  have htexts : ∀ x ∈ b.traits.map Json.text,
      Json.Sendable x ∧ Json.Plain x ∧ Json.isWhole x = true := by
    intro x hx
    obtain ⟨t, ht, rfl⟩ := List.mem_map.1 hx
    exact ⟨trivial, trivial, hwhole t ht⟩
  have hlist : Json.isWhole (.list (b.traits.map Json.text)) = true :=
    Json.allWhole_iff.2 fun x hx => (htexts x hx).2.2
  obtain ⟨text, htext, hparse⟩ : ∃ text : String, Json.compact (.object fields) = text ∧
      Json.parseSent text.toUTF8 = .ok (.object fields) := by
    rw [hfields]
    refine Json.parseSent_plain
      ⟨trivial, Json.allSendable_iff.2 fun x hx => (htexts x hx).1, h, trivial⟩
      ⟨hnames, trivial, Json.allPlain_iff.2 fun x hx => (htexts x hx).2.1, trivial, trivial⟩
      (Json.fieldsWhole_iff.2 ?_)
    simp only [List.forall_mem_cons]
    exact ⟨⟨rfl, rfl⟩, ⟨rfl, hlist⟩, ⟨rfl, rfl⟩, fun p hp => absurd hp List.not_mem_nil⟩
  have htraits : Fields.get? fields "traits" = some (.list (b.traits.map Json.text)) := by
    rw [hfields]
    rfl
  have hinterpret := @interpret_contribute batch _ _ _ hparse htraits
  rw [hresponse, hears_success _ haddress htext, hinterpret]
  rfl

variable {site : Site} {pairs : List (Value × Value)} {base : Url}

/-- An operation of the page, and a reply that is known when it begins. -/
theorem begins_after {a : Action} {moved : Page Listener × Option (Call Listener)}
    {pending : Pending} {r : Except Fault Reply} {notices : List Notice}
    (hquiet : pending.Quiet fun _ => r)
    (h : site.act a = ((site.after moved pending r).1, (site.after moved pending r).2, notices)) :
    site.Begins a ({ site with page := moved.1 }, moved.2) fun _ => r := by
  obtain ⟨page, _ | call⟩ := moved
  · exact ⟨_, _, h, rfl⟩
  · exact ⟨_, _, h, _, hquiet, rfl⟩

/-- An operation of the page that the server has begun, and its answer. -/
theorem begins_afterServing {a : Action} {moved : Page Listener × Option (Call Listener)}
    {awaited : Awaited} {asker : Asker} {notices : List Notice}
    (h : site.act a = ((site.afterServing moved awaited asker).1,
      (site.afterServing moved awaited asker).2, notices)) :
    site.Begins a ({ site with page := moved.1 }, moved.2) fun site' =>
      asker.hears (site'.response awaited) := by
  obtain ⟨page, _ | call⟩ := moved
  · exact ⟨_, _, h, rfl⟩
  · exact ⟨_, _, h, _, quiet_answer _ _, rfl⟩

theorem begins_contribute {v : Value} {b : Batch} (htarget : site.target = .page)
    (hopen : site.page.closed = false) (hbatch : (batch v).result = .ok b) :
    site.Begins (.contribute v)
      ({ site with page := (site.page.accept b).1 }, (site.page.accept b).2)
      fun _ => .ok (.table b) := by
  have hact : site.act (.contribute v) =
      ((site.after (site.page.accept b) (.reply (.table b)) (.ok (.table b))).1,
        (site.after (site.page.accept b) (.reply (.table b)) (.ok (.table b))).2,
        (batch v).notices) := by
    have hrelay : ¬ site.target = .relay := by
      rw [htarget]
      decide
    rw [Site.act, if_neg hrelay]
    simp only [Site.contribute, htarget, hopen, Bool.false_eq_true, and_false, if_false, hbatch,
      if_true]
  exact begins_after (quiet_reply _) hact

theorem begins_client {b : Batch} (htarget : site.target = .page)
    (hopen : site.page.closed = false) (hreach : site.Reaches base "/api/batches" .batches)
    (hpairs : SendableBatch pairs) (hbatch : (batch (mapping (byText pairs))).result = .ok b) :
    site.Begins (.client (.contribute (.map pairs)))
      ({ site with page := (site.page.accept b).1 }, (site.page.accept b).2)
      fun site' => (Asker.client (.contribute (.map pairs))
        (base.extend { path := "/api/batches".toList })).hears
          (site'.response (.receipt (.batch b))) := by
  obtain ⟨body, fields, hrequest, hparse, hresult⟩ := batch_sent hpairs
  rw [hbatch] at hresult
  obtain ⟨r, hbody, hfind, hask⟩ := Site.ask_of_reaches htarget hreach
    (List.mem_singleton_self _) hrequest
  rw [← hbody] at hparse
  obtain ⟨notices, hplan⟩ : ∃ notices, Api.plan site.page site.serverFeed
      (site.page.relay.consumer = some .serverFeed) r = (.contribute b (.batch b), notices) :=
    ⟨_, Prod.ext (Api.plan_batches hfind hopen hparse hresult) rfl⟩
  have hact : site.act (.client (.contribute (.map pairs))) =
      ((site.afterServing (site.page.accept b) (.receipt (.batch b))
          (.client (.contribute (.map pairs)) (base.extend { path := "/api/batches".toList }))).1,
        (site.afterServing (site.page.accept b) (.receipt (.batch b))
          (.client (.contribute (.map pairs)) (base.extend { path := "/api/batches".toList }))).2,
        notices) := by
    rw [Site.act, hask]
    simp only [Site.servePage, hplan]
  exact begins_afterServing hact

/-- Clients reach the address that a site has at first. -/
theorem reaches_new (site : Site) (hurl : site.url = ({} : Site).url) : ∃ base,
    site.Reaches base "/api/batches" .batches ∧ site.Reaches base "/api/fragments" .fragments := by
  refine ⟨{ scheme := "http".toList, host := "127.0.0.1".toList, port := some 8000 }, ?_, ?_⟩
  all_goals
    rw [Site.Reaches, hurl]
    exact ⟨rfl, by decide +kernel, by decide⟩

/-! ### Both sides -/

/-- A batch that can be sent is contributed to an open page through a client, and on the spot: the
    stage afterwards and what happens on the way are the same as for the batch under the texts of
    its keys, which is the batch itself if no two keys have one text. What the client is told is
    the traits of that batch, while the revision of the page can be written. -/
theorem client_contributes_as_local (stage : Stage) {base : Url} {pairs : List (Value × Value)}
    (htarget : stage.site.target = .page) (hopen : stage.site.page.closed = false)
    (hreach : stage.site.Reaches base "/api/batches" .batches) (hpairs : SendableBatch pairs) :
    ∃ (b : Batch) (stage' : Stage) (events : List Event),
      (batch (mapping (byText pairs))).result = .ok b ∧
      (∃ notices, stage.perform (.act (.contribute (mapping (byText pairs)))) =
        (stage', { reply := .ok (.table b), events, notices })) ∧
      (∃ reply notices, stage.perform (.act (.client (.contribute (.map pairs)))) =
          (stage', { reply, events, notices }) ∧
        (Integer.isWritable stage'.site.page.revision = true →
          reply = .ok (.client (.items (b.traits.map .text))))) ∧
      ((pairs.map fun p => p.1.asText).Nodup →
        (batch (.map pairs)).result = .ok b ∧
        ∃ notices, stage.perform (.act (.contribute (.map pairs))) =
          (stage', { reply := .ok (.table b), events, notices })) := by
  obtain ⟨b, hb⟩ : ∃ b, (batch (mapping (byText pairs))).result = .ok b := by
    refine ⟨_, batch_map fun p hp => ?_⟩
    obtain ⟨q, -, rfl⟩ := List.mem_map.1 hp
    rfl
  have hwhole : ∀ t ∈ b.traits, t.isWhole = true := by
    have hkeys : ∀ p ∈ (byText pairs).map fun p => (Value.text p.1, p.2),
        p.1.isWritable = true := by
      intro p hp
      obtain ⟨q, -, rfl⟩ := List.mem_map.1 hp
      rfl
    intro t ht
    obtain ⟨p, hp, rfl⟩ := exists_key_of_mem_traits hkeys hb ht
    obtain ⟨q, hq, rfl⟩ := List.mem_map.1 hp
    exact (hpairs.byText hq).1
  obtain ⟨stage', events, hperform⟩ := perform_begins stage
    ({ stage.site with page := (stage.site.page.accept b).1 }, (stage.site.page.accept b).2)
  have hclient := hperform _ _ (begins_client htarget hopen hreach hpairs hb)
  refine ⟨b, stage', events, hb, hperform _ _ (begins_contribute htarget hopen hb),
    ⟨_, hclient.choose, hclient.choose_spec, fun hrevision => ?_⟩, fun hnodup => ?_⟩
  · exact hears_receipt hreach.2.2 hwhole hrevision
  · have hbatch : (batch (.map pairs)).result = .ok b := by
      rw [← batch_byText (fun p hp => (hpairs p hp).1) hnodup, hb]
    exact ⟨hbatch, hperform _ _ (begins_contribute htarget hopen hbatch)⟩

/-- A record with all its fields. -/
def filledRecord : Implementor :=
  { displayText := "impl A for é", isSynthetic := true, typePath := "m::é", crate := "k" }

/-- Keys of several kinds; a list and a tuple of entries, some of which are no records, and a value
    that is no list. -/
def variedPairs : List (Value × Value) :=
  [(.int 1, .list [.record filledRecord, .int 7]),
    (.bool true, .tuple [.map [(.text "displayText", .text "impl A")], .null]),
    (.tuple [.null, .text "x"], .list []),
    (.null, .text "no list")]

theorem isWritable_variedPairs : ∀ p ∈ variedPairs, p.1.isWritable = true := by
  have hone : Integer.isWritable 1 = true := Integer.isWritable_digit (by decide)
  simp only [variedPairs, List.forall_mem_cons]
  exact ⟨hone, rfl, rfl, rfl, fun p hp => absurd hp List.not_mem_nil⟩

theorem sendable_variedPairs : SendableBatch variedPairs := by
  intro p hp
  refine ⟨isWritable_variedPairs p hp, ?_⟩
  have hseven : (Value.int 7).Expressible := Integer.isWritable_digit (by decide)
  rw [variedPairs] at hp
  simp only [List.mem_cons, List.not_mem_nil, or_false] at hp
  rcases hp with rfl | rfl | rfl | rfl
  · refine ⟨rfl, fun x hx => ?_⟩
    rcases List.mem_cons.1 hx with rfl | hx
    · exact .inl ⟨_, rfl, by decide⟩
    · exact .inr (List.mem_singleton.1 hx ▸ hseven)
  · refine ⟨rfl, fun x hx => .inr ?_⟩
    rcases List.mem_cons.1 hx with rfl | hx
    · exact ⟨List.nodup_singleton _, rfl, rfl, trivial⟩
    · exact List.mem_singleton.1 hx ▸ trivial
  · exact ⟨rfl, fun x hx => absurd hx List.not_mem_nil⟩
  · exact ⟨rfl, rfl⟩

/-- A site whose page has a batch waiting. -/
def waitingSite : Site := { page := (({} : Page Listener).accept (.single "1" [{}])).1 }

/-- The batch waits behind the other one, and the client is told its traits. -/
theorem client_contributes_as_local_varied : ∃ stage' : Stage,
    (∃ notices, Stage.perform ⟨waitingSite, []⟩ (.act (.client (.contribute (.map variedPairs)))) =
      (stage', { reply := .ok (.client (.items [.text "1", .text "True", .text "(None, 'x')"])),
                 events := [], notices })) ∧
    (∃ b notices, Stage.perform ⟨waitingSite, []⟩ (.act (.contribute (.map variedPairs))) =
      (stage', { reply := .ok (.table b), events := [], notices })) ∧
    stage'.site.page.table.get "1" = [{}, filledRecord, {}] ∧
    stage'.site.page.table.get "True" = [{ displayText := "impl A" }, {}] ∧
    stage'.site.page.relay.backlog.length = 2 := by
  obtain ⟨base, hreach, -⟩ := reaches_new waitingSite rfl
  obtain ⟨b, stage', events, -, -, ⟨reply, notices, hclient, hreply⟩, hlocal⟩ :=
    client_contributes_as_local ⟨waitingSite, []⟩ rfl rfl hreach sendable_variedPairs
  obtain ⟨hbatch, notices', hlocal⟩ := hlocal (by decide)
  obtain ⟨_, hended⟩ := perform_ended ⟨waitingSite, []⟩ (begins_contribute rfl rfl hbatch)
  obtain ⟨rfl, hresult⟩ := Prod.mk.inj (hlocal.symm.trans hended)
  obtain rfl : events = [] := congrArg (·.events) hresult
  obtain rfl := hreply (Integer.isWritable_digit (show 2 < 10 by decide))
  rw [batch_map isWritable_variedPairs] at hbatch
  obtain rfl := Except.ok.inj hbatch
  exact ⟨_, ⟨notices, hclient⟩, ⟨_, notices', hlocal⟩, rfl, rfl, rfl⟩

/-- Two keys with one text: the client sends the later only, on the spot both lists count. -/
theorem client_loses_list_of_same_text :
    ∃ pairs : List (Value × Value),
      pairs = [(.int 1, .list [.record { displayText := "a" }]),
        (.text "1", .list [.record { displayText := "b" }])] ∧
      (Stage.perform { site := {} } (.act (.client (.contribute (.map pairs))))).1.site.page.table =
        .single "1" [{ displayText := "b" }] ∧
      (Stage.perform { site := {} } (.act (.contribute (.map pairs)))).1.site.page.table =
        .single "1" [{ displayText := "a" }, { displayText := "b" }] := by
  obtain ⟨base, hreach, -⟩ := reaches_new {} rfl
  obtain ⟨pairs, hpairs⟩ : ∃ pairs : List (Value × Value), pairs =
      [(.int 1, .list [.record { displayText := "a" }]),
        (.text "1", .list [.record { displayText := "b" }])] := ⟨_, rfl⟩
  have hone : Integer.isWritable 1 = true :=
    Integer.isWritable_digit (by decide)
  have hkeys : ∀ p ∈ pairs, p.1.isWritable = true := by
    rw [hpairs]
    exact List.forall_mem_cons.2 ⟨hone, List.forall_mem_cons.2 ⟨rfl, by simp⟩⟩
  have hsendable : SendableBatch pairs := by
    intro p hp
    refine ⟨hkeys p hp, ?_⟩
    rw [hpairs, List.mem_cons, List.mem_singleton] at hp
    rcases hp with rfl | rfl
    all_goals exact ⟨rfl, fun x hx => .inl ⟨_, List.mem_singleton.1 hx, rfl⟩⟩
  have hsent : (batch (mapping (byText pairs))).result =
      .ok (.single "1" [{ displayText := "b" }]) := by
    rw [hpairs]
    rfl
  have hlocal : (batch (.map pairs)).result =
      .ok (.single "1" [{ displayText := "a" }, { displayText := "b" }]) := by
    rw [batch_map hkeys, hpairs]
    rfl
  refine ⟨pairs, hpairs, ?_, ?_⟩
  · obtain ⟨notices, h⟩ := perform_ended { site := {} }
      (begins_client rfl rfl hreach hsendable hsent)
    rw [h]
    rfl
  · obtain ⟨notices, h⟩ := perform_ended { site := {} } (begins_contribute rfl rfl hlocal)
    rw [h]
    rfl

end Scenario
end TraitIndex
