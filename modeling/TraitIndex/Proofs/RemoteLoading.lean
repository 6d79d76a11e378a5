import Mathlib.Data.List.DropRight
import TraitIndex.Proofs.ClientContribution
import TraitIndex.Proofs.Files
import TraitIndex.Proofs.ReadBack

/-! Loading a fragment near and far.

    A file can be loaded as a fragment by the server itself, or sent to it by a client. The client
    finds out the trait and trims it, the server trims it again, and so does the reading of the
    text; the text itself goes over the wire as a member of a document. None of this makes a
    difference: either both ways contribute the same batch, with all that follows, or neither comes
    to the page. Only a trait whose name has half of a pair is loaded by the server and cannot be
    sent by the client. -/

namespace TraitIndex

/-! ### Names that are trimmed more than once -/

namespace Text

theorem dropWhile_trimBoth (p : CodePoint → Bool) (s : List CodePoint) :
    (trimBoth p s).dropWhile p = trimBoth p s := by
  have hsub : trimBoth p s <+: s.dropWhile p := by
    have h := List.dropWhile_suffix p (l := (s.dropWhile p).reverse)
    rwa [← List.reverse_prefix, List.reverse_reverse] at h
  rcases ht : trimBoth p s with _ | ⟨c, rest⟩
  · rfl
  · rw [ht] at hsub
    obtain ⟨more, hmore⟩ := hsub
    have hc := List.head?_dropWhile_not p s
    rw [← hmore] at hc
    exact List.dropWhile_cons_of_neg (Bool.eq_false_iff.1 hc)

theorem trim_trim (s : Text) : trim (trim s) = trim s := by
  have hends : trimEnd isBlank (trimBoth isBlank s.toList) = trimBoth isBlank s.toList := by
    simp only [trimBoth, trimEnd, List.reverse_reverse, List.dropWhile_idempotent]
  rw [trim, trim, Text.toList_ofList, trimBoth, dropWhile_trimBoth, hends]

end Text

theorem Fragment.parse_trim (source trait : Text) :
    parse source (Text.trim trait) = parse source trait := by
  rw [parse, Text.trim_trim]
  rfl

/-! ### The server's side -/

namespace Api

variable {κ : Type} {page : Page κ} {feed : Feed} {attached : Bool} {r : Request}

/-- What the server makes of a fragment: it is read first, and then the page is asked. -/
theorem plan_fragments {source : String} {name : Text} (hfind : Route.find r = .ok .fragments)
    (hbody : Json.parseSent r.body.toUTF8 =
      .ok (.object [("traitId", .text name), ("source", .text source)]))
    (hname : Text.trim name = name) (hne : name ≠ "") :
    (plan page feed attached r).1 =
      match (Fragment.parse source name).result with
      | .error _ => .answer .internalError
      | .ok b =>
        if page.closed then .answer (.refusedFor 409 .contributionRefused)
        else .contribute b (.fragment name b) := by
  have hmethod : r.method ≠ "HEAD" := fun e =>
    absurd (e ▸ (found_of_find hfind).2) (by decide)
  have htrait : Query.trait "traitId" (.text name) = .ok name := by
    rw [trait_of_ne (by rwa [hname]), hname]
  obtain ⟨fields, hfields⟩ : ∃ fields : List (Text × Json), fields =
      [(("traitId" : Text), .text name), ("source", .text source)] := ⟨_, rfl⟩
  have hmembers : members r = .ok fields := by
    rw [members, hbody, hfields]
  have htold : Fields.get? fields "traitId" = some (.text name) := by
    rw [hfields]
    rfl
  have hsource : Fields.get? fields "source" = some (.text source) := by
    rw [hfields]
    rfl
  have hplanned : planAt .fragments page feed attached r =
      Fragment.parse source name >>= fun b =>
        contribution page (.done b) (.fragment name) := by
    rw [planAt, hmembers]
    simp only [fragmentPlan, hsource, htold, Option.getD_some, Value.ofJson, htrait]
  simp only [plan, hfind, hplanned]
  rcases Fragment.parse source name with ⟨why | b, notices⟩
  · rfl
  · by_cases hclosed : page.closed = true
    · simp only [Outcome.ok_bind, contribution, hclosed, if_true, Outcome.pure_eq,
        Response.forMethod, hmethod, if_false]
    · simp only [Outcome.ok_bind, contribution, hclosed, if_false, Bool.false_eq_true]
      rfl

end Api

namespace Scenario

open Client Loading

/-! ### The client's side -/

/-- The members of what is sent for a fragment. -/
def sentMembers (name : Text) (source : String) : List (Text × Json) :=
  [("traitId", .text name), ("source", .text source)]

/-- They can be sent if the name of the trait can. -/
theorem fieldsWhole_sentMembers (name : Text) (source : String) :
    Json.fieldsWhole (sentMembers name source) = name.isWhole := by
  have hsource : Json.fieldsWhole [("source", .text source)] = true := by
    rw [Json.fieldsWhole, Json.isWhole, Text.isWhole_ofString, Text.isWhole_ofString]
    rfl
  rw [sentMembers, Json.fieldsWhole, hsource, Json.isWhole, Bool.and_true]
  rfl

/-- What a client sends for a fragment: the trimmed name of the trait, and the text as it is. -/
theorem request_fragment {source : String} {t : Text} {v : Value} (hv : Intake.text v = .ok t)
    (hne : Text.trim t ≠ "") :
    (Call.contributeFragment (.text source) v).request =
      (Json.object (sentMembers (Text.trim t) source)).compact.sent.map
        fun body => { method := "POST", path := "/api/fragments", body } := by
  simp only [Call.request, hv, bind, Except.bind, if_neg hne]
  rfl

/-- A client that is answered anything but success fails. -/
theorem hears_failure (call : Client.Call) {address : Url} {r : Api.Response}
    (hlegible : address.isLegible = true) (hstatus : r.status ≠ 200) :
    ∃ why, (Asker.client call address).hears r = .error why := by
  have hfailed : call.interpret r.status (r.text?.getD "") =
      .error (.requestFailed call.what r.status (r.text?.getD "")) := by
    unfold Call.interpret
    exact if_pos hstatus
  refine ⟨.requestFailed call.what r.status (r.text?.getD ""), ?_⟩
  rw [Asker.hears, if_pos hlegible, hfailed]
  rfl

/-- What a client hears of a fragment: how many records there were for the trait. -/
theorem hears_fragment {source trait : Value} {address : Url}
    (hlegible : address.isLegible = true) {name : Text} (hwhole : name.isWhole = true)
    (records : List Implementor) {revision : Nat}
    (hcount : Integer.isWritable records.length = true)
    (hrevision : Integer.isWritable revision = true) :
    (Asker.client (.contributeFragment source trait) address).hears
        ((Api.Receipt.fragment name (.single name records)).response revision) =
      .ok (.client (.count records.length)) := by
  obtain ⟨fields, hfields⟩ : ∃ fields : List (Text × Json), fields =
      [(("ok" : Text), .bool true), ("traitId", .text name),
        ("implementorCount", .int records.length), ("globalRevision", .int revision)] := ⟨_, rfl⟩
  have hresponse : (Api.Receipt.fragment name (.single name records)).response revision =
      .success (.object fields) := by
    rw [hfields, Api.Receipt.response, Table.get_of_mem (List.mem_singleton_self (name, records))]
  have hnames : ([("ok" : Text), "traitId", "implementorCount", "globalRevision"]).Nodup := by
    decide
  have hfieldsWhole : Json.fieldsWhole fields = true := by
    rw [hfields, Json.fieldsWhole_iff]
    simp only [List.forall_mem_cons]
    exact ⟨⟨rfl, rfl⟩, ⟨rfl, hwhole⟩, ⟨rfl, rfl⟩, ⟨rfl, rfl⟩,
      fun p hp => absurd hp List.not_mem_nil⟩
  obtain ⟨text, htext, hparse⟩ : ∃ text : String, Json.compact (.object fields) = text ∧
      Json.parseSent text.toUTF8 = .ok (.object fields) := by
    refine Json.parseSent_plain ?_ ?_ hfieldsWhole
    · rw [hfields]
      exact ⟨trivial, trivial, hcount, hrevision, trivial⟩
    · rw [hfields]
      exact ⟨hnames, trivial, trivial, trivial, trivial, trivial⟩
  have hfound : Fields.get? fields "implementorCount" = some (.int records.length) := by
    rw [hfields]
    rfl
  have hinterpret : (Call.contributeFragment source trait).interpret 200 text =
      .ok (.count records.length) := by
    simp only [Call.interpret, hparse, ne_eq, not_true_eq_false, if_false, bind, Except.bind,
      memberOr, hfound, Option.getD_some]
    rfl
  rw [hresponse, hears_success _ hlegible htext, hinterpret]
  rfl

/-! ### What fails -/

variable {stage : Stage} {site : Site} {path : Text} {trait : Option Value} {base : Url}

/-- The action fails at once: the stage is as it was, and nothing has happened. -/
def Stage.Fails (stage : Stage) (a : Action) : Prop :=
  ∃ why notices, stage.perform (.act a) = (stage, { reply := .error why, events := [], notices })

theorem fails_of_act {a : Action} {why : Fault} {notices : List Notice}
    (h : stage.site.act a = (stage.site, .ended (.error why), notices)) : stage.Fails a := by
  obtain ⟨notices', hperform⟩ := perform_of_act stage h
  exact ⟨why, notices', hperform⟩

/-- What cannot be loaded is not contributed by the server. -/
theorem act_loadFragment_error {why : Fault} (htarget : site.target = .page)
    (h : (fragment site.disk (Path.ofText path) trait).result = .error why) :
    ∃ notices, site.act (.loadFragment path trait) = (site, .ended (.error why), notices) := by
  refine ⟨(fragment site.disk (Path.ofText path) trait).notices, ?_⟩
  rw [Site.act, if_pos htarget]
  simp only [Site.loadFragment, h]

theorem act_loadFragment_closed {b : Batch} (htarget : site.target = .page)
    (hclosed : site.page.closed = true)
    (h : (fragment site.disk (Path.ofText path) trait).result = .ok b) :
    ∃ notices, site.act (.loadFragment path trait) =
      (site, .ended (.error .contributionRefused), notices) := by
  refine ⟨(fragment site.disk (Path.ofText path) trait).notices, ?_⟩
  rw [Site.act, if_pos htarget]
  simp only [Site.loadFragment, h, Site.load, Page.contribute, hclosed, if_true]

theorem quiet_load_nil (n : Nat) : (Pending.load [] n).Quiet fun _ => .ok (.count n) :=
  fun _ => rfl

/-- What the server loads is contributed as a batch, and its records are counted. -/
theorem begins_loadFragment {b : Batch} (htarget : site.target = .page)
    (hopen : site.page.closed = false)
    (h : (fragment site.disk (Path.ofText path) trait).result = .ok b) :
    site.Begins (.loadFragment path trait)
      ({ site with page := (site.page.accept b).1 }, (site.page.accept b).2)
      fun _ => .ok (.count b.recordCount) := by
  have hload : site.load 0 [b] = site.after (site.page.accept b) (.load [] b.recordCount)
      (.ok (.count b.recordCount)) := by
    rw [Site.load, Page.contribute, if_neg (by simp [hopen])]
    rcases site.page.accept b with ⟨page, _ | call⟩
    · simp only [Site.load, Site.after, Nat.zero_add]
    · simp only [Site.after, Nat.zero_add]
  have hact : site.act (.loadFragment path trait) =
      ((site.after (site.page.accept b) (.load [] b.recordCount) (.ok (.count b.recordCount))).1,
        (site.after (site.page.accept b) (.load [] b.recordCount) (.ok (.count b.recordCount))).2,
        (fragment site.disk (Path.ofText path) trait).notices) := by
    rw [Site.act, if_pos htarget]
    simp only [Site.loadFragment, h, hload]
  exact begins_after (quiet_load_nil b.recordCount) hact

/-! ### What a client sends -/

/-- A text that is read, with a trait that is known, is what a client sends. -/
theorem ofFile_ok {d : Disk} {p : Path} {source : String} {t : Text}
    (hread : d.readText p = .ok source)
    (htrait : traitFor p trait = .ok t) : ∃ v, Intake.text v = .ok t ∧
      Call.ofFile d p trait = .ok (.contributeFragment (.text source) v) := by
  cases trait with
  | some v =>
    refine ⟨v, htrait, ?_⟩
    rw [Call.ofFile, hread]
    rfl
  | none =>
    have htold : traitOf p p.toText = .ok t := htrait
    refine ⟨.text t, rfl, ?_⟩
    rw [Call.ofFile, htold, hread]
    rfl

/-- What a client cannot read, name or send does not come to the server. -/
theorem act_client_unsent {why : Fault}
    (h : Call.ofFile site.disk (Path.ofText path) trait >>= Call.request = .error why) :
    site.act (.clientLoadFragment path trait) = (site, .ended (.error why), []) := by
  rw [Site.act, Site.clientLoadFragment]
  rcases error_of_bind_error h with hfile | ⟨call, hfile, hrequest⟩
  · rw [hfile]
    rfl
  · rw [hfile]
    show site.ask call = _
    have hfor : site.requestFor call = .error why := by
      rw [Site.requestFor, hrequest]
      rfl
    rw [Site.ask, hfor]

theorem unsent_of_unread {d : Disk} {p : Path} {why : Fault} (h : d.readText p = .error why) :
    ∃ why', Call.ofFile d p trait >>= Call.request = .error why' := by
  cases trait with
  | some v =>
    refine ⟨why, ?_⟩
    rw [Call.ofFile, h]
    rfl
  | none =>
    rw [Call.ofFile, h]
    rcases traitOf p p.toText with why' | t
    · exact ⟨why', rfl⟩
    · exact ⟨why, rfl⟩

theorem unsent_of_unnamed {d : Disk} {p : Path} {source : String} {why : Fault}
    (hread : d.readText p = .ok source) (h : traitFor p trait = .error why) :
    Call.ofFile d p trait >>= Call.request = .error why := by
  cases trait with
  | some v =>
    have hv : Intake.text v = .error why := h
    rw [Call.ofFile, hread]
    show (Intake.text v >>= fun t => _) = _
    rw [hv]
    rfl
  | none =>
    have htold : traitOf p p.toText = .error why := h
    rw [Call.ofFile, htold]
    rfl

theorem unsent_of_blank {d : Disk} {p : Path} {source : String} {t : Text}
    (hread : d.readText p = .ok source) (htrait : traitFor p trait = .ok t)
    (hblank : Text.trim t = "") :
    Call.ofFile d p trait >>= Call.request = .error (.empty "trait_id") := by
  obtain ⟨v, hv, hfile⟩ := ofFile_ok hread htrait
  simp only [hfile, Call.request, hv, bind, Except.bind, if_pos hblank]

theorem unsent_of_half {d : Disk} {p : Path} {source : String} {t : Text}
    (hread : d.readText p = .ok source) (htrait : traitFor p trait = .ok t)
    (hne : Text.trim t ≠ "") (hhalf : (Text.trim t).isWhole = false) :
    Call.ofFile d p trait >>= Call.request = .error .unwritableText := by
  obtain ⟨v, hv, hfile⟩ := ofFile_ok hread htrait
  have hunsent : (Json.object (sentMembers (Text.trim t) source)).compact.sent =
      .error .unwritableText := by
    refine Text.sent_of_not_isWhole ?_
    rw [Json.isWhole_compact, Json.isWhole, fieldsWhole_sentMembers, hhalf]
  rw [hfile]
  show (Call.contributeFragment (.text source) v).request = _
  rw [request_fragment hv hne, hunsent]
  rfl

/-- What the server makes of a text for a trait when it comes over the wire. -/
def sentPlan (page : Page Listener) (source : String) (t : Text) : Api.Plan :=
  match (Fragment.parse source t).result with
  | .error _ => .answer .internalError
  | .ok b =>
    if page.closed then .answer (.refusedFor 409 .contributionRefused)
    else .contribute b (.fragment (Text.trim t) b)

/-- What a client sends comes to the plan of the server. -/
theorem act_client_sent {source : String} {t : Text} (htarget : site.target = .page)
    (hreach : site.Reaches base "/api/fragments" .fragments)
    (hread : site.disk.readText (Path.ofText path) = .ok source)
    (htrait : traitFor (Path.ofText path) trait = .ok t) (hne : Text.trim t ≠ "")
    (hwhole : (Text.trim t).isWhole = true) :
    ∃ (r : Api.Request) (v : Value) (notices : List Notice),
      site.act (.clientLoadFragment path trait) = site.servePage r
        (.client (.contributeFragment (.text source) v)
          (base.extend { path := "/api/fragments".toList })) ∧
      Api.plan site.page site.serverFeed (site.page.relay.consumer = some .serverFeed) r =
        (sentPlan site.page source t, notices) := by
  obtain ⟨v, hv, hfile⟩ := ofFile_ok hread htrait
  have hnames : ([("traitId" : Text), "source"]).Nodup := by decide
  obtain ⟨body, hcompact, hparse⟩ :
      ∃ body : String, (Json.object (sentMembers (Text.trim t) source)).compact = body ∧
        Json.parseSent body.toUTF8 = .ok (.object (sentMembers (Text.trim t) source)) :=
    Json.parseSent_plain ⟨trivial, trivial, trivial⟩ ⟨hnames, trivial, trivial, trivial⟩
      ((fieldsWhole_sentMembers _ _).trans hwhole)
  have hrequest : (Call.contributeFragment (.text source) v).request =
      .ok { method := "POST", path := "/api/fragments", body } := by
    rw [request_fragment hv hne, hcompact, Text.sent_ofString]
    rfl
  obtain ⟨r, hbody, hfind, hask⟩ :=
    Site.ask_of_reaches htarget hreach (List.mem_singleton_self _) hrequest
  rw [← hbody] at hparse
  refine ⟨r, v, _, ?_, Prod.ext ?_ rfl⟩
  · rw [Site.act, Site.clientLoadFragment, hfile, ← hask]
  · rw [Api.plan_fragments hfind hparse (Text.trim_trim t) hne, Fragment.parse_trim]
    rfl

/-! ### Both sides -/

/-- A client's fragment is contributed by the server of an open page, which answers when all that
    follows has ended. -/
theorem begins_clientLoadFragment {source : String} {t : Text} {b : Batch}
    (htarget : site.target = .page)
    (hopen : site.page.closed = false) (hreach : site.Reaches base "/api/fragments" .fragments)
    (hread : site.disk.readText (Path.ofText path) = .ok source)
    (htrait : traitFor (Path.ofText path) trait = .ok t) (hne : Text.trim t ≠ "")
    (hwhole : (Text.trim t).isWhole = true) (hparse : (Fragment.parse source t).result = .ok b) :
    ∃ v, site.Begins (.clientLoadFragment path trait)
      ({ site with page := (site.page.accept b).1 }, (site.page.accept b).2)
      fun site' => (Asker.client (.contributeFragment (.text source) v)
        (base.extend { path := "/api/fragments".toList })).hears
          (site'.response (.receipt (.fragment (Text.trim t) b))) := by
  obtain ⟨r, v, notices, hact, hplan⟩ := act_client_sent htarget hreach hread htrait hne hwhole
  have hsent : sentPlan site.page source t = .contribute b (.fragment (Text.trim t) b) := by
    simp only [sentPlan, hparse, hopen, Bool.false_eq_true, if_false]
  simp only [Site.servePage, hplan, hsent] at hact
  exact ⟨v, begins_afterServing hact⟩

/-- A client whose fragment is refused, or is none, fails. -/
theorem fails_clientLoadFragment {source : String} {t : Text} {response : Api.Response}
    (htarget : stage.site.target = .page)
    (hreach : stage.site.Reaches base "/api/fragments" .fragments)
    (hread : stage.site.disk.readText (Path.ofText path) = .ok source)
    (htrait : traitFor (Path.ofText path) trait = .ok t) (hne : Text.trim t ≠ "")
    (hsent : sentPlan stage.site.page source t = .answer response)
    (hstatus : response.status ≠ 200) : stage.Fails (.clientLoadFragment path trait) := by
  rcases hwhole : (Text.trim t).isWhole
  · exact fails_of_act (act_client_unsent (unsent_of_half hread htrait hne hwhole))
  obtain ⟨r, v, notices, hact, hplan⟩ := act_client_sent htarget hreach hread htrait hne hwhole
  obtain ⟨why, hwhy⟩ := hears_failure (.contributeFragment (.text source) v) hreach.2.2 hstatus
  simp only [Site.servePage, hplan, hsent, hwhy] at hact
  exact fails_of_act hact

/-- What cannot be loaded is not sent, or is not taken by the server. -/
theorem fails_client_of_not_loaded (htarget : stage.site.target = .page)
    (hreach : stage.site.Reaches base "/api/fragments" .fragments) {why : Fault}
    (h : (fragment stage.site.disk (Path.ofText path) trait).result = .error why) :
    stage.Fails (.clientLoadFragment path trait) := by
  rcases hread : stage.site.disk.readText (Path.ofText path) with why' | source
  · obtain ⟨why', hunsent⟩ := unsent_of_unread hread
    exact fails_of_act (act_client_unsent hunsent)
  · rcases htrait : traitFor (Path.ofText path) trait with why' | t
    · exact fails_of_act (act_client_unsent (unsent_of_unnamed hread htrait))
    · by_cases hne : Text.trim t = ""
      · exact fails_of_act (act_client_unsent (unsent_of_blank hread htrait hne))
      · have hparse : (Fragment.parse source t).result = .error why := by
          rwa [fragment_of_known hread htrait] at h
        have hsent : sentPlan stage.site.page source t = .answer .internalError := by
          simp only [sentPlan, hparse]
        exact fails_clientLoadFragment htarget hreach hread htrait hne hsent (by decide)

/-- A file is loaded as a fragment by the server of a page, or sent to it by a client that reaches
    it. If the page is open and the file, with its trait, holds a fragment, the server succeeds. So
    does the client exactly if the name of the trait has no half of a pair, and then both ways come
    to the same stage with the same events, and both are told how many records there were, the
    client as long as the numbers of the answer can be written. Where the server does not succeed
    the client fails too, and whoever fails has changed nothing. -/
theorem remote_loads_as_local (stage : Stage) {base : Url} (path : Text) (trait : Option Value)
    (htarget : stage.site.target = .page)
    (hreach : stage.site.Reaches base "/api/fragments" .fragments) :
    (∀ b, stage.site.page.closed = false →
      (fragment stage.site.disk (Path.ofText path) trait).result = .ok b →
        ∃ (name : Text) (records : List Implementor) (stage' : Stage) (events : List Event),
          b = .single name records ∧
          (∃ notices, stage.perform (.act (.loadFragment path trait)) =
            (stage', { reply := .ok (.count b.recordCount), events, notices })) ∧
          (name.isWhole = true →
            ∃ reply notices, stage.perform (.act (.clientLoadFragment path trait)) =
                (stage', { reply, events, notices }) ∧
              (Integer.isWritable b.recordCount = true →
                Integer.isWritable stage'.site.page.revision = true →
                  reply = .ok (.client (.count b.recordCount)))) ∧
          (name.isWhole = false → stage.Fails (.clientLoadFragment path trait))) ∧
    (stage.site.page.closed = true ∨
        (∀ b, (fragment stage.site.disk (Path.ofText path) trait).result ≠ .ok b) →
      stage.Fails (.loadFragment path trait) ∧ stage.Fails (.clientLoadFragment path trait)) := by
  constructor
  · intro b hopen hb
    obtain ⟨source, t, records, hread, htrait, hne, hparse, rfl⟩ := exists_of_fragment hb
    obtain ⟨stage', events, hperform⟩ := perform_begins stage
      ({ stage.site with page := (stage.site.page.accept (.single (Text.trim t) records)).1 },
        (stage.site.page.accept (.single (Text.trim t) records)).2)
    refine ⟨Text.trim t, records, stage', events, rfl,
      hperform _ _ (begins_loadFragment htarget hopen hb), fun hwhole => ?_, fun hhalf => ?_⟩
    · obtain ⟨v, hclient⟩ :=
        begins_clientLoadFragment htarget hopen hreach hread htrait hne hwhole hparse
      obtain ⟨notices, hremote⟩ := hperform _ _ hclient
      exact ⟨_, notices, hremote, fun hcount hrevision =>
        hears_fragment hreach.2.2 hwhole records hcount hrevision⟩
    · exact fails_of_act (act_client_unsent (unsent_of_half hread htrait hne hhalf))
  · intro h
    rcases hb : (fragment stage.site.disk (Path.ofText path) trait).result with why | b
    · obtain ⟨notices, hact⟩ := act_loadFragment_error htarget hb
      exact ⟨fails_of_act hact, fails_client_of_not_loaded htarget hreach hb⟩
    · have hclosed : stage.site.page.closed = true := h.resolve_right fun hno => hno b hb
      obtain ⟨source, t, -, hread, htrait, hne, hparse, -⟩ := exists_of_fragment hb
      obtain ⟨notices, hact⟩ := act_loadFragment_closed htarget hclosed hb
      have hsent : sentPlan stage.site.page source t =
          .answer (.refusedFor 409 .contributionRefused) := by
        simp only [sentPlan, hparse, hclosed, if_true]
      exact ⟨fails_of_act hact,
        fails_clientLoadFragment htarget hreach hread htrait hne hsent (by decide)⟩

/-! ### A file on the disk -/

open Fragment in
/-- A crate with two entries, one of them written with escapes for all that is not ASCII. -/
def libraryCrate : CrateList :=
  ⟨.escaped "k", [⟨.escapedAscii "A for é\n" rfl, true, [.escaped "m::é"]⟩,
    ⟨.escaped "ß", false, []⟩]⟩

/-- The fragment that is generated for the crate. -/
def librarySource : String := ((Text.ofList (Fragment.generated [libraryCrate])).string?).getD ""

/-- The records of the fragment. -/
def libraryRecords : List Implementor :=
  [{ displayText := "A for é\n", isSynthetic := true, typePath := "m::é", crate := "k" },
    { displayText := "ß", crate := "k" }]

theorem librarySource_eq : (librarySource : Text) = .ofList (Fragment.generated [libraryCrate]) := by
  obtain ⟨s, hs⟩ := Text.isWhole_iff.1
    (by decide +kernel : (Text.ofList (Fragment.generated [libraryCrate])).isWhole = true)
  rw [librarySource, hs, Text.string?_ofString]
  rfl

theorem not_mem_librarySource : '\r' ∉ librarySource.toList := by
  intro h
  have hmem : .char '\r' ∈ librarySource.toList.map CodePoint.char := List.mem_map_of_mem h
  rw [← Text.toList_ofString, librarySource_eq] at hmem
  exact absurd hmem (by decide +kernel)

open Fragment in
theorem parse_library {trait : Text} (ht : Text.trim trait ≠ "") :
    (parse librarySource trait).result = .ok (.single (Text.trim trait) libraryRecords) := by
  have hplain : ∀ c ∈ [libraryCrate], ∀ e ∈ c.entries, e.Plain := by
    refine List.forall_mem_singleton.2 (List.forall_mem_cons.2 ⟨⟨?_, ?_⟩, ?_⟩)
    · exact not_infix_of_not_mem (by decide)
    · exact List.forall_mem_singleton.2 (not_infix_of_not_mem (by decide))
    · exact List.forall_mem_singleton.2
        ⟨not_infix_of_not_mem (by decide), List.forall_mem_nil _⟩
  have hsilent : ∀ a ∈ Assignment.all (generated [libraryCrate]),
      a ∈ assignments [libraryCrate] ∨ a.Silent := by
    intro a ha
    rw [all_generated hplain] at ha
    exact .inl ha
  rw [librarySource_eq, read_back_of_silent ht hsilent]
  rfl

/-- Where the fragment is on a disk. -/
def libraryPath : Text := "implementors/m/trait.A.js"

/-- A site whose page has a batch waiting, with the fragment on its disk. -/
def librarySite : Site :=
  { waitingSite with
    disk := { root := .directory [("implementors", .directory
      [("m", .directory [("trait.A.js", .file librarySource.toUTF8)])])] } }

theorem fragment_library {trait : Option Value} {t : Text}
    (htrait : traitFor (Path.ofText libraryPath) trait = .ok t) (hne : Text.trim t ≠ "") :
    (fragment librarySite.disk (Path.ofText libraryPath) trait).result =
      .ok (.single (Text.trim t) libraryRecords) := by
  have hread : librarySite.disk.readText (Path.ofText libraryPath) = .ok librarySource :=
    Disk.readText_of_string (by decide) rfl not_mem_librarySource
  rw [fragment_of_known hread htrait, parse_library hne]

/-- The fragment comes to the page behind the batch that waits, either way. -/
theorem remote_loads_as_local_library : ∃ stage' : Stage,
    (∃ notices, Stage.perform ⟨librarySite, []⟩ (.act (.loadFragment libraryPath none)) =
      (stage', { reply := .ok (.count 2), events := [], notices })) ∧
    (∃ notices, Stage.perform ⟨librarySite, []⟩ (.act (.clientLoadFragment libraryPath none)) =
      (stage', { reply := .ok (.client (.count 2)), events := [], notices })) ∧
    stage'.site.page.table.get "m::A" = libraryRecords ∧
    stage'.site.page.revision = 2 ∧ stage'.site.page.relay.backlog.length = 2 := by
  obtain ⟨base, -, hreach⟩ := reaches_new librarySite rfl
  have htrait : traitFor (Path.ofText libraryPath) none = .ok "m::A" :=
    traitFor_none_iff.2 (by decide)
  have hloaded := fragment_library htrait (by decide)
  obtain ⟨name, records, stage', events, hb, ⟨notices, hlocal⟩, hremote, -⟩ :=
    (remote_loads_as_local ⟨librarySite, []⟩ libraryPath none rfl hreach).1 _ rfl hloaded
  obtain ⟨_, hended⟩ := perform_ended ⟨librarySite, []⟩ (begins_loadFragment rfl rfl hloaded)
  obtain ⟨rfl, hresult⟩ := Prod.mk.inj (hlocal.symm.trans hended)
  obtain rfl : events = [] := congrArg (·.events) hresult
  obtain ⟨rfl, rfl⟩ := Prod.mk.inj (List.cons.inj (congrArg Table.rows hb)).1
  obtain ⟨reply, notices', hremote, hreply⟩ := hremote (by decide)
  obtain rfl := hreply (Integer.isWritable_digit (by decide)) (Integer.isWritable_digit (by decide))
  exact ⟨_, ⟨notices, hlocal⟩, ⟨notices', hremote⟩, rfl, rfl, rfl⟩

/-- A trait whose name has half of a pair: the server loads its fragment, and the client fails
    before anything is sent. -/
theorem half_in_trait_is_not_sent : ∃ trait : Text, trait = .ofList [.half 0] ∧
    (∃ stage' notices, Stage.perform ⟨librarySite, []⟩
        (.act (.loadFragment libraryPath (some (.text trait)))) =
      (stage', { reply := .ok (.count 2), events := [], notices }) ∧
      stage'.site.page.table.get trait = libraryRecords) ∧
    ∃ notices, Stage.perform ⟨librarySite, []⟩
        (.act (.clientLoadFragment libraryPath (some (.text trait)))) =
      (⟨librarySite, []⟩, { reply := .error .unwritableText, events := [], notices }) := by
  obtain ⟨trait, htrait⟩ : ∃ trait : Text, trait = .ofList [.half 0] := ⟨_, rfl⟩
  have hne : Text.trim trait ≠ "" := by
    rw [htrait]
    decide
  have hhalf : (Text.trim trait).isWhole = false := by
    rw [htrait]
    rfl
  have hgiven : traitFor (Path.ofText libraryPath) (some (.text trait)) =
      .ok trait := rfl
  have hloaded := fragment_library hgiven hne
  have hread : librarySite.disk.readText (Path.ofText libraryPath) = .ok librarySource :=
    Disk.readText_of_string (by decide) rfl not_mem_librarySource
  obtain ⟨notices, hnear⟩ := perform_ended ⟨librarySite, []⟩ (begins_loadFragment rfl rfl hloaded)
  obtain ⟨notices', hfar⟩ := perform_of_act ⟨librarySite, []⟩
    (act_client_unsent (unsent_of_half hread hgiven hne hhalf))
  refine ⟨trait, htrait, ⟨_, notices, hnear, ?_⟩, notices', hfar⟩
  rw [htrait]
  rfl

end Scenario
end TraitIndex
