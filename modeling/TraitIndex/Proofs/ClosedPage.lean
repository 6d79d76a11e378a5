import TraitIndex.Proofs.Reading
import TraitIndex.Proofs.Sessions
import TraitIndex.Proofs.Transport
import TraitIndex.Proofs.WhilePending

/-! Closed pages.

    A page may be closed in the middle of a call, of a flush or of a load, which go on when the call
    has ended. Whatever goes on, a closed page holds nothing, nothing waits for it and no consumer
    listens to it, and it refuses contributions and consumers. So no call starts any more: those
    under way end one after another, and that is all. -/

namespace TraitIndex
namespace Page

variable {κ : Type}

/-! ### Runs of a closed page -/

/-- From one world to a later one in which the page is inert, and in between no call has started:
    what is under way was under way before. -/
structure World.FadesTo (w w' : World κ) : Prop where
  inert : w'.page.Inert
  calls : w'.calls <:+ w.calls
  silent : ∃ events, w'.history = w.history ++ events ∧ ∀ call, .called call ∉ events

theorem World.FadesTo.refl {w : World κ} (h : w.page.Inert) : w.FadesTo w :=
  ⟨h, List.suffix_rfl, [], (List.append_nil _).symm, fun _ => List.not_mem_nil⟩

theorem World.FadesTo.trans {w w' w'' : World κ} (h : w.FadesTo w') (h' : w'.FadesTo w'') :
    w.FadesTo w'' := by
  obtain ⟨events, hevents, hsilent⟩ := h.silent
  obtain ⟨events', hevents', hsilent'⟩ := h'.silent
  refine ⟨h'.inert, h'.calls.trans h.calls, events ++ events', ?_, fun call hcall => ?_⟩
  · rw [hevents', hevents, List.append_assoc]
  · rcases List.mem_append.1 hcall with hcall | hcall
    · exact hsilent call hcall
    · exact hsilent' call hcall

/-- No move brings an inert page back. -/
theorem World.fadesTo_step {w : World κ} (h : w.page.Inert) (m : Move κ) :
    w.FadesTo (w.step m) := by
  have hone : ∀ e : Relay.Event κ, (∀ call, e ≠ .called call) → ∀ call, .called call ∉ [e] :=
    fun e he call hcall => he call (List.mem_singleton.1 hcall).symm
  cases m with
  | contribute b =>
    rw [step, h.contribute b]
    exact .refl h
  | attach c =>
    rw [step, h.attach c]
    exact .refl h
  | reset =>
    refine ⟨⟨h.closed, rfl, rfl, rfl, rfl⟩, List.suffix_rfl, [.cleared], rfl, hone _ (by simp)⟩
  | close =>
    rw [step, if_pos h.closed]
    exact .refl h
  | finish failed =>
    rcases hcalls : w.calls with _ | ⟨call, calls⟩
    · have hstep : w.step (.finish failed) = w := by simp only [step, hcalls]
      rw [hstep]
      exact .refl h
    · obtain ⟨hinert, hnone⟩ := h.finish call
      have hstep : w.step (.finish failed) =
          ⟨(w.page.finish call).1, calls, w.history ++ [.ended call failed]⟩ := by
        simp only [step, hcalls, proceed, hnone]
        rfl
      rw [hstep]
      refine ⟨hinert, ?_, [.ended call failed], rfl, hone _ (by simp)⟩
      rw [hcalls]
      exact List.suffix_cons call calls

theorem World.fadesTo_foldl {w : World κ} (h : w.page.Inert) (moves : List (Move κ)) :
    w.FadesTo (moves.foldl step w) := by
  induction moves generalizing w with
  | nil => exact .refl h
  | cons m rest ih =>
    have hstep := fadesTo_step h m
    exact hstep.trans (ih hstep.inert)

end Page

/-! ### Bodies with a long integer -/

namespace Json

variable {dialect : Dialect}

/-- A document with one member, an unsigned number. -/
def numbered (d : Decimal) : List CodePoint :=
  .char '{' :: .char '"' :: .char 'a' :: .char '"' :: .char ':' :: (d.chars ++ [.char '}'])

/-- It is read if its number is, and fails as its number does. -/
theorem read_numbered (d : Decimal) (r : Except Failure Json)
    (h : number dialect false (d.chars ++ [.char '}']) = r.map (·, [.char '}'])) :
    read dialect (numbered d) = r.map fun x => .object [(("a" : Text), x)] := by
  obtain ⟨c, cs, hcs⟩ := List.exists_cons_of_ne_nil d.whole.nonempty
  have hc := d.whole.digit c (by rw [hcs]; exact List.mem_cons_self ..)
  have hchars : d.chars ++ [.char '}'] =
      c :: (cs ++ (d.placesChars ++ d.powerChars) ++ [.char '}']) := by
    rw [Decimal.chars, hcs]
    rfl
  have hvalue : ∀ bound,
      value dialect (bound + 1) (d.chars ++ [.char '}']) = r.map (·, [.char '}']) := by
    intro bound
    rw [← h, hchars]
    exact Literal.value_digit hc _
  have hskip : skipSpace (d.chars ++ [.char '}']) = d.chars ++ [.char '}'] :=
    Literal.skipSpace_starts .none (Literal.starts_decimal false d) _
  have hname : string dialect (.char 'a' :: .char '"' :: .char ':' :: (d.chars ++ [.char '}'])) =
      .ok ("a", .char ':' :: (d.chars ++ [.char '}'])) := rfl
  obtain ⟨bound, hbound⟩ : ∃ bound, (numbered d).length + 1 = bound + 3 := ⟨_, rfl⟩
  have hmembers : members dialect (bound + 2)
      (.char '"' :: .char 'a' :: .char '"' :: .char ':' :: (d.chars ++ [.char '}'])) =
      r.map fun x => ([(("a" : Text), x)], []) := by
    rw [members, hname]
    simp only [bind, Except.bind, Literal.skipSpace_cons (by decide : isSpace (.char ':') = false),
      hskip,
      hvalue]
    cases r with
    | error why => rfl
    | ok x => rfl
  have hobject : value dialect (bound + 3) (numbered d) =
      (members dialect (bound + 2)
          (.char '"' :: .char 'a' :: .char '"' :: .char ':' :: (d.chars ++ [.char '}'])) >>=
        fun p => pure (.object (Fields.ofPairs p.1), p.2)) := rfl
  have hspace : skipSpace (numbered d) = numbered d := Literal.skipSpace_cons (by decide) _
  rw [read, hbound, hspace, hobject, hmembers]
  cases r with
  | error why => rfl
  | ok x => rfl

/-- A number of some ones and another one. -/
def ones (n : Nat) : Decimal where
  whole := ⟨.char '1' :: List.replicate n (.char '1'), List.cons_ne_nil _ _, fun c hc => by
    rcases List.mem_cons.1 hc with rfl | hc
    · rfl
    · rw [List.eq_of_mem_replicate hc]
      rfl⟩
  lead := fun h => absurd (Option.some.inj h) (by decide)

/-- Longer than integers may be it is an object all the same, but not to the server. -/
theorem numbered_tooLong {n : Nat} (hn : 4300 ≤ n) : ∃ body : String,
    (∃ fields, read { digitLimit := none } (body : Text).toList = .ok (.object fields)) ∧
      parseSent body.toUTF8 = .error .digitLimit := by
  let rest := 'a' :: '"' :: ':' :: '1' :: (List.replicate n '1' ++ ['}'])
  have hbody : ('{' :: '"' :: rest).map .char = numbered (ones n) := by
    simp [rest, numbered, ones, Decimal.chars, Decimal.placesChars, Decimal.powerChars]
  have hends : NumberEnds [.char '}'] := Literal.numberEnds_gap .none (.inr rfl) []
  have hwhole : (ones n).IsWhole := ⟨rfl, rfl⟩
  have hlength : (ones n).whole.chars.length = n + 1 := congrArg Nat.succ List.length_replicate
  refine ⟨String.ofList ('{' :: '"' :: rest), ?_, ?_⟩
  · rw [Text.toList_ofString, String.toList_ofList, hbody]
    refine ⟨_, read_numbered (ones n) (.ok ((ones n).json false)) ?_⟩
    exact number_decimal false (ones n) hends fun _ => rfl
  · have hfails : read {} (numbered (ones n)) = .error .digitLimit := by
      refine read_numbered (ones n) (.error .digitLimit) ?_
      refine number_tooLong false (ones n) hends hwhole ?_
      rw [hlength]
      simp only [Option.all_some, decide_eq_false_iff_not]
      omega
    rw [parseSent_ascii (by decide) (by decide), hbody, parse, hfails]
    rfl

end Json

/-! ### What is asked of a closed page -/

namespace Api

variable {κ : Type} {page : Page κ} {feed : Feed} {r : Request}

/-- A batch for a closed page is refused before it is looked at. -/
theorem plan_batches_closed (hclosed : page.closed = true) (attached : Bool)
    (hfind : Route.find r = .ok .batches) {fields : List (Text × Json)}
    (hbody : Json.parseSent r.body.toUTF8 = .ok (.object fields)) :
    plan page feed attached r = (.answer (.refusedFor 409 .contributionRefused), []) := by
  refine plan_of_answer hfind (by decide) ?_
  have hmembers : members r = .ok fields := by
    rw [members, hbody]
  rw [planAt, hmembers]
  exact if_pos hclosed

/-- A body with an integer that is too long is refused before a page is asked. -/
theorem plan_batches_digitLimit (page : Page κ) (attached : Bool)
    (hfind : Route.find r = .ok .batches)
    (hbody : Json.parseSent r.body.toUTF8 = .error .digitLimit) :
    plan page feed attached r =
      (.answer (.refused 400 "There was an error parsing the body"), []) := by
  refine plan_of_answer hfind (by decide) ?_
  have hmembers : members r = .error (.refused 400 "There was an error parsing the body") := by
    rw [members, hbody]
  rw [planAt, hmembers]

/-- A draft of a batch. -/
theorem request_batches (body : String) :
    Draft.request { method := "POST", target := "/api/batches", content := .text body } =
      .ok { method := "POST", path := "/api/batches", body } :=
  Draft.request_path (by rfl) (by decide +kernel) (by rfl) (by decide +kernel) rfl

/-- A poll with a cursor that can be read finds nobody to attach to. -/
theorem plan_deliveries_closed (hclosed : page.closed = true)
    (hfind : Route.find r = .ok .deliveries) {n : Nat}
    (hsince : Query.cursor (Api.givenSince r) = .ok n) :
    plan page feed false r = (.answer (.refusedFor 409 .attachmentRefused), []) := by
  refine plan_of_answer hfind (by decide) ?_
  simp only [planAt, pollPlan, hsince, hclosed, Bool.false_eq_true, if_false, if_true]

end Api

namespace Scenario

/-- The site refuses contributions and consumers, however they come to it, and starting over only
    counts. -/
structure Site.Refuses (site : Site) : Prop where
  contribute : ∀ v, site.act (.contribute v) = site.look (.error .contributionRefused)
  contributeServed : ∀ v, site.act (.contributeServed v) = site.look (.error .contributionRefused)
  load : ∀ count b rest,
    site.load count (b :: rest) = (site, .ended (.error .contributionRefused))
  attach : ∀ listener, site.attach listener = site.look (.error .attachmentRefused)
  attachValue : site.act .attachValue = site.look (.error .attachmentRefused)
  batches : ∀ r asker fields, Api.Route.find r = .ok .batches →
    Json.parseSent r.body.toUTF8 = .ok (.object fields) →
    site.serve r asker = site.look (asker.hears (.refusedFor 409 .contributionRefused))
  longIntegers : ∀ r asker, Api.Route.find r = .ok .batches →
    Json.parseSent r.body.toUTF8 = .error .digitLimit →
    site.serve r asker =
      site.look (asker.hears (.refused 400 "There was an error parsing the body"))
  deliveries : ∀ r asker n, Api.Route.find r = .ok .deliveries →
    Query.cursor (Api.givenSince r) = .ok n →
    site.serve r asker = site.look (asker.hears (.refusedFor 409 .attachmentRefused))
  reset : site.act .reset =
    site.change fun p => { p with revision := p.revision + 1 }
  resetServed : ∀ r asker, Api.Route.find r = .ok .reset → site.serve r asker =
    ({ site with
        page := { site.page with revision := site.page.revision + 1 }
        serverFeed := site.serverFeed.clear }, .ended (asker.hears Api.healthy), [])

/-- What the server answers at once leaves the site as it is. -/
theorem Site.serve_of_answer {site : Site} (htarget : site.target = .page) {r : Api.Request}
    {response : Api.Response} {notices : List Notice} (asker : Asker)
    (h : Api.plan site.page site.serverFeed (site.page.relay.consumer = some .serverFeed) r =
      (.answer response, notices)) :
    site.serve r asker = (site, .ended (asker.hears response), notices) := by
  rw [serve, if_pos htarget]
  simp only [servePage, h]

theorem Site.refuses_of_inert {site : Site} (htarget : site.target = .page)
    (h : site.page.Inert) : site.Refuses := by
  have hclosed := h.closed
  have hapart : decide (site.page.relay.consumer = some Listener.serverFeed) = false := by
    rw [h.alone]
    rfl
  have hrefused : ∀ batch : Outcome Batch,
      site.contribute false batch = site.look (.error .contributionRefused) :=
    fun batch => if_pos ⟨htarget, rfl, hclosed⟩
  exact {
    contribute := fun v => by
      rw [act, if_neg (by rw [htarget]; decide), hrefused]
    contributeServed := fun v => by rw [act, if_pos htarget, hrefused]
    load := fun count b rest => by
      rw [Site.load]
      simp only [h.contribute]
    attach := fun listener => by
      rw [Site.attach, htarget]
      simp only [h.attach]
    attachValue := by
      rw [act, if_neg (by rw [htarget]; decide), if_pos hclosed]
    batches := fun r asker fields hfind hbody =>
      serve_of_answer htarget asker (Api.plan_batches_closed hclosed _ hfind hbody)
    longIntegers := fun r asker hfind hbody =>
      serve_of_answer htarget asker (Api.plan_batches_digitLimit site.page _ hfind hbody)
    deliveries := fun r asker n hfind hsince => by
      refine serve_of_answer htarget asker ?_
      rw [hapart]
      exact Api.plan_deliveries_closed hclosed hfind hsince
    reset := by
      rw [act, htarget]
      simp only [change, h.reset_eq]
    resetServed := fun r asker hfind => by
      have hplan : Api.plan site.page site.serverFeed
          (site.page.relay.consumer = some .serverFeed) r = (.reset, []) := by
        simp only [Api.plan, hfind, Api.planAt, Outcome.pure_eq]
      rw [serve, if_pos htarget]
      simp only [servePage, hplan, h.reset_eq] }

/-! ### Sessions -/

namespace Machine

/-- Once a page is closed, nothing that a session does afterwards brings it back. -/
theorem fades_in_session {m m' : Machine} {w : Page.World Listener} (h : m.Shows w)
    (hinert : w.page.Inert) (hto : m.Reaches m') :
    m'.site.page.Inert ∧ m'.calls <:+ m.calls ∧ m'.site.Refuses := by
  obtain ⟨moves, hshows⟩ := shownAfter_session h hto
  have hfades := Page.World.fadesTo_foldl hinert moves
  have hinert' : m'.site.page.Inert := by
    rw [← hshows.page]
    exact hfades.inert
  refine ⟨hinert', ?_, Site.refuses_of_inert hshows.target hinert'⟩
  rw [← hshows.calls, ← h.calls]
  exact hfades.calls

end Machine

/-- Once a page is closed, by whomever and in the middle of whatever, it is inert at every later
    moment, and no call has started since: of a page whose consumers do what they like, and of a
    session in which scripted consumers, requests, clients and files use the page, and where the
    site refuses whatever is asked of the page. -/
theorem closed_page_stays_inert {κ : Type} :
    (∀ moves later : List (Page.Move κ), (Page.World.after moves).page.closed = true →
      (Page.World.after moves).FadesTo (Page.World.after (moves ++ later))) ∧
      ∀ start m m' : Machine, start.Fresh → start.Reaches m → m.site.page.closed = true →
        m.Reaches m' → m'.site.page.Inert ∧ m'.calls <:+ m.calls ∧ m'.site.Refuses := by
  constructor
  · intro moves later hclosed
    rw [Page.World.after, Page.World.after, List.foldl_append]
    exact Page.World.fadesTo_foldl (Page.World.shut_after moves hclosed) later
  · intro start m m' hfresh hto hclosed hlater
    obtain ⟨moves, hshows⟩ := Machine.shown_in_session hfresh hto
    have hinert : (Page.World.after moves).page.Inert :=
      Page.World.shut_after moves (by rw [hshows.page]; exact hclosed)
    exact Machine.fades_in_session hshows hinert hlater

/-- A consumer that closes the page in the middle of a flush; and a session that closes its page and
    starts over. -/
theorem closed_page_stays_inert_midway :
    ((Page.World.after [.contribute .empty, .contribute .empty, .attach 1, .close]).FadesTo
        (Page.World.after ([.contribute .empty, .contribute .empty, .attach 1, .close] ++
          [.contribute (.single "a" []), .attach 2, .finish true, .reset]))) ∧
      ∃ start m m' : Machine, start.Fresh ∧ start.Reaches m ∧ m.site.page.closed = true ∧
        m.Reaches m' ∧ m'.site.page.revision = 2 ∧ m'.site.page.Inert ∧ m'.site.Refuses := by
  constructor
  · exact closed_page_stays_inert.1 _ _ rfl
  · obtain ⟨start, hstart⟩ : ∃ start : Machine, start =
        { site := {}, scripts := [], focus := .run (.act .close) } := ⟨_, rfl⟩
    have hfresh : start.Fresh := by
      rw [hstart]
      exact ⟨rfl, rfl, rfl⟩
    have hclose : start.Reaches (start.begin (.act .close)) := by
      refine .single (.on ⟨fun a ha => ?_, by rw [hstart]; rfl⟩)
      rw [hstart] at ha
      cases ha
      exact trivial
    have hreset : (start.begin (.act .close)).Reaches
        (((start.begin (.act .close)).next (.act .reset)).begin (.act .reset)) := by
      rw [hstart]
      refine .tail (.single (.next (.act .reset) rfl)) (.on ⟨fun a ha => ?_, rfl⟩)
      cases ha
      exact trivial
    have hclosed : (start.begin (.act .close)).site.page.closed = true := by
      rw [hstart]
      rfl
    obtain ⟨hinert, -, hrefuses⟩ :=
      (closed_page_stays_inert (κ := Nat)).2 _ _ _ hfresh hclose hclosed hreset
    exact ⟨_, _, _, hfresh, hclose, hclosed, hreset, by rw [hstart]; rfl, hinert, hrefuses⟩

/-- A closed page, and a body that is a JSON object, but for the length of an integer in it: it is
    refused as no body at all, and not because the page is closed. -/
theorem closed_page_reads_body_first :
    ∃ (stage : Stage) (body : String) (fields : List (Text × Json)) (response : Api.Response),
      stage = (Stage.perform { site := {} } (.act .close)).1 ∧ stage.site.page.closed = true ∧
      Json.read { digitLimit := none } (body : Text).toList = .ok (.object fields) ∧
      (stage.perform (.act (.request
        { method := "POST", target := "/api/batches", content := .text body }))).2.reply =
          .ok (.response response none) ∧
      response.status = 400 := by
  obtain ⟨body, ⟨fields, hread⟩, hrefused⟩ := Json.numbered_tooLong (Nat.le_refl 4300)
  obtain ⟨site, hsite⟩ : ∃ site : Site, site = { page := Page.close {} } := ⟨_, rfl⟩
  have htarget : site.target = .page := by rw [hsite]
  have hclose : (Stage.perform { site := {} } (.act .close)).1 = ⟨site, []⟩ := by
    have hbegins : ({} : Site).Begins .close (site, none) fun _ => .ok .nothing :=
      ⟨_, _, by rw [hsite]; rfl, rfl⟩
    obtain ⟨notices, h⟩ := perform_ended { site := {} } hbegins
    rw [h]
  have hrequest : site.Begins (.request
      { method := "POST", target := "/api/batches", content := .text body })
      (site, none)
      fun _ => .ok (.response (.refused 400 "There was an error parsing the body") none) := by
    refine ⟨_, [], ?_, rfl⟩
    simp only [Site.act, Api.request_batches]
    exact Site.serve_of_answer htarget (.direct none)
      (Api.plan_batches_digitLimit site.page _ rfl hrefused)
  obtain ⟨notices, hperform⟩ := perform_ended ⟨site, []⟩ hrequest
  exact ⟨⟨site, []⟩, body, fields, _, hclose.symm, by rw [hsite]; rfl, hread,
    congrArg (fun p : Stage × Result => p.2.reply) hperform, rfl⟩

end Scenario
end TraitIndex
