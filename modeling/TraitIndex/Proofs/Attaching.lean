import TraitIndex.Proofs.Transport
import TraitIndex.Server

/-! Attaching to what answers.

    Whatever runs behind an address may answer in any way. An answer with status 200 is read as a
    document, and of an object only the member `ok` counts; every other answer, and no answer, is
    passed over, with one exception: a document that is no object ends the run. So the run is
    decided by the first address that is either well or derails it. -/

namespace TraitIndex.Server

/-! ### Answers -/

/-- The answer of a server that is well. -/
def Well (answer : Option Health) : Prop :=
  ∃ h fields, answer = some h ∧ h.status = 200 ∧ Json.parseSent h.body = .ok (.object fields) ∧
    (Fields.get? fields "ok").any Json.isTruthy = true

/-- A good status with a document that is no object. -/
def Derailing (answer : Option Health) : Prop :=
  ∃ h document, answer = some h ∧ h.status = 200 ∧ Json.parseSent h.body = .ok document ∧
    ∀ fields, document ≠ .object fields

variable {answer : Option Health}

theorem isWell_of_well (h : Well answer) : isWell answer = .ok true := by
  obtain ⟨reply, fields, rfl, hs, hd, hok⟩ := h
  simp [isWell, hs, hd, hok]

theorem isWell_of_derailing (h : Derailing answer) : isWell answer = .error .noSuchOperation := by
  obtain ⟨reply, document, rfl, hs, hd, hnone⟩ := h
  simp only [isWell, hs, hd]
  cases document with
  | object fields => exact absurd rfl (hnone fields)
  | _ => rfl

/-- Every other answer, and no answer, says that no server is there. -/
theorem isWell_of_neither (hwell : ¬ Well answer) (hderails : ¬ Derailing answer) :
    isWell answer = .ok false := by
  rcases answer with _ | ⟨status, body⟩
  · rfl
  · by_cases hs : status = 200
    · rcases hd : Json.parseSent body with why | document
      · simp [isWell, hs, hd]
      · cases document with
        | object fields =>
          have hok : (Fields.get? fields "ok").any Json.isTruthy = false :=
            Bool.eq_false_iff.2 fun hok => hwell ⟨_, fields, rfl, hs, hd, hok⟩
          simp [isWell, hs, hd, hok]
        | _ => exact absurd ⟨_, _, rfl, hs, hd, by simp⟩ hderails
    · simp [isWell, hs]

/-! ### Addresses -/

/-- A base with the address of which it is asked whether it is well. -/
structure Probe where
  base : String
  url : Url
  asked : healthUrl base = .ok url
  legible : url.isLegible = true

/-- The address as it is asked. -/
def Probe.text (p : Probe) : String := p.url.toText

variable {ask : String → Option Health}

/-- The probe is neither well nor does it derail the run. -/
def Probe.Passed (ask : String → Option Health) (p : Probe) : Prop :=
  ¬ Well (ask p.text) ∧ ¬ Derailing (ask p.text)

theorem firstWell_cons (p : Probe) (rest : List String) :
    firstWell ask (p.base :: rest) = (do
      if ← isWell (ask p.text) then return (some p.base, [p.text])
      else
        let (found, asked) ← firstWell ask rest
        return (found, p.text :: asked)) := by
  simp only [firstWell, p.asked, p.legible, if_true]
  rfl

/-- What is passed over is asked and does not count. -/
theorem firstWell_passed {before : List Probe} (h : ∀ p ∈ before, p.Passed ask)
    (rest : List String) :
    firstWell ask (before.map Probe.base ++ rest) =
      (firstWell ask rest).map fun r => (r.1, before.map Probe.text ++ r.2) := by
  induction before with
  | nil =>
    rw [List.map_nil, List.nil_append]
    cases firstWell ask rest <;> rfl
  | cons p before ih =>
    obtain ⟨hp, hbefore⟩ := List.forall_mem_cons.1 h
    rw [List.map_cons, List.cons_append, firstWell_cons, isWell_of_neither hp.1 hp.2, ih hbefore]
    cases firstWell ask rest <;> rfl

theorem firstWell_well {before : List Probe} (h : ∀ p ∈ before, p.Passed ask) {p : Probe}
    (hp : Well (ask p.text)) (rest : List String) :
    firstWell ask (before.map Probe.base ++ p.base :: rest) =
      .ok (some p.base, before.map Probe.text ++ [p.text]) := by
  rw [firstWell_passed h, firstWell_cons, isWell_of_well hp]
  rfl

theorem firstWell_derailing {before : List Probe} (h : ∀ p ∈ before, p.Passed ask) {p : Probe}
    (hp : Derailing (ask p.text)) (rest : List String) :
    firstWell ask (before.map Probe.base ++ p.base :: rest) = .error .noSuchOperation := by
  rw [firstWell_passed h, firstWell_cons, isWell_of_derailing hp]
  rfl

theorem firstWell_none {probes : List Probe} (h : ∀ p ∈ probes, p.Passed ask) :
    firstWell ask (probes.map Probe.base) = .ok (none, probes.map Probe.text) := by
  have hpassed := firstWell_passed h []
  rw [List.append_nil] at hpassed
  rw [hpassed, firstWell, Except.map, List.append_nil]

/-- Either all addresses are passed over, or there is a first one that is not. -/
theorem passed_or_first (ask : String → Option Health) (probes : List Probe) :
    (∀ p ∈ probes, p.Passed ask) ∨
      ∃ before p after, probes = before ++ p :: after ∧ (∀ q ∈ before, q.Passed ask) ∧
        (Well (ask p.text) ∨ Derailing (ask p.text)) := by
  induction probes with
  | nil => exact .inl (by simp)
  | cons p rest ih =>
    by_cases hp : p.Passed ask
    · rcases ih with hrest | ⟨before, q, after, rfl, hbefore, hq⟩
      · exact .inl (List.forall_mem_cons.2 ⟨hp, hrest⟩)
      · exact .inr ⟨p :: before, q, after, rfl, List.forall_mem_cons.2 ⟨hp, hbefore⟩, hq⟩
    · have hdecides : Well (ask p.text) ∨ Derailing (ask p.text) := by
        rw [Probe.Passed, not_and_or, not_not, not_not] at hp
        exact hp
      exact .inr ⟨[], p, rest, rfl, by simp, hdecides⟩

/-! ### Running -/

variable {κ : Type} {o : Options} {environment : Option String} {page : Option (Page κ)}
  {bind : Option String → Except Fault Unit}

/-- What is told when the run attaches to a server. -/
def attachedReport (o : Options) (base : String) (asked : List String) : Report κ :=
  { running := .attached base, asked, opened := if o.openBrowser then [base ++ "/"] else [] }

/-- What is told when a server is started on a page. -/
def startedReport (o : Options) (page : Page κ) (asked : List String) : Report κ :=
  { running := .started (start o) page, asked
    opened := if o.openBrowser then [(start o).url] else [] }

theorem run_of_found {base : String} {asked : List String}
    (h : firstWell ask (candidates o environment) = .ok (some base, asked)) :
    run o environment page ask bind = .ok (attachedReport o base asked) := by
  rw [run, h]
  rfl

theorem launch_eq_ok (h : Port.ofOption o.port = .free → bind o.host = .ok ()) :
    launch bind o = .ok (start o) := by
  unfold launch
  split
  · rename_i hfree
    rw [h hfree]
    rfl
  · rfl

theorem run_of_none {asked : List String}
    (h : firstWell ask (candidates o environment) = .ok (none, asked))
    (hbind : Port.ofOption o.port = .free → bind o.host = .ok ()) :
    run o environment page ask bind = .ok (startedReport o (page.getD {}) asked) := by
  rw [run, h]
  show ((launch bind o).map _ >>= fun running => _) = _
  rw [launch_eq_ok hbind]
  rfl

theorem run_of_error {why : Fault}
    (h : firstWell ask (candidates o environment) = .error why) :
    run o environment page ask bind = .error why := by
  rw [run, h]
  rfl

/-- Where a server may run already: at the address in the environment unless that is blank, and at
    the address that is asked for unless its port is to be found. -/
theorem candidates_eq {host : String} {port : Int} (hhost : o.host = some host)
    (hport : o.port = some port) (hnew : o.newServer = false) (environment : Option String) :
    candidates o environment =
      (if normalize (environment.getD "") = "" then [] else [normalize (environment.getD "")]) ++
        (if port = 0 then [] else [normalize ("http://" ++ host ++ ":" ++ toString port)]) := by
  by_cases hzero : port = 0
  · simp [candidates, hnew, hport, hzero, Port.ofOption]
  · have hfixed : Port.ofOption (some port) = .fixed port := by
      unfold Port.ofOption
      split
      · rename_i heq
        exact absurd (Option.some.inj heq) hzero
      · rename_i heq
        rw [Option.some.inj heq]
      · rename_i heq
        exact absurd heq (by simp)
    simp [candidates, hnew, hport, hhost, hfixed, hzero, Port.text]

theorem ofOption_eq_free {port : Int} (h : Port.ofOption (some port) = .free) : port = 0 := by
  unfold Port.ofOption at h
  split at h
  · rename_i heq
    exact Option.some.inj heq
  · exact absurd h (by simp)
  · exact absurd h (by simp)

/-- How a run is decided, where the system finds a free port at the host if it is asked for one.
    With `newServer` nothing is asked and a server starts. Otherwise the addresses are asked in
    order up to the first that is well, which is attached to; if all are passed over, a server
    starts on the page. The run has no result exactly if an address before any that is well answers
    with a document that is no object. -/
theorem first_to_be_well_decides (o : Options) {host : String} {port : Int}
    (hhost : o.host = some host) (hport : o.port = some port) (environment : Option String)
    (page : Option (Page κ)) (ask : String → Option Health)
    (bind : Option String → Except Fault Unit) (hbind : port = 0 → bind (some host) = .ok ()) :
    (o.newServer = true →
      run o environment page ask bind = .ok (startedReport o (page.getD {}) [])) ∧
    (o.newServer = false → ∀ probes : List Probe,
      probes.map Probe.base =
        (if normalize (environment.getD "") = "" then []
          else [normalize (environment.getD "")]) ++
          (if port = 0 then [] else [normalize ("http://" ++ host ++ ":" ++ toString port)]) →
      (∀ before p after, probes = before ++ p :: after → (∀ q ∈ before, q.Passed ask) →
        (Well (ask p.text) → run o environment page ask bind =
          .ok (attachedReport o p.base (before.map Probe.text ++ [p.text]))) ∧
        (Derailing (ask p.text) → run o environment page ask bind = .error .noSuchOperation)) ∧
      ((∀ p ∈ probes, p.Passed ask) → run o environment page ask bind =
        .ok (startedReport o (page.getD {}) (probes.map Probe.text))) ∧
      ((∃ report, run o environment page ask bind = .ok report) ↔
        ¬ ∃ before p after, probes = before ++ p :: after ∧ (∀ q ∈ before, q.Passed ask) ∧
          Derailing (ask p.text))) := by
  have hfound : Port.ofOption o.port = .free → bind o.host = .ok () := by
    rw [hhost, hport]
    exact fun hfree => hbind (ofOption_eq_free hfree)
  constructor
  · intro hnew
    refine run_of_none ?_ hfound
    rw [candidates, if_pos hnew, firstWell]
  · intro hnew probes hprobes
    rw [← candidates_eq hhost hport hnew environment] at hprobes
    have hfirst : ∀ before p after, probes = before ++ p :: after →
        (∀ q ∈ before, q.Passed ask) →
        (Well (ask p.text) → run o environment page ask bind =
          .ok (attachedReport o p.base (before.map Probe.text ++ [p.text]))) ∧
        (Derailing (ask p.text) → run o environment page ask bind = .error .noSuchOperation) := by
      rintro before p after rfl hbefore
      rw [List.map_append, List.map_cons] at hprobes
      refine ⟨fun hwell => run_of_found ?_, fun hderails => run_of_error ?_⟩
      · rw [← hprobes, firstWell_well hbefore hwell]
      · rw [← hprobes, firstWell_derailing hbefore hderails]
    have hnone : (∀ p ∈ probes, p.Passed ask) → run o environment page ask bind =
        .ok (startedReport o (page.getD {}) (probes.map Probe.text)) := by
      intro hpassed
      refine run_of_none ?_ hfound
      rw [← hprobes, firstWell_none hpassed]
    refine ⟨hfirst, hnone, ?_, ?_⟩
    · rintro ⟨report, hreport⟩ ⟨before, p, after, hsplit, hbefore, hderails⟩
      rw [(hfirst before p after hsplit hbefore).2 hderails] at hreport
      exact absurd hreport (by simp)
    · intro hnever
      rcases passed_or_first ask probes with hpassed | ⟨before, p, after, hsplit, hbefore, hp⟩
      · exact ⟨_, hnone hpassed⟩
      · rcases hp with hwell | hderails
        · exact ⟨_, (hfirst before p after hsplit hbefore).1 hwell⟩
        · exact absurd ⟨before, p, after, hsplit, hbefore, hderails⟩ hnever

/-- The probe of a server on this machine. -/
def localProbe : Probe where
  base := "http://127.0.0.1:8123"
  url := { scheme := "http".toList, host := "127.0.0.1".toList, port := some 8123,
           path := "/healthz".toList }
  asked := rfl
  legible := rfl

/-- The probe of a server that was named without a scheme. -/
def namedProbe : Probe where
  base := "http://localhost:9000"
  url := { scheme := "http".toList, host := "localhost".toList, port := some 9000,
           path := "/healthz".toList }
  asked := rfl
  legible := rfl

/-- What a server that is well answers. -/
def wellText : String := "\x7b\"ok\":true\x7d"

/-- Nothing answers but the server on this machine. -/
def onlyLocal (url : String) : Option Health :=
  if url = localProbe.text then some ⟨200, wellText.toUTF8⟩ else none

theorem well_onlyLocal : Well (onlyLocal localProbe.text) := by
  obtain ⟨text, htext, hparse⟩ :
      ∃ text : String, Json.compact (.object [("ok", .bool true)]) = text ∧
        Json.parseSent text.toUTF8 = .ok (.object [("ok", .bool true)]) :=
    Json.parseSent_plain ⟨trivial, trivial⟩ ⟨List.nodup_singleton _, trivial, trivial⟩ rfl
  obtain rfl : text = wellText := Text.ofString_inj.1 (htext.symm.trans (by decide))
  exact ⟨_, _, if_pos rfl, rfl, hparse, by decide⟩

/-- The system finds a free port at every host. -/
def alwaysFree (_ : Option String) : Except Fault Unit := .ok ()

/-- The address in the environment refuses, the one that is asked for is well. -/
theorem first_to_be_well_decides_second :
    run { port := some 8123 } (some " localhost:9000/ ") (some ({} : Page Unit)) onlyLocal
        alwaysFree =
      .ok (attachedReport { port := some 8123 } localProbe.base
        ["http://localhost:9000/healthz", "http://127.0.0.1:8123/healthz"]) := by
  have hrefuses : onlyLocal namedProbe.text = none := if_neg (by decide)
  have hpassed : ∀ q ∈ [namedProbe], q.Passed onlyLocal := by
    intro q hq
    obtain rfl := List.mem_singleton.1 hq
    rw [Probe.Passed, hrefuses]
    exact ⟨by simp [Well], by simp [Derailing]⟩
  obtain ⟨-, hasks⟩ := first_to_be_well_decides { port := some 8123 } rfl rfl
    (some " localhost:9000/ ") (some ({} : Page Unit)) onlyLocal alwaysFree fun _ => rfl
  obtain ⟨hfirst, -⟩ := hasks rfl [namedProbe, localProbe] (by decide)
  exact (hfirst [namedProbe] localProbe [] rfl hpassed).1 well_onlyLocal

/-- A server that answers with an empty list ends the run, though nothing but its answer is wrong:
    neither is it attached to nor is a server started. -/
theorem list_derails_the_run :
    run { port := some 8123 } none (some ({} : Page Unit))
        (fun _ => some ⟨200, (String.ofList ['[', ']']).toUTF8⟩) alwaysFree =
      .error .noSuchOperation := by
  have hparse : Json.parseSent (String.ofList ['[', ']']).toUTF8 = .ok (.list []) := by
    obtain ⟨y, hy, items, rfl, rfl⟩ := Json.parse_compact (x := .list []) trivial
    rw [Json.parseSent_ascii (by decide) (by decide)]
    exact hy
  have hderails : Derailing (some ⟨200, (String.ofList ['[', ']']).toUTF8⟩) :=
    ⟨_, _, rfl, rfl, hparse, by simp⟩
  have hcandidates : candidates { port := some 8123 } none = [localProbe.base] := by decide
  refine run_of_error ?_
  rw [hcandidates]
  exact firstWell_derailing (List.forall_mem_nil _) hderails []

end TraitIndex.Server
