import TraitIndex.CommandLine
import TraitIndex.Proofs.PageRun
import TraitIndex.Proofs.SavedTable

/-! Dumping a page.

    With `--dump` the program writes the table of all that lies at its paths as one JSON text. The
    text is no mere report: saved as a JSON batch it is loaded as the table, and dumped again it is
    the same text. -/

namespace TraitIndex

namespace Page

/-- The page after some batches were contributed to a new page, one after another. -/
def filled (bs : List Batch) : Page Empty :=
  (World.after (bs.map .contribute) : World Empty).page

/-- Accepting batches one after another is contributing them, for the page stays open. -/
theorem foldl_accept (bs : List Batch) :
    bs.foldl (fun p b => (p.accept b).1) ({} : Page Empty) = filled bs ∧
      (filled bs).closed = false := by
  induction bs using List.reverseRecOn with
  | nil => exact ⟨rfl, rfl⟩
  | append_singleton bs b ih =>
    have hstep : filled (bs ++ [b]) = ((filled bs).accept b).1 := by
      rw [filled, List.map_append, World.after, List.foldl_append]
      exact World.page_step_contribute ih.2 b
    rw [List.foldl_append, ih.1, hstep]
    exact ⟨rfl, ih.2⟩

/-- The table of such a page is made of the batches. -/
theorem table_filled (bs : List Batch) : (filled bs).table = Table.ofBatches bs := by
  have haccept : ∀ page : Page Empty,
      (bs.foldl (fun p b => (p.accept b).1) page).table = bs.foldl Table.merge page.table := by
    induction bs with
    | nil => exact fun _ => rfl
    | cons b rest ih => exact fun page => ih (page.accept b).1
  rw [← (foldl_accept bs).1, haccept]
  rfl

/-- A table that is contributed to a new page is the table of the page. -/
theorem table_filled_single (t : Table) : (filled [t]).table = t := t.appendAll_rows

end Page

namespace CommandLine

open Page (filled)

/-! ### The arguments -/

/-- The argument does not look like an option. -/
def IsPlain (path : String) : Prop := path.toList.head? ≠ some '-'

theorem token_plain {path : String} (h : IsPlain path) : token path = .ok (.plain path) := by
  rcases hs : path.toList with _ | ⟨c, cs⟩
  · simp [token, hs]
  · have hc : c ≠ '-' := by
      rintro rfl
      exact h (by rw [hs]; rfl)
    simp [token, hs, hc]

theorem tokens_plain {paths : List String} (h : ∀ path ∈ paths, IsPlain path) :
    tokens paths = .ok (paths.map .plain) := by
  induction paths with
  | nil => rfl
  | cons path rest ih =>
    obtain ⟨hpath, hrest⟩ := List.forall_mem_cons.1 h
    rw [tokens, token_plain hpath, ih hrest]
    rfl

theorem readTokens_nil (o : Options) : readTokens o true [] = .ok o := by
  rw [readTokens.eq_def]
  rfl

theorem readTokens_plain (o : Options) (ho : o.paths = none) (paths : List String) :
    ∃ o', readTokens o true (paths.map .plain) = .ok o' ∧ o'.dump = o.dump ∧
      o'.logLevel = o.logLevel ∧ o'.paths.getD [] = paths := by
  cases paths with
  | nil => exact ⟨o, readTokens_nil o, rfl, rfl, by rw [ho]; rfl⟩
  | cons path rest =>
    have hall : ∀ t ∈ rest.map Token.plain, isPathToken t = true := by
      intro t ht
      obtain ⟨s, -, rfl⟩ := List.mem_map.1 ht
      rfl
    have hplain : (rest.map Token.plain).filterMap plainText? = rest := by
      rw [List.filterMap_map]
      exact List.filterMap_some
    refine ⟨{ o with paths := some (path :: rest) }, ?_, rfl, rfl, rfl⟩
    rw [List.map_cons, readTokens.eq_def]
    simp only [ho, List.takeWhile_cons, isPathToken, if_true, List.takeWhile_eq_self_iff.2 hall,
      List.dropWhile_eq_nil_iff.2 hall, List.filterMap_cons, plainText?, hplain]
    exact readTokens_nil _

/-- The option and then the paths are understood. -/
theorem parse_dump {paths : List String} (h : ∀ path ∈ paths, IsPlain path)
    (environment : Option String) :
    ∃ o, parse ("--dump" :: paths) environment = .ok o ∧ o.dump = true ∧
      o.logLevel = some (environment.getD "warning") ∧ o.paths.getD [] = paths := by
  have htokens : tokens ("--dump" :: paths) = .ok (.flag .dump none :: paths.map .plain) := by
    have hdump : token "--dump" = .ok (.flag .dump none) := rfl
    rw [tokens, hdump, tokens_plain h]
    rfl
  obtain ⟨o, ho, hdump, hlevel, hpaths⟩ := readTokens_plain
    { logLevel := some (environment.getD "warning"), dump := true } rfl paths
  refine ⟨o, ?_, hdump, hlevel, hpaths⟩
  rw [parse, htokens]
  show readTokens _ true (.flag .dump none :: paths.map .plain) = _
  rw [readTokens.eq_def]
  exact ho

/-! ### Loading -/

/-- The batches that were loaded from some paths, path by path. -/
def AllLoad (disk : Disk) (paths : List String) (loaded : List (List Batch)) : Prop :=
  List.Forall₂ (fun (path : String) bs => (Loading.batches disk (Path.ofText path)).result = .ok bs)
    paths loaded

theorem contributeAll_cons {disk : Disk} {path : String} {bs : List Batch}
    {notices : List Notice}
    (h : Loading.batches disk (Path.ofText path) = ⟨.ok bs, notices⟩) (page : Page Empty)
    (rest : List String) :
    contributeAll disk page (path :: rest) = (do
      Outcome.note notices
      contributeAll disk (bs.foldl (fun p b => (p.accept b).1) page) rest) := by
  rw [contributeAll.eq_def]
  simp only [h]

theorem contributeAll_result {disk : Disk} {paths : List String} {loaded : List (List Batch)}
    (h : AllLoad disk paths loaded) (page : Page Empty) :
    (contributeAll disk page paths).result =
      .ok (.ok (loaded.flatten.foldl (fun p b => (p.accept b).1) page)) := by
  induction h generalizing page with
  | nil => rfl
  | @cons path bs paths loaded hpath _ ih =>
    have hbatches : Loading.batches disk (Path.ofText path) =
        ⟨.ok bs, (Loading.batches disk (Path.ofText path)).notices⟩ :=
      congrArg (Outcome.mk · _) hpath
    rw [contributeAll_cons hbatches, Outcome.note_bind]
    exact (ih _).trans (by rw [List.flatten_cons, List.foldl_append])

/-- A saved table is all that there is on the page. -/
theorem contributeAll_saved {disk : Disk} {file text : String} {t : Table}
    (hwhole : t.toJson.isWhole = true) (htext : t.text = text)
    (h : disk.Holds (Path.ofText file) text) :
    contributeAll disk {} [file] = ⟨.ok (.ok (filled [t])), []⟩ := by
  rw [contributeAll_cons (Loading.batches_saved hwhole htext h), (Page.foldl_accept [t]).1]
  rfl

/-! ### Dumping -/

/-- The log is configured, or its level in the environment can be set. -/
def CanLog (configured : Bool) (environment : Option String) : Prop :=
  configured = true ∨ levelFault? (environment.getD "warning") = none

theorem setLevel_eq_ok {o : Options} {configured : Bool} {environment : Option String}
    (hlevel : o.logLevel = some (environment.getD "warning"))
    (h : CanLog configured environment) : o.setLevel configured = .ok () := by
  rw [Options.setLevel, hlevel, Option.getD_some]
  rcases h with rfl | hnone
  · cases levelFault? (environment.getD "warning") <;> rfl
  · rw [hnone]

/-- Batches without halves of pairs fill a page without any. -/
theorem isWhole_filled {bs : List Batch} (h : ∀ b ∈ bs, b.toJson.isWhole = true) :
    (filled bs).table.toJson.isWhole = true := by
  rw [Page.table_filled]
  exact Json.isWhole_ofBatches h

/-- Whatever the arguments are loaded into is written as its text. -/
theorem run_dump {disk : Disk} {paths : List String} (hplain : ∀ path ∈ paths, IsPlain path)
    {page : Page Empty} {notices : List Notice}
    (hpage : contributeAll disk {} paths = ⟨.ok (.ok page), notices⟩)
    {environment : Option String} {configured : Bool} (hlog : CanLog configured environment)
    (bind : Option String → Except Fault Unit) :
    run disk environment configured bind ("--dump" :: paths) =
      ⟨.ok (.ok { code := 0, output := page.table.text }), notices⟩ := by
  obtain ⟨o, hparse, hdump, hlevel, hpaths⟩ := parse_dump hplain environment
  have hended : conclude bind o page = .ok { code := 0, output := page.table.text } := by
    rw [conclude, if_pos hdump]
    rfl
  simp only [run, hparse, hpaths, hpage, setLevel_eq_ok hlevel hlog, Outcome.ofExcept, hended,
    Outcome.ok_bind, List.nil_append]
  exact congrArg (Outcome.mk _) (List.append_nil notices)

/-- A dump of paths that all load, no half of a pair among their texts, succeeds where the level of
    the log can be set, and is one JSON text: the document of the page that all batches were
    contributed to in order. Saved as a JSON batch, in whatever file of whatever disk, it is loaded
    as the table of that page without a notice, and dumped again it is the same text. -/
theorem dump_can_be_reloaded {disk : Disk} {paths : List String} {loaded : List (List Batch)}
    (hplain : ∀ path ∈ paths, IsPlain path) (hload : AllLoad disk paths loaded)
    (hwhole : ∀ b ∈ loaded.flatten, b.toJson.isWhole = true) {environment : Option String}
    {configured : Bool} (hlog : CanLog configured environment)
    (bind : Option String → Except Fault Unit) :
    ∃ text : String,
      (run disk environment configured bind ("--dump" :: paths)).result =
        .ok (.ok { code := 0, output := text }) ∧
      Json.parse {} (text : Text).toList = .ok (filled loaded.flatten).table.toJson ∧
      ∀ saved (file : String) environment', Disk.Holds saved (Path.ofText file) text →
        Loading.jsonBatch saved (Path.ofText file) = ⟨.ok (filled loaded.flatten).table, []⟩ ∧
        (IsPlain file → CanLog configured environment' →
          run saved environment' configured bind ["--dump", file] =
            ⟨.ok (.ok { code := 0, output := text }), []⟩) := by
  obtain ⟨notices, hpage⟩ :
      ∃ notices, contributeAll disk {} paths = ⟨.ok (.ok (filled loaded.flatten)), notices⟩ := by
    have h := contributeAll_result hload {}
    rw [(Page.foldl_accept loaded.flatten).1] at h
    exact ⟨_, congrArg (Outcome.mk · (contributeAll disk {} paths).notices) h⟩
  have hfilled := isWhole_filled hwhole
  obtain ⟨text, htext⟩ := (filled loaded.flatten).table.exists_string_text
  have hrun := congrArg Outcome.result (run_dump hplain hpage hlog bind)
  have hparse := Table.parse_text _ hfilled
  rw [htext] at hrun hparse
  refine ⟨text, hrun, hparse, fun saved file environment' hsaved => ?_⟩
  refine ⟨Loading.jsonBatch_saved hfilled htext hsaved, fun hfile hlog' => ?_⟩
  have h := run_dump (by simpa using hfile) (contributeAll_saved hfilled htext hsaved) hlog' bind
  rw [Page.table_filled_single, htext] at h
  exact h

/-- A disk with one JSON batch. -/
def diskWith (text : String) : Disk := { root := .directory [("t.json", .file text.toUTF8)] }

theorem holds_diskWith (text : String) :
    (diskWith text).Holds (Path.ofText "t.json") text where
  found := rfl
  named := by decide
  json := by decide

/-- A table of one record, with text beyond ASCII. -/
def oneRecord : Table := .single "m::T" [{ displayText := "é😀\r\n", isSynthetic := true }]

/-- A batch that comes twice is dumped, saved, loaded and dumped again. -/
theorem dump_can_be_reloaded_twice :
    ∃ source : String, oneRecord.text = source ∧
    (∀ path ∈ ["t.json", "t.json"], IsPlain path) ∧
    AllLoad (diskWith source) ["t.json", "t.json"] [[oneRecord], [oneRecord]] ∧
    (∀ b ∈ [[oneRecord], [oneRecord]].flatten, b.toJson.isWhole = true) ∧
    CanLog false (some "info") ∧ CanLog false none ∧
    ∃ text : String,
      (run (diskWith source) (some "info") false (fun _ => .ok ())
          ["--dump", "t.json", "t.json"]).result =
        .ok (.ok { code := 0, output := text }) ∧
      (Loading.jsonBatch (diskWith text) (Path.ofText "t.json")).result =
        .ok (oneRecord.merge oneRecord) ∧
      run (diskWith text) none false (fun _ => .ok ()) ["--dump", "t.json"] =
        ⟨.ok (.ok { code := 0, output := text }), []⟩ := by
  have hplain : ∀ path ∈ ["t.json", "t.json"], IsPlain path := by
    intro path hpath
    obtain rfl : path = "t.json" := by simpa using hpath
    exact show ("t.json".toList.head? ≠ some '-') by decide
  have hone : oneRecord.toJson.isWhole = true := rfl
  have hwhole : ∀ b ∈ [[oneRecord], [oneRecord]].flatten, b.toJson.isWhole = true :=
    List.forall_mem_cons.2 ⟨hone, List.forall_mem_singleton.2 hone⟩
  obtain ⟨source, hsource⟩ := oneRecord.exists_string_text
  have hbatches := Loading.batches_saved hone hsource (holds_diskWith source)
  have hload : AllLoad (diskWith source) ["t.json", "t.json"] [[oneRecord], [oneRecord]] :=
    .cons (congrArg Outcome.result hbatches) (.cons (congrArg Outcome.result hbatches) .nil)
  have hinfo : CanLog false (some "info") := .inr (by decide)
  have hwarning : CanLog false none := .inr (by decide)
  obtain ⟨text, hrun, -, hreload⟩ :=
    dump_can_be_reloaded hplain hload hwhole hinfo fun _ => .ok ()
  obtain ⟨hbatch, hagain⟩ := hreload (diskWith text) "t.json" none (holds_diskWith text)
  refine ⟨source, hsource, hplain, hload, hwhole, hinfo, hwarning, text, hrun, ?_,
    hagain (hplain _ (List.mem_cons_self ..)) hwarning⟩
  rw [hbatch]
  rfl

end CommandLine
end TraitIndex
