import Mathlib.Data.List.Flatten
import TraitIndex.Proofs.Lines

/-! Reading generated fragments back.

    A fragment that is generated for some crates says exactly what it is meant to say if and only if
    every match of the pattern in it is the line of a crate or an empty list. Nothing keeps other
    matches out of the texts of the entries, where they may look like the list of another crate; a
    text without the opening word of the pattern holds none. -/

namespace TraitIndex.Fragment

open Assignment

/-- An empty list of some crate: it adds no record, and nothing is told about it. -/
def Assignment.Silent (a : Assignment) : Prop := ∃ crate, a.read? = some (crate, [])

/-! ### Reading back -/

/-- Of lists that are put together, leaving some out changes nothing if and only if those are
    empty. -/
theorem flatMap_eq_iff_of_sublist {α β : Type} {l₁ l₂ : List α} (h : l₁.Sublist l₂)
    (hn : l₂.Nodup) (f : α → List β) :
    l₂.flatMap f = l₁.flatMap f ↔ ∀ a ∈ l₂, a ∈ l₁ ∨ f a = [] := by
  induction h with
  | slnil => simp
  | @cons l₁ l₂ a h ih =>
    obtain ⟨ha, hn⟩ := List.nodup_cons.1 hn
    have hnot : a ∉ l₁ := fun hmem => ha (h.subset hmem)
    have hle := (h.flatMap f).length_le
    rw [List.flatMap_cons, List.forall_mem_cons, ← ih hn]
    constructor
    · intro he
      have hlength := congrArg List.length he
      rw [List.length_append] at hlength
      have hnil : f a = [] := List.eq_nil_of_length_eq_zero (by omega)
      rw [hnil] at he
      exact ⟨.inr hnil, he⟩
    · rintro ⟨hfa, he⟩
      rw [hfa.resolve_left hnot, he]
      rfl
  | @cons_cons l₁ l₂ a h ih =>
    obtain ⟨ha, hn⟩ := List.nodup_cons.1 hn
    rw [List.flatMap_cons, List.flatMap_cons, List.append_cancel_left_eq, ih hn,
      List.forall_mem_cons]
    constructor
    · exact fun hall => ⟨.inl (List.mem_cons_self ..), fun b hb =>
        (hall b hb).imp_left (List.mem_cons_of_mem a)⟩
    · rintro ⟨-, hall⟩ b hb
      refine (hall b hb).imp_left fun hmem => ?_
      rcases List.mem_cons.1 hmem with rfl | hmem
      · exact absurd hb ha
      · exact hmem

theorem ne_newline_of_read? {s : List CodePoint} {a : Assignment} (ha : a ∈ all s) {crate : Text}
    {items : List Json} (h : a.read? = some (crate, items)) : .char '\n' ∉ a.key := by
  intro hn
  exact crate_ne_of_newline (isKey_of_mem_all ha) hn crate (read?_eq_some_iff.1 h).1

theorem not_bare_of_read? {a : Assignment} {crate : Text} {items : List Json}
    (h : a.read? = some (crate, items)) : ¬ a.Bare := by
  rintro ⟨hrest, -⟩
  have hentries := (read?_eq_some_iff.1 h).2
  rw [entries_of_rest_nil hrest] at hentries
  exact absurd hentries (by simp)

/-- An assignment that can be read keeps a record for each item of its list. -/
theorem kept_eq_nil_iff {a : Assignment} {crate : Text} {items : List Json}
    (h : a.read? = some (crate, items)) : a.kept = [] ↔ a.Silent := by
  have hempty : a.kept = [] ↔ items = [] := by
    rw [kept, h, List.map_eq_nil_iff]
    rcases items with _ | ⟨x, items⟩
    · exact ⟨fun _ => rfl, fun _ => rfl⟩
    · exact ⟨fun hnil => absurd hnil (by simp [Value.ofItems]), fun hnil => absurd hnil (by simp)⟩
  rw [hempty]
  constructor
  · rintro rfl
    exact ⟨crate, h⟩
  · rintro ⟨crate', h'⟩
    rw [h] at h'
    exact (Prod.mk.inj (Option.some.inj h')).2

/-- If every match can be read, the matches hold the records of the crates if and only if those
    that are no lines of crates are empty. -/
theorem records_iff_silent (crates : List CrateList)
    (hread : ∀ a ∈ all (generated crates), ∃ crate items, a.read? = some (crate, items)) :
    (all (generated crates)).flatMap kept = crates.flatMap CrateList.records ↔
      ∀ a ∈ all (generated crates), a ∈ assignments crates ∨ a.Silent := by
  have hsub : (assignments crates).Sublist (all (generated crates)) := by
    have hprologue : ∀ c ∈ prologue.getLast?, c = '\n' := by
      intro c hc
      exact (Option.some.inj hc).symm
    refine (sublist_all crates hprologue).resolve_right ?_
    rintro ⟨b, hb, hkey⟩
    obtain ⟨crate, items, h⟩ := hread b hb
    exact ne_newline_of_read? hb h hkey
  rw [← kept_assignments, flatMap_eq_iff_of_sublist hsub (nodup_all _)]
  refine forall₂_congr fun a ha => ?_
  obtain ⟨crate, items, h⟩ := hread a ha
  rw [kept_eq_nil_iff h]

/-- About an assignment that cannot be read something is told. -/
theorem read?_of_told_nil {trait : Text} {a : Assignment} (h : Told trait a []) :
    ∃ crate items, a.read? = some (crate, items) := by
  rcases hr : a.read? with _ | ⟨crate, items⟩
  · obtain ⟨n, hn, -⟩ := (told_iff_of_not_read? hr).1 h
    exact absurd hn (by simp)
  · exact ⟨crate, items, rfl⟩

theorem eq_nil_of_told {trait : Text} {a : Assignment} {log : List Notice}
    (h : Told trait a log) (hnil : Told trait a []) : log = [] := by
  obtain ⟨crate, items, hr⟩ := read?_of_told_nil hnil
  rw [told_iff_of_read? hr] at h hnil
  rw [h, hnil]

/-- What is told is nothing if and only if nothing is told about any of them. -/
theorem flatten_eq_nil_of_told {trait : Text} {as : List Assignment} {logs : List (List Notice)}
    (h : List.Forall₂ (Told trait) as logs) :
    logs.flatten = [] ↔ ∀ a ∈ as, Told trait a [] := by
  induction h with
  | nil => simp
  | cons ha _ ih =>
    rw [List.flatten_cons, List.append_eq_nil_iff, ih, List.forall_mem_cons]
    exact and_congr_left fun _ => ⟨fun hlog => hlog ▸ ha, eq_nil_of_told ha⟩

theorem told_nil_of_silent {trait : Text} {a : Assignment} (h : a.Silent) : Told trait a [] := by
  obtain ⟨crate, hr⟩ := h
  exact (told_iff_of_read? hr).2 rfl

theorem told_nil_of_mem_assignments {trait : Text} {crates : List CrateList} {a : Assignment}
    (h : a ∈ assignments crates) : Told trait a [] := by
  obtain ⟨c, -, hr⟩ := read?_of_mem_assignments h
  exact (told_iff_of_read? hr).2 (ofItems_entryItems c.name.text c.entries).2.symm

theorem single_inj {trait : Text} {rs rs' : List Implementor}
    (h : Table.single trait rs = Table.single trait rs') : rs = rs' := by
  have hrows := congrArg Table.rows h
  exact (Prod.mk.inj (List.cons.inj hrows).1).2

/-- A fragment that is read back as it is meant holds no other matches than empty lists. -/
theorem silent_of_read_back {crates : List CrateList} {trait : Text}
    (ht : Text.trim trait ≠ "")
    (h : parse (Text.ofList (generated crates)) trait =
      ⟨.ok (.single (Text.trim trait) (crates.flatMap CrateList.records)), []⟩) :
    ∀ a ∈ all (generated crates), a ∈ assignments crates ∨ a.Silent := by
  have hsource : (Text.ofList (generated crates)).toList = generated crates := rfl
  have hbare : ∀ a ∈ all (generated crates), ¬ a.Bare := by
    intro a ha hb
    have hfail := parse_of_bare ht ⟨a, hsource.symm ▸ ha, hb⟩
    rw [h] at hfail
    exact absurd hfail (by simp)
  obtain ⟨logs, hp, hlogs⟩ := parse_of_not_bare ht (hsource.symm ▸ hbare)
  rw [hsource] at hp hlogs
  rw [h] at hp
  obtain ⟨hrecords, hflat⟩ := Outcome.mk.inj hp
  have htold := (flatten_eq_nil_of_told hlogs).1 hflat.symm
  refine (records_iff_silent crates fun a ha => read?_of_told_nil (htold a ha)).1 ?_
  exact (single_inj (Except.ok.inj hrecords)).symm

/-- A fragment that holds no other matches than empty lists is read back as it is meant. -/
theorem read_back_of_silent {crates : List CrateList} {trait : Text}
    (ht : Text.trim trait ≠ "")
    (h : ∀ a ∈ all (generated crates), a ∈ assignments crates ∨ a.Silent) :
    parse (Text.ofList (generated crates)) trait =
      ⟨.ok (.single (Text.trim trait) (crates.flatMap CrateList.records)), []⟩ := by
  have hsource : (Text.ofList (generated crates)).toList = generated crates := rfl
  have htold : ∀ a ∈ all (generated crates), Told (Text.trim trait) a [] := fun a ha =>
    (h a ha).elim told_nil_of_mem_assignments told_nil_of_silent
  have hread := fun a ha => read?_of_told_nil (htold a ha)
  have hbare : ∀ a ∈ all (generated crates), ¬ a.Bare := by
    intro a ha
    obtain ⟨crate, items, hr⟩ := hread a ha
    exact not_bare_of_read? hr
  obtain ⟨logs, hp, hlogs⟩ := parse_of_not_bare ht (hsource.symm ▸ hbare)
  rw [hsource] at hp hlogs
  rw [hp, (flatten_eq_nil_of_told hlogs).2 htold, (records_iff_silent crates hread).2 h]

/-! ### Texts without the opening word -/

theorem all_eq_nil {s : List CodePoint} (h : ¬ opening <:+: s) : all s = [] := by
  have hall : all (s ++ []) = all [] := all_append fun t ht _ hp => by
    rw [List.append_nil] at hp
    exact h (hp.isInfix.trans ht.isInfix)
  rwa [List.append_nil, all] at hall

theorem not_infix_append_cons {α : Type} {p u v : List α} {c : α} (hc : c ∉ p)
    (hu : ¬ p <:+: u) (hv : ¬ p <:+: v) : ¬ p <:+: u ++ c :: v := by
  induction u with
  | nil =>
    intro h
    rcases List.infix_cons_iff.1 h with h | h
    · exact hu (prefix_of_append_cons hc h).isInfix
    · exact hv h
  | cons d u ih =>
    intro h
    rcases List.infix_cons_iff.1 h with h | h
    · exact hu (prefix_of_append_cons (u := d :: u) hc h).isInfix
    · exact ih (fun h' => hu (h'.trans (List.suffix_cons d u).isInfix)) h

/-- A text without the bracket of the opening word does not hold the word. -/
theorem not_infix_of_not_mem {s : List CodePoint} (h : .char '[' ∉ s) : ¬ opening <:+: s := by
  intro hin
  exact h (hin.subset (by decide))

/-- The paths of a type hold the opening word no more than its parts do. -/
theorem not_infix_types {before : List CodePoint} {ws : List Json.Written}
    (hbefore : ¬ opening <:+: before) (h : ∀ w ∈ ws, ¬ opening <:+: w.chars) :
    ¬ opening <:+:
      before ++ (Json.separated [.char ','] (ws.map Json.Written.quoted) ++
        [.char ']', .char '}']) := by
  have hend : ¬ opening <:+: [.char ']', .char '}'] := not_infix_of_not_mem (by decide)
  have hcomma : ¬ opening <:+: [.char ','] := not_infix_of_not_mem (by decide)
  induction ws generalizing before with
  | nil => exact not_infix_append_cons (by decide) hbefore (not_infix_of_not_mem (by decide))
  | cons w ws ih =>
    obtain ⟨hw, hws⟩ := List.forall_mem_cons.1 h
    rcases ws with _ | ⟨v, ws⟩
    · rw [List.map_singleton, Json.separated, Json.Written.quoted, List.cons_append,
        List.append_assoc]
      exact not_infix_append_cons (by decide) hbefore (not_infix_append_cons (by decide) hw hend)
    · have hmore := ih hcomma hws
      rw [List.map_cons, List.map_cons, Json.separated, Json.Written.quoted, List.append_assoc,
        List.append_assoc, List.cons_append, List.append_assoc]
      exact not_infix_append_cons (by decide) hbefore
        (not_infix_append_cons (by decide) hw hmore)

/-- No text of the entry, as it is written, holds the opening word. -/
def Entry.Plain (e : Entry) : Prop :=
  ¬ opening <:+: e.text.chars ∧ ∀ w ∈ e.types, ¬ opening <:+: w.chars

theorem Entry.Plain.not_infix {e : Entry} (h : e.Plain) : ¬ opening <:+: e.chars := by
  have hstart : ¬ opening <:+: ("\x7btext:" : Text).toList := not_infix_of_not_mem (by decide)
  have hmiddle : ¬ opening <:+: (",synthetic:" : Text).toList ++
      ((if e.synthetic then "true" else "false" : Text).toList ++ (",types" : Text).toList) := by
    refine not_infix_of_not_mem ?_
    rcases e.synthetic with _ | _
    · simp
    · simp
  have htypes : ¬ opening <:+: (",synthetic:" : Text).toList ++
      ((if e.synthetic then "true" else "false" : Text).toList ++ (",types:[" : Text).toList) := by
    have hbracket : ¬ opening <:+: [.char '['] := fun hin => absurd hin.length_le (by decide)
    have hcut := not_infix_append_cons (c := .char ':') (by decide) hmiddle hbracket
    rwa [List.append_assoc, List.append_assoc] at hcut
  have hend := not_infix_types htypes h.2
  unfold Entry.chars
  rw [Json.Written.quoted, List.cons_append, List.append_assoc]
  refine not_infix_append_cons (by decide) hstart (not_infix_append_cons (by decide) h.1 ?_)
  rwa [List.append_assoc, List.append_assoc] at hend

theorem not_infix_entries {es : List Entry} (h : ∀ e ∈ es, e.Plain) :
    ¬ opening <:+: entriesChars es ++ [.char ';', .char '\n'] := by
  induction es with
  | nil => exact not_infix_of_not_mem (by decide)
  | cons e es ih =>
    obtain ⟨he, hes⟩ := List.forall_mem_cons.1 h
    rw [entriesChars, List.append_assoc]
    exact not_infix_append_cons (by decide) he.not_infix (ih hes)

theorem CrateList.not_infix_listLine {c : CrateList} (h : ∀ e ∈ c.entries, e.Plain) :
    ¬ opening <:+: c.listLine := by
  intro hin
  rcases List.infix_cons_iff.1 hin with hp | hin
  · exact absurd (List.cons_prefix_cons.1 hp).1 (by decide)
  · exact not_infix_entries h hin

theorem CrateList.getLast?_listLine (c : CrateList) : c.listLine.getLast? = some (.char '\n') := by
  rw [CrateList.listLine, ← List.cons_append, List.getLast?_append]
  rfl

theorem not_infix_epilogue : ¬ opening <:+: epilogue := by
  have hlines : ∀ l ∈ lastLines, .char '[' ∉ l.toList := by decide
  refine not_infix_of_not_mem fun hin => ?_
  obtain ⟨l, hl, hin⟩ := List.mem_flatMap.1 hin
  exact hlines l hl hin

/-- Where no text holds the opening word, the matches are the lines of the crates. -/
theorem all_lines {crates : List CrateList} {before : List CodePoint}
    (h : ∀ c ∈ crates, ∀ e ∈ c.entries, e.Plain) (hlast : .char '\n' ∈ before.getLast?)
    (hbefore : ¬ opening <:+: before) : all (before ++ lines crates) = assignments crates := by
  induction crates generalizing before with
  | nil =>
    rw [all_append_of_last (by decide) hlast hbefore, lines_nil]
    exact all_eq_nil not_infix_epilogue
  | cons c cs ih =>
    obtain ⟨hc, hcs⟩ := List.forall_mem_cons.1 h
    rw [all_append_of_last (by decide) hlast hbefore, lines_cons,
      all_of_some (start?_line c (lines cs)),
      ih hcs (by rw [c.getLast?_listLine]; rfl) (c.not_infix_listLine hc)]
    rfl

theorem all_generated {crates : List CrateList} (h : ∀ c ∈ crates, ∀ e ∈ c.entries, e.Plain) :
    all (generated crates) = assignments crates :=
  all_lines h (by rfl) (not_infix_of_not_mem (by decide))

/-- A generated fragment is read back as the records it is meant to say, without a notice, if and
    only if every match of the pattern in it but the lines of the crates is an empty list of some
    crate. -/
theorem read_back_iff (crates : List CrateList) (trait : Text) (ht : Text.trim trait ≠ "") :
    parse (Text.ofList (generated crates)) trait =
        ⟨.ok (.single (Text.trim trait) (crates.flatMap CrateList.records)), []⟩ ↔
      ∀ a ∈ all (generated crates), a ∈ assignments crates ∨ a.Silent :=
  ⟨silent_of_read_back ht, read_back_of_silent ht⟩

/-- A crate with one entry, its signature in markup with quotes in it. -/
def sample : CrateList :=
  ⟨.escaped "core", [⟨.escaped "impl <a class=\"trait\">Drop</a>", true, [.escaped "core::Slot"]⟩]⟩

theorem sample_plain : ∀ c ∈ [sample], ∀ e ∈ c.entries, e.Plain := by
  simp only [List.forall_mem_singleton, sample]
  refine ⟨not_infix_of_not_mem (by decide), ?_⟩
  simp only [List.forall_mem_singleton]
  exact not_infix_of_not_mem (by decide)

theorem read_back_iff_sample :
    Text.trim " m::T" ≠ "" ∧
      parse (Text.ofList (generated [sample])) " m::T" =
        ⟨.ok (.single "m::T" [⟨"impl <a class=\"trait\">Drop</a>", true, "core::Slot", "core"⟩]),
          []⟩ := by
  have hall : ∀ a ∈ all (generated [sample]), a ∈ assignments [sample] ∨ a.Silent := by
    intro a ha
    rw [all_generated sample_plain] at ha
    exact .inl ha
  refine ⟨by decide, ?_⟩
  have h := (read_back_iff [sample] " m::T" (by decide)).2 hall
  exact h

/-- A crate whose only signature looks like the list of another crate. -/
def disguised : CrateList :=
  ⟨.escaped "a", [⟨.escaped "implementors['b'] = [\x7btext:'x'\x7d]", false, [.escaped "p"]⟩]⟩

/-- What stands behind the list in the signature. -/
def disguisedAfter : List CodePoint :=
  ("\",synthetic:false,types:[\"p\"]\x7d,];\n" : Text).toList ++ epilogue

/-- The assignment in the signature. -/
def disguisedAssignment : Assignment :=
  ⟨['\'', 'b', '\''], '[' :: (shortItems.chars ++ disguisedAfter)⟩

theorem disguised_listLine : disguised.listLine ++ lines [] = ("[\x7btext:\"" : Text).toList ++
    (opening ++ (("'b'] = " : Text).toList ++ disguisedAssignment.rest)) := rfl

theorem start?_disguised :
    start? (opening ++ (("'b'] = " : Text).toList ++ disguisedAssignment.rest)) =
      some disguisedAssignment := by
  have hkey : IsKey ['\'', 'b', '\''] :=
    ⟨'\'', ['b'], rfl, .plain (by decide) (by decide) .nil, rfl⟩
  exact start?_append hkey .nil .nil (.single rfl) (.single rfl) (solid_cons (by decide) _)

/-- Behind the assignment in the signature there is no other. -/
theorem all_disguised_rest : all disguisedAssignment.rest = [] := by
  have hline : ¬ opening <:+:
      ("[\x7btext:'x'\x7d]\",synthetic:false,types:[\"p\"]\x7d,];" : Text).toList := by
    have hopening : .char 'm' ∈ opening := by decide
    exact fun hin => absurd (hin.subset hopening) (by decide)
  exact all_eq_nil (not_infix_append_cons (by decide) hline not_infix_epilogue)

theorem all_disguised : all (generated [disguised]) =
    [⟨disguised.name.quoted, disguised.listLine ++ lines []⟩, disguisedAssignment] := by
  rw [generated, all_append_of_last (by decide : .char '\n' ∉ opening) (by rfl)
    (not_infix_of_not_mem (by decide)), lines_cons, all_of_some (start?_line disguised (lines [])),
    disguised_listLine, all_append_of_last (by decide : .char '"' ∉ opening) (by rfl)]
  · rw [all_of_some start?_disguised, all_disguised_rest]
  · intro hin
    exact absurd hin.length_le (by decide)

theorem read?_disguised : disguisedAssignment.read? =
    some (("b" : Text), [.object [(("text" : Text), .text "x")]]) := by
  have hrest : disguisedAssignment.rest =
    .char '[' :: (shortItems.chars ++ disguisedAfter) := rfl
  exact read?_eq_some_iff.2 ⟨rfl, entries_of_items hrest 0⟩

/-- What is written in a signature is taken for an assignment: the fragment of one crate with one
    entry has a record more, of a crate that is not there. -/
theorem signature_taken_for_assignment :
    parse (Text.ofList (generated [disguised])) "m::T" =
        ⟨.ok (.single "m::T" (disguised.records ++ [⟨"x", false, "", "b"⟩])), []⟩ ∧
      parse (Text.ofList (generated [disguised])) "m::T" ≠
        ⟨.ok (.single "m::T" disguised.records), []⟩ := by
  have hsource : (Text.ofList (generated [disguised])).toList = generated [disguised] := rfl
  have hfirst := disguised.read? (lines [])
  have hbare : ∀ a ∈ all (generated [disguised]), ¬ a.Bare := by
    rw [all_disguised]
    simp only [List.forall_mem_cons]
    exact ⟨not_bare_of_read? hfirst, not_bare_of_read? read?_disguised, List.forall_mem_nil _⟩
  have htold : ∀ a ∈ all (generated [disguised]), Told "m::T" a [] := by
    rw [all_disguised]
    simp only [List.forall_mem_cons]
    exact ⟨(told_iff_of_read? hfirst).2 rfl, (told_iff_of_read? read?_disguised).2 rfl,
      List.forall_mem_nil _⟩
  have htrim : Text.trim "m::T" = "m::T" := by decide
  have ht : Text.trim "m::T" ≠ "" := by decide
  obtain ⟨logs, hp, hlogs⟩ := parse_of_not_bare ht (hsource.symm ▸ hbare)
  have hkept : (all (generated [disguised])).flatMap kept =
      disguised.records ++ [⟨"x", false, "", "b"⟩] := by
    rw [all_disguised, List.flatMap_cons, List.flatMap_singleton, kept, hfirst, kept,
      read?_disguised]
    rfl
  rw [htrim, hsource] at hlogs hp
  rw [(flatten_eq_nil_of_told hlogs).2 htold, hkept] at hp
  refine ⟨hp, fun h => ?_⟩
  rw [hp] at h
  have hrecords := single_inj (Except.ok.inj (Outcome.mk.inj h).1)
  exact absurd (congrArg List.length hrecords) (by simp)

end TraitIndex.Fragment
