import TraitIndex.Proofs.Files

/-! The trait that a path tells.

    The generator puts the fragment of a trait below a directory `implementors`, in a directory for
    each module, as `trait.Name.js`. The path tells the trait again, wherever the tree lies and
    however the path is spelled. Where no name holds a colon, different places tell different
    traits. Loading takes the blanks off the two ends of what the path tells, so two fragments come
    together exactly if the same is left of both. -/

namespace TraitIndex

namespace Text

/-! ### Parts between separators -/

section Parts

variable {isSeparator : CodePoint → Bool}

theorem splitAt_solid {part : List CodePoint} (h : ∀ c ∈ part, isSeparator c = false) :
    splitAt isSeparator part = [part] := by
  induction part with
  | nil => rfl
  | cons c part ih =>
    rw [List.forall_mem_cons] at h
    rw [splitAt, if_neg (Bool.eq_false_iff.1 h.1), ih h.2]

theorem splitAt_append {part : List CodePoint} (h : ∀ c ∈ part, isSeparator c = false)
    {c : CodePoint} (hc : isSeparator c = true) (rest : List CodePoint) :
    splitAt isSeparator (part ++ c :: rest) = part :: splitAt isSeparator rest := by
  induction part with
  | nil => rw [List.nil_append, splitAt, if_pos hc]
  | cons a part ih =>
    rw [List.forall_mem_cons] at h
    rw [List.cons_append, splitAt, if_neg (Bool.eq_false_iff.1 h.1), ih h.2]

/-- Parts that are joined by a separator are the parts of the whole. -/
theorem splitAt_intercalate {c : CodePoint} (hc : isSeparator c = true) :
    ∀ {parts : List (List CodePoint)}, parts ≠ [] →
      (∀ part ∈ parts, ∀ c ∈ part, isSeparator c = false) →
        splitAt isSeparator ([c].intercalate parts) = parts
  | [], hne, _ => absurd rfl hne
  | [part], _, h => by
    rw [List.intercalate_singleton]
    exact splitAt_solid (h part (List.mem_singleton_self part))
  | part :: next :: rest, _, h => by
    rw [List.forall_mem_cons] at h
    rw [List.intercalate_cons_cons, List.append_assoc, List.singleton_append,
      splitAt_append h.1 hc, splitAt_intercalate hc (List.cons_ne_nil next rest) h.2]

end Parts

theorem intercalate_singleton (separator part : Text) : intercalate separator [part] = part := by
  rw [← toList_inj, toList_intercalate, List.map_singleton, List.intercalate_singleton]

theorem beq_false_of_notMem {c : CodePoint} {part : List CodePoint} (h : c ∉ part) :
    ∀ a ∈ part, (a == c) = false :=
  fun _ ha => beq_false_of_ne fun e => h (e ▸ ha)

/-- Parts without a character are told from what they make with that character, twice, between
    them. -/
theorem intercalate_twice_inj {c : CodePoint} :
    ∀ {parts parts' : List (List CodePoint)}, parts ≠ [] → parts' ≠ [] →
      (∀ part ∈ parts, c ∉ part) →
      (∀ part ∈ parts', c ∉ part) → [c, c].intercalate parts = [c, c].intercalate parts' →
        parts = parts'
  | [], _, hne, _, _, _, _ => absurd rfl hne
  | _, [], _, hne, _, _, _ => absurd rfl hne
  | [part], [part'], _, _, _, _, h => by
    rw [List.intercalate_singleton, List.intercalate_singleton] at h
    rw [h]
  | [part], part' :: next' :: rest', _, _, hsolid, _, h => by
    rw [List.intercalate_singleton, List.intercalate_cons_cons] at h
    exact absurd (by rw [h]; simp) (hsolid part (List.mem_singleton_self part))
  | part :: next :: rest, [part'], _, _, _, hsolid', h => by
    rw [List.intercalate_singleton, List.intercalate_cons_cons] at h
    exact absurd (by rw [← h]; simp) (hsolid' part' (List.mem_singleton_self part'))
  | part :: next :: rest, part' :: next' :: rest', _, _, hsolid, hsolid', h => by
    rw [List.forall_mem_cons] at hsolid hsolid'
    simp only [List.intercalate_cons_cons, List.append_assoc, List.cons_append,
      List.nil_append] at h
    obtain rfl : part = part' := by
      have hsplit := congrArg (splitAt (· == c)) h
      rw [splitAt_append (beq_false_of_notMem hsolid.1) (beq_self_eq_true c),
        splitAt_append (beq_false_of_notMem hsolid'.1) (beq_self_eq_true c)] at hsplit
      exact (List.cons.inj hsplit).1
    have hrest : [c, c].intercalate (next :: rest) = [c, c].intercalate (next' :: rest') := by
      simpa using h
    rw [intercalate_twice_inj (List.cons_ne_nil next rest) (List.cons_ne_nil next' rest')
      hsolid.2 hsolid'.2 hrest]

end Text

namespace Path

/-! ### Spellings -/

/-- A text spells names: they stand in it between slashes, with any number of empty parts and of
    parts `.` among them. An empty first part makes the path absolute. -/
def Spells (s : Text) (names : List Text) : Prop :=
  ∃ parts : List Text, (∀ part ∈ parts, .char '/' ∉ part.toList) ∧ s = Text.intercalate "/" parts ∧
    parts.filter (fun part : Text => part ≠ "" ∧ part ≠ ".") = names

theorem isName_toList (part : Text) :
    isName part.toList = decide (part ≠ "" ∧ part ≠ ".") := by
  have hempty : part.toList = [] ↔ part = "" := @Text.toList_inj part ""
  have hpoint : part.toList = [.char '.'] ↔ part = "." := @Text.toList_inj part "."
  simp only [isName, ne_eq, hempty, hpoint, Bool.decide_and]

/-- A path has the names that its text spells. -/
theorem Spells.names {s : Text} {names : List Text} (h : Spells s names) :
    (ofText s).names = names := by
  obtain ⟨parts, hsolid, rfl, rfl⟩ := h
  have hparts : ∀ part ∈ parts.map Text.toList, ∀ c ∈ part, (c == .char '/') = false :=
    List.forall_mem_map.2 fun part hmem => Text.beq_false_of_notMem (hsolid part hmem)
  rcases hne : parts with _ | ⟨first, rest⟩
  · rfl
  · rw [← hne]
    have hsplit : Text.splitAt (· == .char '/') (Text.intercalate "/" parts).toList =
        parts.map Text.toList := by
      rw [Text.toList_intercalate]
      exact Text.splitAt_intercalate rfl (by simp [hne]) hparts
    rw [ofText, hsplit, List.filter_map, List.map_map]
    simp only [Function.comp_def, isName_toList, Text.ofList_toList, List.map_id']

/-! ### File names -/

/-- A text that fits if there is one, and else the text itself. -/
def FittingOr (s : Text) (fits : Text → Prop) (left : Text) : Prop :=
  fits left ∨ left = s ∧ ∀ a, ¬ fits a

/-- What is left of a file name without one `.js` at its end and then one `trait.` at its start. -/
def Leaves (file left : Text) : Prop :=
  ∃ stem, FittingOr file (fun a => file = a ++ ".js") stem ∧
    FittingOr stem (fun a => stem = "trait." ++ a) left

theorem fittingOr_iff {s left : Text} {fits : Text → Prop} {found : Option (List CodePoint)}
    (h : ∀ a : Text, found = some a.toList ↔ fits a) :
    FittingOr s fits left ↔ left = Text.ofList (found.getD s.toList) := by
  rcases found with _ | front
  · have hnone : ∀ a, ¬ fits a := fun a ha => absurd ((h a).2 ha) (by simp)
    rw [Option.getD_none, Text.ofList_toList]
    exact ⟨fun hs => (hs.resolve_left (hnone left)).1, fun e => .inr ⟨e, hnone⟩⟩
  · have hfits : fits (Text.ofList front) := (h _).1 (by rw [Text.toList_ofList])
    rw [Option.getD_some]
    refine ⟨fun hs => ?_, fun e => .inl (e ▸ hfits)⟩
    have hleft := (h left).2 (hs.resolve_right fun hno => hno.2 _ hfits)
    rw [Option.some.inj hleft, Text.ofList_toList]

theorem leaves_iff {p : Path} {left : Text} :
    Leaves p.fileName left ↔ left = Text.ofList p.traitName := by
  have hend : ∀ file stem : Text, FittingOr file (fun a => file = a ++ ".js") stem ↔
      stem = Text.ofList ((Text.beforeEnd? (".js" : Text).toList file.toList).getD file.toList) :=
    fun file _ => fittingOr_iff fun a => by
      rw [Text.beforeEnd?_eq_some_iff, ← Text.toList_append, Text.toList_inj]
  have hstart : ∀ stem : Text, FittingOr stem (fun a => stem = "trait." ++ a) left ↔
      left =
        Text.ofList ((Text.afterStart? ("trait." : Text).toList stem.toList).getD stem.toList) :=
    fun stem => fittingOr_iff fun a => by
      rw [Text.afterStart?_eq_some_iff, ← Text.toList_append, Text.toList_inj]
  simp only [Leaves, hend, exists_eq_left, hstart, traitName]

/-- The file of a trait leaves its name. -/
theorem leaves_generated (name : Text) : Leaves ("trait." ++ name ++ ".js") name :=
  ⟨"trait." ++ name, .inl rfl, .inl rfl⟩

/-! ### What the path tells -/

/-- The path tells what its file name leaves, below the directories after `implementors`. -/
theorem trait?_of_leaves {p : Path} {left : Text} (h : Leaves p.fileName left)
    (hne : left ≠ "") : p.trait? = some (Text.intercalate "::" (p.modules ++ [left])) := by
  have hname := leaves_iff.1 h
  have hsome : p.traitName ≠ [] := fun e => hne (by rw [hname, e]; rfl)
  rw [trait?, if_neg hsome, ← hname]

/-- The path tells nothing exactly if its file name leaves nothing. -/
theorem trait?_eq_none_iff {p : Path} : p.trait? = none ↔ Leaves p.fileName "" := by
  have hempty : "" = Text.ofList p.traitName ↔ p.traitName = [] := by
    rw [eq_comm, ← Text.toList_inj, Text.toList_ofList]
    rfl
  rw [leaves_iff, hempty, trait?]
  split
  · exact iff_of_true rfl ‹_›
  · exact iff_of_false (by simp) ‹_›

theorem fileName_of_names {p : Path} {dirs : List Text} {file : Text}
    (h : p.names = dirs ++ [file]) : p.fileName = file := by
  rw [fileName, h, List.getLast?_concat, Option.getD_some]

/-- Without a directory `implementors` there are no modules. -/
theorem modules_of_not_mem {p : Path} {dirs : List Text} {file : Text}
    (h : p.names = dirs ++ [file]) (hdirs : ("implementors" : Text) ∉ dirs) : p.modules = [] := by
  rw [modules, h, List.dropLast_concat, afterLast, if_neg hdirs]

/-- The modules are the directories after the last one named `implementors`. -/
theorem modules_of_last {p : Path} {before ms : List Text} {file : Text}
    (h : p.names = before ++ ("implementors" : Text) :: ms ++ [file])
    (hms : ("implementors" : Text) ∉ ms) :
    p.modules = ms := by
  have hne : ∀ x ∈ ms.reverse, decide (x ≠ ("implementors" : Text)) = true := fun x hx =>
    decide_eq_true fun e => hms (e ▸ List.mem_reverse.1 hx)
  rw [modules, h, List.dropLast_concat, afterLast, if_pos (by simp), List.reverse_append,
    List.reverse_cons, List.append_assoc, List.takeWhile_append_of_pos hne]
  simp

/-! ### Places of traits -/

/-- The place of a fragment in a generated tree: the modules above the trait and its name. -/
structure Place where
  modules : List Text
  name : Text
  name_ne : name ≠ ""
  notRoot : ("implementors" : Text) ∉ modules

namespace Place

/-- The names on the way to the fragment, in a tree that lies below some directories. -/
def way (t : Place) (above : List Text) : List Text :=
  above ++ ("implementors" : Text) :: t.modules ++ ["trait." ++ t.name ++ ".js"]

/-- The trait: modules and name with two colons between them. -/
def trait (t : Place) : Text := Text.intercalate "::" (t.modules ++ [t.name])

/-- No colon stands in the modules or in the name. -/
def Colonless (t : Place) : Prop := ∀ part ∈ t.modules ++ [t.name], .char ':' ∉ part.toList

instance (t : Place) : Decidable t.Colonless :=
  inferInstanceAs (Decidable (∀ part ∈ t.modules ++ [t.name], .char ':' ∉ part.toList))

/-- A spelled way tells the trait. -/
theorem trait?_of_spells {t : Place} {above : List Text} {s : Text}
    (h : Spells s (t.way above)) : (ofText s).trait? = some t.trait := by
  have hfile := fileName_of_names h.names
  have hmodules := modules_of_last h.names t.notRoot
  rw [trait?_of_leaves (hfile ▸ leaves_generated t.name) t.name_ne, hmodules, trait]

/-- Different places tell different traits, unless a colon stands in a name. -/
theorem eq_of_trait_eq {t u : Place} (ht : t.Colonless) (hu : u.Colonless)
    (h : t.trait = u.trait) : t = u := by
  have hsolid : ∀ {t : Place}, t.Colonless →
      ∀ part ∈ (t.modules ++ [t.name]).map Text.toList, .char ':' ∉ part := fun ht =>
    List.forall_mem_map.2 ht
  have hparts : (t.modules ++ [t.name]).map Text.toList =
      (u.modules ++ [u.name]).map Text.toList := by
    refine Text.intercalate_twice_inj (by simp) (by simp) (hsolid ht) (hsolid hu) ?_
    have hchars := congrArg Text.toList h
    rwa [trait, trait, Text.toList_intercalate, Text.toList_intercalate] at hchars
  have hnames := List.map_injective_iff.2 (fun _ _ => Text.toList_inj.1) hparts
  obtain ⟨hmodules, hname⟩ := List.append_inj' hnames rfl
  obtain ⟨modules, name, _, _⟩ := t
  obtain ⟨modules', name', _, _⟩ := u
  obtain rfl : modules = modules' := hmodules
  obtain rfl : name = name' := List.singleton_inj.1 hname
  rfl

end Place
end Path

/-- No trait gets records from both batches. -/
def Table.Apart (b b' : Batch) : Prop := ∀ x ∈ b.traits, x ∉ b'.traits

namespace Loading

open TraitIndex.Path

/-! ### Fragments that are loaded -/

/-- A loaded fragment is a batch of the trait that its path tells, without the blanks around it. -/
theorem traits_of_fragment {d : Disk} {p : Path} {trait : Text} {b : Batch}
    (htrait : p.trait? = some trait) (h : (fragment d p none).result = .ok b) :
    b.traits = [Text.trim trait] := by
  obtain ⟨-, told, records, -, htold, -, -, rfl⟩ := exists_of_fragment h
  obtain rfl : trait = told := Option.some.inj (htrait.symm.trans (traitFor_none_iff.1 htold))
  rfl

theorem apart_iff {b b' : Batch} {trait trait' : Text} (h : b.traits = [trait])
    (h' : b'.traits = [trait']) : b.Apart b' ↔ trait ≠ trait' := by
  simp only [Table.Apart, h, h', List.mem_singleton, forall_eq, ne_eq]

theorem traitOf_eq_error_iff {p : Path} {spelled : Text} {why : Fault} :
    traitOf p spelled = .error why ↔ why = .unnamedTrait spelled ∧ Leaves p.fileName "" := by
  rw [← trait?_eq_none_iff, traitOf]
  rcases p.trait? with _ | trait
  · exact ⟨fun h => ⟨(Except.error.inj h).symm, rfl⟩, fun h => by rw [h.1]⟩
  · exact ⟨fun h => absurd h (by simp), fun h => absurd h.2 (by simp)⟩

/-- The path of a generated fragment tells its trait, below any directories and in any spelling,
    and different places tell different traits where no name holds a colon. Loaded fragments stay
    apart as long as what they tell differs in more than blanks around it. A path without
    `implementors` tells what its file name leaves, and only a path whose file name leaves nothing
    tells nothing. -/
theorem path_tells_trait :
    (∀ (t : Place) (above : List Text) (s : Text), Spells s (t.way above) →
      traitOf (ofText s) s = .ok t.trait) ∧
    (∀ t u : Place, t.Colonless → u.Colonless → t ≠ u → t.trait ≠ u.trait) ∧
    (∀ (d : Disk) (t u : Place) (above above' : List Text) (s s' : Text) (b b' : Batch),
      Spells s (t.way above) → Spells s' (u.way above') →
        (fragment d (ofText s) none).result = .ok b →
          (fragment d (ofText s') none).result = .ok b' →
            (b.Apart b' ↔ Text.trim t.trait ≠ Text.trim u.trait)) ∧
    (∀ (dirs : List Text) (file left s : Text), ("implementors" : Text) ∉ dirs →
      Spells s (dirs ++ [file]) → Leaves file left → left ≠ "" →
        traitOf (ofText s) s = .ok left) ∧
    (∀ (s : Text) (why : Fault), traitOf (ofText s) s = .error why ↔
      why = .unnamedTrait s ∧ Leaves (ofText s).fileName "") := by
  refine ⟨fun t above s hs => ?_, fun t u ht hu hne h => hne (Place.eq_of_trait_eq ht hu h),
    fun d t u above above' s s' b b' hs hs' hb hb' => ?_,
    fun dirs file left s hdirs hs hleft hne => ?_, fun s why => traitOf_eq_error_iff⟩
  · rw [traitOf, Place.trait?_of_spells hs]
  · exact apart_iff (traits_of_fragment (Place.trait?_of_spells hs) hb)
      (traits_of_fragment (Place.trait?_of_spells hs') hb')
  · have hfile := fileName_of_names hs.names
    rw [traitOf, trait?_of_leaves (hfile ▸ hleft) hne, modules_of_not_mem hs.names hdirs,
      List.nil_append, Text.intercalate_singleton]

/-- The place of a trait `A` in a module `m`. -/
def plainPlace : Place := ⟨["m"], "A", by decide, by decide⟩

/-- The place of a trait in the same module whose name ends in a blank. -/
def blankPlace : Place := ⟨["m"], "A ", by decide, by decide⟩

/-- A disk with an empty fragment at either place. -/
def twins : Disk :=
  { root := .directory [("implementors", .directory [("m", .directory
      [("trait.A.js", .file "".toUTF8), ("trait.A .js", .file "".toUTF8)])])] }

theorem plainPlace_ne_blankPlace : plainPlace ≠ blankPlace := fun h =>
  absurd (congrArg Place.name h) (by decide)

theorem spells_plain : Spells "implementors//m/./trait.A.js" (plainPlace.way []) :=
  ⟨["implementors", "", "m", ".", "trait.A.js"], by decide, by decide, by decide⟩

theorem spells_blank : Spells "implementors/m/trait.A .js" (blankPlace.way []) :=
  ⟨["implementors", "m", "trait.A .js"], by decide, by decide, by decide⟩

theorem fragment_plain :
    fragment twins (ofText "implementors//m/./trait.A.js") none =
      ⟨.ok (.single "m::A" []), []⟩ :=
  fragment_of_empty_file "m::A" (by decide) rfl (by decide) (by decide)

theorem fragment_blank :
    fragment twins (ofText "implementors/m/trait.A .js") none = ⟨.ok (.single "m::A" []), []⟩ :=
  fragment_of_empty_file "m::A " (by decide) rfl (by decide) (by decide)

/-- Both places, a path without `implementors` and a path that tells nothing. -/
theorem path_tells_trait_twins :
    traitOf (ofText "implementors//m/./trait.A.js") "implementors//m/./trait.A.js" =
        .ok "m::A" ∧
      plainPlace.trait ≠ blankPlace.trait ∧
      (Table.Apart (.single "m::A" []) (.single "m::A" []) ↔
        Text.trim plainPlace.trait ≠ Text.trim blankPlace.trait) ∧
      traitOf (ofText "lib/trait.trait.js.js") "lib/trait.trait.js.js" = .ok "trait.js" ∧
      traitOf (ofText "lib/trait..js") "lib/trait..js" =
        .error (.unnamedTrait "lib/trait..js") := by
  obtain ⟨htells, hdiffer, happart, hplain, hnothing⟩ := path_tells_trait
  refine ⟨htells plainPlace [] _ spells_plain,
    hdiffer plainPlace blankPlace (by decide) (by decide) plainPlace_ne_blankPlace,
    happart twins plainPlace blankPlace [] [] _ _ _ _ spells_plain spells_blank
      (congrArg Outcome.result fragment_plain) (congrArg Outcome.result fragment_blank),
    hplain ["lib"] "trait.trait.js.js" "trait.js" _ (by decide)
      ⟨["lib", "trait.trait.js.js"], by decide, by decide, by decide⟩ (leaves_generated "trait.js")
      (by decide),
    (hnothing "lib/trait..js" _).2 ⟨rfl, leaves_generated ""⟩⟩

/-- Two traits without colons whose names differ in a blank at the end come together when their
    fragments are loaded. -/
theorem blank_brings_fragments_together :
    plainPlace.Colonless ∧ blankPlace.Colonless ∧ plainPlace ≠ blankPlace ∧
      Spells "implementors//m/./trait.A.js" (plainPlace.way []) ∧
      Spells "implementors/m/trait.A .js" (blankPlace.way []) ∧
      (fragment twins (ofText "implementors//m/./trait.A.js") none).result =
        .ok (.single "m::A" []) ∧
      (fragment twins (ofText "implementors/m/trait.A .js") none).result =
        .ok (.single "m::A" []) ∧
      ¬ Table.Apart (.single "m::A" []) (.single "m::A" []) :=
  ⟨by decide, by decide, plainPlace_ne_blankPlace, spells_plain, spells_blank,
    congrArg Outcome.result fragment_plain, congrArg Outcome.result fragment_blank,
    fun h => h "m::A" (List.mem_singleton_self _) (List.mem_singleton_self _)⟩

end Loading
end TraitIndex
