import Mathlib.Data.List.Forall2
import Mathlib.Data.List.Lex
import Mathlib.Data.List.Nodup
import TraitIndex.Proofs.Files

/-! Directories that are read.

    A directory stands for the fragments in it and below it. Each of them is read once, in the order
    of the names on the way to it, one name after another. A fragment that is text adds its batch
    and what is told about it, just as if it were loaded alone; one that is no text adds a notice.
    A directory may be named like a fragment; what is in it counts, and it does not. -/

namespace TraitIndex

/-! ### The order of names -/

namespace Text

instance : Trans (· < · : Text → Text → Prop) (· < ·) (· < ·) := ⟨List.lt_trans⟩

instance : Std.Irrefl (· < · : Text → Text → Prop) := ⟨fun s => List.lt_irrefl s.toList⟩

instance : Std.Trichotomous (· < · : Text → Text → Prop) where
  trichotomous s t hst hts := by
    rcases Std.lt_trichotomy s.toList t.toList with h | h | h
    · exact absurd h hst
    · exact toList_inj.1 h
    · exact absurd h hts

end Text

namespace Tree

/-! ### What lies at a way -/

/-- A way leads to a file with some bytes. -/
inductive At : Tree → List Text → ByteArray → Prop
  | here (bytes : ByteArray) : At (.file bytes) [] bytes
  | inside {entries : List (Text × Tree)} {name : Text} {t : Tree} {way : List Text}
      {bytes : ByteArray} : (name, t) ∈ entries → At t way bytes →
        At (.directory entries) (name :: way) bytes

mutual

/-- In all directories no name stands twice, spelled in one way or two, and none is `..`. -/
def isProper : Tree → Bool
  | .file _ => true
  | .directory entries => areProper entries

/-- In a directory and in those below it no name stands twice, and none is `..`. -/
def areProper : List (Text × Tree) → Bool
  | [] => true
  | (name, t) :: rest =>
    name ≠ ".." && rest.all (fun entry => !FileName.same name entry.1) && isProper t &&
      areProper rest

end

theorem areProper_cons {name : Text} {t : Tree} {rest : List (Text × Tree)} :
    areProper ((name, t) :: rest) = true ↔
      name ≠ ".." ∧ (∀ entry ∈ rest, FileName.same name entry.1 = false) ∧ isProper t = true ∧
        areProper rest = true := by
  simp [areProper, and_assoc]

/-- What stands in a directory is found there. -/
theorem lookup_of_mem {entries : List (Text × Tree)} {name : Text} {t : Tree}
    (hproper : areProper entries = true) (h : (name, t) ∈ entries) :
    name ≠ ".." ∧ isProper t = true ∧ lookup entries name = some t := by
  induction entries with
  | nil => exact absurd h (by simp)
  | cons entry rest ih =>
    obtain ⟨name', t'⟩ := entry
    obtain ⟨hup, hother, ht, hrest⟩ := areProper_cons.1 hproper
    rcases List.mem_cons.1 h with he | h
    · obtain ⟨rfl, rfl⟩ := Prod.mk.inj he
      exact ⟨hup, ht, by simp [lookup, FileName.same]⟩
    · obtain ⟨hup', ht', hfound⟩ := ih hrest h
      refine ⟨hup', ht', ?_⟩
      rw [lookup, List.find?_cons_of_neg (by simp [hother _ h])]
      exact hfound

/-! ### The list of all files -/

mutual

theorem mem_files_iff : ∀ (t : Tree) (way : List Text),
    way ∈ files t ↔ ∃ bytes, At t way bytes
  | .file bytes, way => by
    rw [files, List.mem_singleton]
    constructor
    · rintro rfl
      exact ⟨bytes, .here bytes⟩
    · rintro ⟨bytes', h⟩
      cases h
      rfl
  | .directory entries, way => by
    rw [files]
    exact mem_filesOf_iff entries way

/-- The list holds the ways to all files. -/
theorem mem_filesOf_iff : ∀ (entries : List (Text × Tree)) (way : List Text),
    way ∈ filesOf entries ↔ ∃ bytes, At (.directory entries) way bytes
  | [], way => by
    rw [filesOf]
    refine iff_of_false (by simp) ?_
    rintro ⟨bytes, h⟩
    cases h with
    | inside hmem _ => exact absurd hmem (by simp)
  | (name, t) :: rest, way => by
    rw [filesOf, List.mem_append, List.mem_map, mem_filesOf_iff rest way]
    constructor
    · rintro (⟨way', hway, rfl⟩ | ⟨bytes, h⟩)
      · obtain ⟨bytes, h⟩ := (mem_files_iff t way').1 hway
        exact ⟨bytes, .inside (List.mem_cons_self ..) h⟩
      · cases h with
        | inside hmem h => exact ⟨bytes, .inside (List.mem_cons_of_mem _ hmem) h⟩
    · rintro ⟨bytes, h⟩
      cases h with
      | inside hmem h =>
        rcases List.mem_cons.1 hmem with he | hmem
        · obtain ⟨rfl, rfl⟩ := Prod.mk.inj he
          exact .inl ⟨_, (mem_files_iff _ _).2 ⟨bytes, h⟩, rfl⟩
        · exact .inr ⟨bytes, .inside hmem h⟩

end

theorem head_of_mem_filesOf {entries : List (Text × Tree)} {name : Text} {way : List Text}
    (h : name :: way ∈ filesOf entries) : ∃ entry ∈ entries, entry.1 = name := by
  obtain ⟨bytes, h⟩ := (mem_filesOf_iff _ _).1 h
  cases h with
  | inside hmem _ => exact ⟨_, hmem, rfl⟩

mutual

theorem nodup_files : ∀ t : Tree, isProper t = true → (files t).Nodup
  | .file _, _ => List.nodup_singleton _
  | .directory entries, h => nodup_filesOf entries h

/-- The list holds no way twice. -/
theorem nodup_filesOf : ∀ entries : List (Text × Tree), areProper entries = true →
    (filesOf entries).Nodup
  | [], _ => List.nodup_nil
  | (name, t) :: rest, h => by
    obtain ⟨-, hother, ht, hrest⟩ := areProper_cons.1 h
    have hhere : ((files t).map (name :: ·)).Nodup :=
      List.Nodup.map (fun _ _ e => (List.cons.inj e).2) (nodup_files t ht)
    refine List.nodup_append.2 ⟨hhere, nodup_filesOf rest hrest, ?_⟩
    rintro way hway way' hway' rfl
    obtain ⟨tail, -, rfl⟩ := List.mem_map.1 hway
    obtain ⟨entry, hmem, rfl⟩ := head_of_mem_filesOf hway'
    exact absurd (hother entry hmem) (by simp [FileName.same])

end

end Tree

namespace Disk

variable {d : Disk} {p : Path}

/-- A file in a proper tree is found, unless a name on the way is too long. -/
theorem walk_of_at {t : Tree} {way : List Text} {bytes : ByteArray} (h : t.At way bytes)
    (hproper : t.isProper = true) (above : List Tree) :
    walk above t way = .ok (.file bytes) ∨ walk above t way = .error .pathTooLong := by
  induction h generalizing above with
  | here bytes => exact .inl rfl
  | inside hmem h ih =>
    obtain ⟨hup, ht, hfound⟩ := Tree.lookup_of_mem hproper hmem
    simp only [walk, if_neg hup, hfound]
    split
    · exact .inr rfl
    · exact ih ht _

/-- A file below a directory is found from there, unless the path is too long or is not one of
    bytes. -/
theorem find_below {t : Tree} {way : List Text} {bytes : ByteArray}
    (hfound : d.find p = .ok t) (hproper : t.isProper = true) (h : t.At way bytes) :
    d.find (p.below way) = .ok (.file bytes) ∨ d.find (p.below way) = .error .pathTooLong ∨
      d.find (p.below way) = .error .unwritableText := by
  have hway : d.wayOf (p.below way) = d.wayOf p ++ way := by
    by_cases ha : p.anchor = "" <;> simp [wayOf, Path.below, ha]
  have hwalk : walk [] d.root (d.wayOf p) = .ok t := by
    unfold find at hfound
    split at hfound
    · exact absurd hfound (by simp)
    · split at hfound
      · exact absurd hfound (by simp)
      · exact hfound
  obtain ⟨above, habove⟩ := walk_append hwalk
  rw [find, hway, habove]
  split
  · exact .inr (.inr rfl)
  · split
    · exact .inr (.inl rfl)
    · exact (walk_of_at h hproper above).imp_right .inl

end Disk

namespace Path

/-! ### The order of ways -/

theorem inOrder_iff {a b : List Text} : inOrder a b = true ↔ a = b ∨ a < b := by
  induction a generalizing b with
  | nil => cases b <;> simp [inOrder]
  | cons x a ih =>
    cases b with
    | nil => simp [inOrder]
    | cons y b =>
      rw [inOrder, List.cons_lt_cons_iff]
      by_cases h : x = y
      · simp [h, ih, Std.Irrefl.irrefl y]
      · simp [h]

theorem inOrder_trans (a b c : List Text) (hab : inOrder a b = true)
    (hbc : inOrder b c = true) : inOrder a c = true := by
  rw [inOrder_iff] at *
  rcases hab with rfl | hab
  · exact hbc
  · rcases hbc with rfl | hbc
    · exact .inr hab
    · exact .inr (List.lt_trans hab hbc)

theorem inOrder_total (a b : List Text) : (inOrder a b || inOrder b a) = true := by
  rw [Bool.or_eq_true, inOrder_iff, inOrder_iff]
  rcases Std.lt_trichotomy a b with h | rfl | h
  · exact .inl (.inr h)
  · exact .inl (.inl rfl)
  · exact .inr (.inr h)

/-- Different ways that are sorted ascend. -/
theorem pairwise_mergeSort {ways : List (List Text)} (h : ways.Nodup) :
    (ways.mergeSort inOrder).Pairwise (· < ·) := by
  have hsorted := List.pairwise_mergeSort inOrder_trans inOrder_total ways
  have hne : (ways.mergeSort inOrder).Pairwise (· ≠ ·) :=
    (List.mergeSort_perm ways inOrder).nodup_iff.2 h
  exact (hsorted.and hne).imp fun h => (inOrder_iff.1 h.1).resolve_left h.2

end Path

namespace Loading

variable {d : Disk} {p : Path}

/-! ### The shares of the files -/

/-- The way ends in a name that ends like a fragment's. -/
def LeadsToFragment (way : List Text) : Prop :=
  ∃ (dirs : List Text) (stem : Text), way = dirs ++ [stem ++ ".js"]

theorem leadsToFragment_iff {way : List Text} :
    way.getLast?.any Path.isFragmentName = true ↔ LeadsToFragment way := by
  have hname : ∀ name : Text, Path.isFragmentName name = true ↔ ∃ stem, name = stem ++ ".js" := by
    intro name
    rw [Path.isFragmentName, Option.isSome_iff_exists]
    constructor
    · rintro ⟨stem, h⟩
      refine ⟨Text.ofList stem, Text.toList_inj.1 ?_⟩
      rw [Text.toList_append, Text.toList_ofList, ← Text.beforeEnd?_eq_some_iff]
      exact h
    · rintro ⟨stem, rfl⟩
      exact ⟨stem.toList, Text.beforeEnd?_eq_some_iff.2 (Text.toList_append stem ".js")⟩
  unfold LeadsToFragment
  rcases List.eq_nil_or_concat way with rfl | ⟨dirs, name, rfl⟩
  · simp
  · rw [List.concat_eq_append, List.getLast?_concat, Option.any_some, hname]
    constructor
    · rintro ⟨stem, rfl⟩
      exact ⟨dirs, stem, rfl⟩
    · rintro ⟨dirs', stem, h⟩
      exact ⟨stem, List.singleton_inj.1 (List.append_inj' h rfl).2⟩

/-- What a file adds to what is loaded from a directory: as text what it comes to alone, and
    otherwise a notice. -/
inductive Share (d : Disk) (p : Path) (t : Tree) (way : List Text) :
    List Batch × List Notice → Prop
  | text {bytes : ByteArray} {b : Batch} {told : List Notice} : t.At way bytes →
      bytes.IsValidUTF8 → fragment d (p.below way) none = ⟨.ok b, told⟩ →
        Share d p t way ([b], told)
  | noText {bytes : ByteArray} : t.At way bytes → ¬ bytes.IsValidUTF8 →
      fragment d (p.below way) none = ⟨.error .invalidEncoding, []⟩ →
        Share d p t way ([], [.fragmentSkipped (p.below way).toText .invalidEncoding])

variable {t : Tree}

/-- A file that alone is loaded or is no text has its share. -/
theorem exists_share {way : List Text} {bytes : ByteArray} (hfound : d.find p = .ok t)
    (hproper : t.isProper = true) (h : t.At way bytes)
    (hloads : (∃ b, (fragment d (p.below way) none).result = .ok b) ∨
      (fragment d (p.below way) none).result = .error .invalidEncoding) :
    ∃ share, Share d p t way share := by
  have hfile : ∀ {r : Except Fault String}, d.readText (p.below way) = r →
      r ≠ .error .nullInPath → r ≠ .error .pathTooLong → r ≠ .error .unwritableText →
        d.find (p.below way) = .ok (.file bytes) := by
    intro r hr hnull hlong hbytes
    refine (Disk.find_below hfound hproper h).resolve_right ?_
    rintro (hf | hf)
    · exact (Disk.readText_of_find_error hf).elim (fun e => hnull (hr.symm.trans e))
        fun e => hlong (hr.symm.trans e)
    · exact (Disk.readText_of_find_error hf).elim (fun e => hnull (hr.symm.trans e))
        fun e => hbytes (hr.symm.trans e)
  rcases hr : d.readText (p.below way) with why | source
  · have hfailed := fragment_of_unread hr none
    obtain rfl : why = .invalidEncoding := by
      rw [hfailed] at hloads
      exact hloads.elim (fun ⟨b, hb⟩ => absurd hb (by simp)) Except.error.inj
    have htext := Disk.readText_eq_invalidEncoding_iff bytes
      (hfile hr (by simp) (by simp) (by simp))
    exact ⟨_, .noText h (htext.1 hr).2 hfailed⟩
  · obtain ⟨b, hb⟩ : ∃ b, (fragment d (p.below way) none).result = .ok b := by
      refine hloads.resolve_right fun he => ?_
      exact absurd (hr.symm.trans (readText_of_fragment_invalidEncoding he)) (by simp)
    have hvalid := Disk.isValidUTF8_of_readText (hfile hr (by simp) (by simp) (by simp)) hr
    rcases hf : fragment d (p.below way) none with ⟨result, told⟩
    rw [hf] at hb
    obtain rfl : result = .ok b := hb
    exact ⟨_, .text h hvalid hf⟩

theorem exists_shares {ways : List (List Text)} (hfound : d.find p = .ok t)
    (hproper : t.isProper = true) (h : ∀ way ∈ ways, ∃ bytes, t.At way bytes)
    (hloads : ∀ way ∈ ways, (∃ b, (fragment d (p.below way) none).result = .ok b) ∨
      (fragment d (p.below way) none).result = .error .invalidEncoding) :
    ∃ shares, List.Forall₂ (Share d p t) ways shares := by
  induction ways with
  | nil => exact ⟨[], .nil⟩
  | cons way ways ih =>
    rw [List.forall_mem_cons] at h hloads
    obtain ⟨bytes, hat⟩ := h.1
    obtain ⟨share, hshare⟩ := exists_share hfound hproper hat hloads.1
    obtain ⟨shares, hshares⟩ := ih h.2 hloads.2
    exact ⟨share :: shares, .cons hshare hshares⟩

/-- Files one after another come to their shares one after another. -/
theorem fragments_of_shares {ways : List (List Text)} {shares : List (List Batch × List Notice)}
    (h : List.Forall₂ (Share d p t) ways shares) :
    fragments d (ways.map p.below) = ⟨.ok (shares.flatMap Prod.fst), shares.flatMap Prod.snd⟩ := by
  induction h with
  | nil => rfl
  | cons hshare hrest ih =>
    cases hshare with
    | text hat hvalid hloaded =>
      simp only [List.map_cons, fragments, hloaded, ih, Outcome.ok_bind, Outcome.pure_eq,
        List.flatMap_cons, List.append_nil]
      rfl
    | noText hat hvalid hfailed =>
      simp only [List.map_cons, fragments, hfailed, ih, Outcome.note_bind, List.flatMap_cons,
        List.nil_append]

theorem isDirectory_of_find {entries : List (Text × Tree)}
    (hfound : d.find p = .ok (.directory entries)) : d.isDirectory p = true := by
  rw [Disk.isDirectory, hfound]

/-- Where every fragment below a directory alone is loaded or is no text, the fragments are read
    once each, in ascending order of the names on the way to them, and the directory comes to their
    shares in that order. -/
theorem directory_read_in_order {entries : List (Text × Tree)}
    (hfound : d.find p = .ok (.directory entries)) (hproper : Tree.areProper entries = true)
    (hloads : ∀ way bytes, (Tree.directory entries).At way bytes → LeadsToFragment way →
      (∃ b, (fragment d (p.below way) none).result = .ok b) ∨
        (fragment d (p.below way) none).result = .error .invalidEncoding) :
    ∃ ways shares,
      ways.Pairwise (· < ·) ∧
      (∀ way, way ∈ ways ↔
        LeadsToFragment way ∧ ∃ bytes, (Tree.directory entries).At way bytes) ∧
      List.Forall₂ (Share d p (.directory entries)) ways shares ∧
      batches d p = ⟨.ok (shares.flatMap Prod.fst), shares.flatMap Prod.snd⟩ := by
  let ways := ((Tree.filesOf entries).filter fun way => way.getLast?.any Path.isFragmentName)
  have hmem : ∀ way, way ∈ ways.mergeSort Path.inOrder ↔
      LeadsToFragment way ∧ ∃ bytes, (Tree.directory entries).At way bytes := by
    intro way
    rw [List.mem_mergeSort, List.mem_filter, Tree.mem_filesOf_iff, leadsToFragment_iff, and_comm]
  obtain ⟨shares, hshares⟩ := exists_shares hfound hproper (fun way hway => ((hmem way).1 hway).2)
    fun way hway => by
      obtain ⟨hfragment, bytes, hat⟩ := (hmem way).1 hway
      exact hloads way bytes hat hfragment
  refine ⟨ways.mergeSort Path.inOrder, shares,
    Path.pairwise_mergeSort ((Tree.nodup_filesOf entries hproper).filter _), hmem, hshares, ?_⟩
  have hpaths : fragmentPaths d p = .ok ((ways.mergeSort Path.inOrder).map p.below) := by
    rw [fragmentPaths, hfound]
  rw [batches, if_pos (isDirectory_of_find hfound), hpaths]
  exact fragments_of_shares hshares

/-- A directory with a fragment, a file that is none, a directory that is named like a fragment and
    one with a fragment that is no text. -/
def mixedEntries : List (Text × Tree) :=
  [("a-b.js", .file "".toUTF8), ("notes.txt", .file "".toUTF8),
    ("b.js", .directory [("d.js", .file "".toUTF8)]),
    ("a", .directory [("z.js", .file ⟨#[0xff]⟩)])]

/-- A disk with that directory. -/
def mixedDisk : Disk := { root := .directory [("lib", .directory mixedEntries)] }

theorem mixed_loads (way : List Text) (bytes : ByteArray)
    (h : (Tree.directory mixedEntries).At way bytes) (hfragment : LeadsToFragment way) :
    (∃ b, (fragment mixedDisk ((Path.ofText "lib").below way) none).result = .ok b) ∨
      (fragment mixedDisk ((Path.ofText "lib").below way) none).result =
        .error .invalidEncoding := by
  have hway := (Tree.mem_filesOf_iff _ _).2 ⟨bytes, h⟩
  have hways : Tree.filesOf mixedEntries =
      ([["a-b.js"], ["notes.txt"], ["b.js", "d.js"], ["a", "z.js"]] : List (List Text)) := rfl
  rw [hways] at hway
  have hempty : ∀ {p : Path} (trait : Text), Disk.Writable p →
      mixedDisk.find p = .ok (.file "".toUTF8) → p.trait? = some trait → Text.trim trait ≠ "" →
        ∃ b, (fragment mixedDisk p none).result = .ok b := fun trait hw hf ht hne =>
    ⟨_, congrArg Outcome.result (fragment_of_empty_file trait hw hf ht hne)⟩
  simp only [List.mem_cons, List.not_mem_nil, or_false] at hway
  rcases hway with rfl | rfl | rfl | rfl
  · exact .inl (hempty "a-b" (by decide) rfl (by decide) (by decide))
  · exact absurd (leadsToFragment_iff.2 hfragment) (by decide)
  · exact .inl (hempty "d" (by decide) rfl (by decide) (by decide))
  · have hread : mixedDisk.readText ((Path.ofText "lib").below ["a", "z.js"]) =
        .error .invalidEncoding :=
      (Disk.readText_eq_invalidEncoding_iff ⟨#[0xff]⟩ rfl).2 ⟨by decide, by decide⟩
    exact .inr (by rw [fragment_of_unread hread])

/-- The fragment that is no text comes first, by its directory, and hinders none of the others. -/
theorem directory_read_in_order_mixed :
    mixedDisk.find (Path.ofText "lib") = .ok (.directory mixedEntries) ∧
      Tree.areProper mixedEntries = true ∧
      ∃ ways shares, ways.Pairwise (· < ·) ∧
        (∀ way, way ∈ ways ↔
          LeadsToFragment way ∧ ∃ bytes, (Tree.directory mixedEntries).At way bytes) ∧
        List.Forall₂ (Share mixedDisk (Path.ofText "lib") (.directory mixedEntries)) ways shares ∧
        batches mixedDisk (Path.ofText "lib") =
          ⟨.ok (shares.flatMap Prod.fst), shares.flatMap Prod.snd⟩ :=
  ⟨rfl, by decide, directory_read_in_order rfl (by decide) mixed_loads⟩

end Loading
end TraitIndex
