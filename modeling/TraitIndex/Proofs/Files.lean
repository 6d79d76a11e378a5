import TraitIndex.Files.Loading
import TraitIndex.Proofs.FragmentOutcome

/-! Files that are read.

    What a path with one more way behind it leads to, what the bytes of a file are read as, and what
    loading a single fragment comes to: the fault of reading, the fault of its name, or what its
    text holds. Bytes that are no text are one fault of reading, and nothing that comes after the
    reading fails like that. -/

namespace TraitIndex

namespace Disk

/-! ### Texts -/

theorem lineFeeds_of_not_mem {s : List Char} (h : '\r' ∉ s) : lineFeeds s = s := by
  fun_induction lineFeeds s with
  | case1 => rfl
  | case2 rest => exact absurd (List.mem_cons_self ..) h
  | case3 c rest _ ih =>
    rw [List.mem_cons, not_or] at h
    rw [ih h.2, if_neg (Ne.symm h.1)]

theorem fromUTF8?_toByteArray (s : String) : String.fromUTF8? s.toByteArray = some s := by
  rw [String.fromUTF8?, dif_pos s.isValidUTF8]
  rfl

/-- No name of the path holds the null character. -/
def Writable (p : Path) : Prop := ∀ name ∈ p.names, .char '\x00' ∉ name.toList

instance (p : Path) : Decidable (Writable p) :=
  inferInstanceAs (Decidable (∀ name ∈ p.names, .char '\x00' ∉ name.toList))

variable {d : Disk} {p : Path}

/-- A path that leads somewhere is one of bytes. -/
theorem isWritable_of_find {t : Tree} (h : d.find p = .ok t) :
    FileName.isWritable p.toText = true := by
  unfold find at h
  split at h
  · exact absurd h (by simp)
  · rename_i hbytes
    exact Bool.not_eq_false _ ▸ hbytes

theorem find_of_not_isWritable (h : FileName.isWritable p.toText = false) :
    d.find p = .error .unwritableText := by
  rw [find, if_pos h]

theorem readText_of_not_isWritable (h : FileName.isWritable p.toText = false) :
    d.readText p = .error .unwritableText := by
  rw [readText, if_pos h]
  rfl

theorem readText_of_null (hbytes : FileName.isWritable p.toText = true) (h : ¬ Writable p) :
    d.readText p = .error .nullInPath := by
  have hnull : (p.names.any fun name => .char '\x00' ∈ name.toList) = true := by
    simpa [Writable] using h
  simp only [readText, hbytes, hnull, Bool.true_eq_false, if_false, if_true]
  rfl

/-- A path of bytes without the null character is read if it leads to a file. -/
theorem readText_of_writable (hbytes : FileName.isWritable p.toText = true) (h : Writable p) :
    d.readText p = d.find p >>= fun t =>
      match t with
      | .directory _ => .error .isDirectory
      | .file bytes =>
        match String.fromUTF8? bytes with
        | some s => .ok (String.ofList (lineFeeds s.toList))
        | none => .error .invalidEncoding := by
  have hnull : (p.names.any fun name => .char '\x00' ∈ name.toList) = false := by
    simpa [Writable] using h
  simp only [readText, hbytes, hnull, Bool.true_eq_false, Bool.false_eq_true, if_false]
  rfl

theorem readText_of_file {bytes : ByteArray} (h : Writable p)
    (hfound : d.find p = .ok (.file bytes)) : d.readText p =
      match String.fromUTF8? bytes with
      | some s => .ok (String.ofList (lineFeeds s.toList))
      | none => .error .invalidEncoding := by
  rw [readText_of_writable (isWritable_of_find hfound) h, hfound]
  rfl

/-- A text without carriage returns is read as it was written. -/
theorem readText_of_string {s : String} (h : Writable p) (hfound : d.find p = .ok (.file s.toUTF8))
    (hs : '\r' ∉ s.toList) : d.readText p = .ok s := by
  rw [readText_of_file h hfound, String.toUTF8_eq_toByteArray, fromUTF8?_toByteArray]
  simp only [lineFeeds_of_not_mem hs, String.ofList_toList]

theorem readText_of_empty_file (h : Writable p) (hfound : d.find p = .ok (.file "".toUTF8)) :
    d.readText p = .ok "" :=
  readText_of_string h hfound (by simp)

/-- A file is no text exactly if its bytes are none. -/
theorem readText_eq_invalidEncoding_iff (bytes : ByteArray)
    (hfound : d.find p = .ok (.file bytes)) :
    d.readText p = .error .invalidEncoding ↔ Writable p ∧ ¬ bytes.IsValidUTF8 := by
  by_cases hw : Writable p
  · rw [readText_of_file hw hfound, String.fromUTF8?]
    by_cases hv : bytes.IsValidUTF8
    · rw [dif_pos hv]
      exact iff_of_false (by simp) fun h => h.2 hv
    · rw [dif_neg hv]
      exact iff_of_true rfl ⟨hw, hv⟩
  · rw [readText_of_null (isWritable_of_find hfound) hw]
    simp [hw]

theorem isValidUTF8_of_readText {bytes : ByteArray} {source : String}
    (hfound : d.find p = .ok (.file bytes)) (h : d.readText p = .ok source) :
    bytes.IsValidUTF8 := by
  by_contra hno
  by_cases hw : Writable p
  · have hfailed := (readText_eq_invalidEncoding_iff bytes hfound).2 ⟨hw, hno⟩
    exact absurd (h.symm.trans hfailed) (by simp)
  · exact absurd (h.symm.trans (readText_of_null (isWritable_of_find hfound) hw)) (by simp)

theorem readText_of_find_error {why : Fault} (h : d.find p = .error why) :
    d.readText p = .error .nullInPath ∨ d.readText p = .error why := by
  cases hbytes : FileName.isWritable p.toText with
  | false =>
    rw [find_of_not_isWritable hbytes] at h
    rw [readText_of_not_isWritable hbytes, Except.error.inj h]
    exact .inr rfl
  | true =>
    by_cases hw : Writable p
    · rw [readText_of_writable hbytes hw, h]
      exact .inr rfl
    · exact .inl (readText_of_null hbytes hw)

/-! ### Ways -/

/-- Names that lead to a place are followed before those behind them. -/
theorem walk_append {names : List Text} {above : List Tree} {here t : Tree}
    (h : walk above here names = .ok t) :
    ∃ above', ∀ rest, walk above here (names ++ rest) = walk above' t rest := by
  fun_induction walk above here names with
  | case1 above here => exact ⟨above, fun rest => by rw [Except.ok.inj h, List.nil_append]⟩
  | case2 => exact absurd h (by simp)
  | case3 entries names ih =>
    obtain ⟨above', ih⟩ := ih h
    exact ⟨above', fun rest => by rw [List.cons_append, walk, if_pos rfl, ih]⟩
  | case4 entries names up above ih =>
    obtain ⟨above', ih⟩ := ih h
    exact ⟨above', fun rest => by rw [List.cons_append, walk, if_pos rfl, ih]⟩
  | case5 => exact absurd h (by simp)
  | case6 => exact absurd h (by simp)
  | case7 above entries name names hup hlong t' hfound ih =>
    obtain ⟨above', ih⟩ := ih h
    exact ⟨above', fun rest => by
      simp only [List.cons_append, walk, if_neg hup, if_neg hlong, hfound, ih]⟩

end Disk

namespace Loading

variable {d : Disk} {p : Path} {trait : Option Value}

/-! ### A single fragment -/

/-- The trait that is given for a fragment, or else the one that its path tells. -/
def traitFor (p : Path) : Option Value → Except Fault Text
  | some v => Intake.text v
  | none => traitOf p p.toText

theorem traitFor_none_iff {t : Text} : traitFor p none = .ok t ↔ p.trait? = some t := by
  rw [traitFor, traitOf]
  rcases p.trait? with _ | t'
  · exact iff_of_false (by simp) (by simp)
  · rw [Except.ok.injEq, Option.some.injEq]

theorem fragment_eq (d : Disk) (p : Path) (trait : Option Value) :
    fragment d p trait = Outcome.ofExcept (d.readText p) >>= fun source =>
      Outcome.ofExcept (traitFor p trait) >>= Fragment.parse source := by
  cases trait <;> rfl

theorem fragment_of_unread {why : Fault} (h : d.readText p = .error why) (trait : Option Value) :
    fragment d p trait = ⟨.error why, []⟩ := by
  rw [fragment_eq, h]
  rfl

theorem fragment_of_unnamed {source : String} {why : Fault} (hread : d.readText p = .ok source)
    (h : traitFor p trait = .error why) : fragment d p trait = ⟨.error why, []⟩ := by
  rw [fragment_eq, hread, h]
  rfl

/-- A text that is read, for a trait that is known. -/
theorem fragment_of_known {source : String} {t : Text} (hread : d.readText p = .ok source)
    (htrait : traitFor p trait = .ok t) : fragment d p trait = Fragment.parse source t := by
  simp only [fragment_eq, hread, htrait, Outcome.ofExcept, Outcome.ok_bind, List.nil_append]

/-- A fragment that is loaded is a text that is read, for a trait that is known: a batch of that
    trait alone, without the blanks around it. -/
theorem exists_of_fragment {b : Batch} (h : (fragment d p trait).result = .ok b) :
    ∃ source t records, d.readText p = .ok source ∧ traitFor p trait = .ok t ∧ Text.trim t ≠ "" ∧
      (Fragment.parse source t).result = .ok b ∧ b = .single (Text.trim t) records := by
  rw [fragment_eq] at h
  obtain ⟨source, hread, h⟩ := Outcome.ok_of_bind_ok h
  obtain ⟨t, htrait, h⟩ := Outcome.ok_of_bind_ok h
  rcases Fragment.parse_cases source t with ⟨-, hp⟩ | ⟨-, hp⟩ | ⟨hne, records, hp⟩
  · rw [hp] at h
    exact absurd h (by simp [Outcome.fail])
  · exact absurd (hp.symm.trans h) (by simp)
  · exact ⟨source, t, records, hread, htrait, hne, h, Except.ok.inj (h.symm.trans hp)⟩

/-- A single fragment is no text only if its file is none. -/
theorem readText_of_fragment_invalidEncoding
    (h : (fragment d p none).result = .error .invalidEncoding) :
    d.readText p = .error .invalidEncoding := by
  rcases hread : d.readText p with why | source
  · rw [fragment_of_unread hread] at h
    exact congrArg Except.error (Except.error.inj h)
  · rcases htrait : traitFor p none with why | t
    · rw [fragment_of_unnamed hread htrait] at h
      obtain rfl : why = .invalidEncoding := Except.error.inj h
      rw [traitFor, traitOf] at htrait
      split at htrait
      · exact absurd htrait (by simp)
      · exact absurd htrait (by simp)
    · rw [fragment_of_known hread htrait] at h
      rcases Fragment.parse_cases source t with ⟨-, hp⟩ | ⟨-, hp⟩ | ⟨-, records, hp⟩
      · rw [hp] at h
        exact absurd h (by simp [Outcome.fail])
      · exact absurd (hp.symm.trans h) (by simp)
      · exact absurd (hp.symm.trans h) (by simp)

/-- An empty file holds the trait that its path tells, without records. -/
theorem fragment_of_empty_file (t : Text) (hw : Disk.Writable p)
    (hfound : d.find p = .ok (.file "".toUTF8)) (htrait : p.trait? = some t)
    (ht : Text.trim t ≠ "") : fragment d p none = ⟨.ok (.single (Text.trim t) []), []⟩ := by
  rw [fragment_of_known (Disk.readText_of_empty_file hw hfound) (traitFor_none_iff.2 htrait)]
  simp only [Fragment.parse, if_neg ht, Text.toList_ofString, String.toList_empty, List.map_nil,
    Fragment.Assignment.all,
    Fragment.collect, Outcome.pure_eq, Outcome.ok_bind, List.append_nil]

end Loading
end TraitIndex
