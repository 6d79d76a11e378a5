import TraitIndex.Text.CodePoint

/-! Texts.

    A text is a list of code points. A string is a text, and a text without halves of pairs is a
    string: only such a text can be sent or written as bytes, which `Text.string?` finds out. -/

namespace TraitIndex

/-- A text by its code points. -/
structure Text where
  ofList ::
  toList : List CodePoint
  deriving DecidableEq, Repr

namespace Text

/-- The text of a string. -/
def ofString (s : String) : Text := ofList (s.toList.map .char)

instance : Coe String Text := ⟨ofString⟩

instance : Inhabited Text := ⟨ofList []⟩

instance : Append Text := ⟨fun s t => ofList (s.toList ++ t.toList)⟩

instance : LT Text := ⟨fun s t => s.toList < t.toList⟩

instance : DecidableLT Text := fun s t => inferInstanceAs (Decidable (s.toList < t.toList))

/-- Texts with a text between neighbours. -/
def intercalate (separator : Text) (parts : List Text) : Text :=
  ofList (separator.toList.intercalate (parts.map toList))

/-- The string of a text that has no half of a pair. -/
def string? (t : Text) : Option String := (t.toList.mapM CodePoint.char?).map String.ofList

/-- The text has no half of a pair. -/
def isWhole (t : Text) : Bool := t.toList.all CodePoint.isChar

/-! ### Texts as lists -/

@[simp] theorem toList_ofList (s : List CodePoint) : (ofList s).toList = s := rfl

@[simp] theorem ofList_toList (t : Text) : ofList t.toList = t := rfl

theorem toList_inj {s t : Text} : s.toList = t.toList ↔ s = t :=
  ⟨fun h => by cases s; cases t; simpa using h, fun h => by rw [h]⟩

@[simp] theorem toList_append (s t : Text) : (s ++ t).toList = s.toList ++ t.toList := rfl

@[simp] theorem toList_intercalate (separator : Text) (parts : List Text) :
    (intercalate separator parts).toList = separator.toList.intercalate (parts.map toList) := rfl

/-! ### Strings as texts -/

@[simp] theorem toList_ofString (s : String) : (ofString s).toList = s.toList.map .char := rfl

@[simp] theorem ofString_inj {s t : String} : ofString s = ofString t ↔ s = t := by
  rw [← toList_inj, toList_ofString, toList_ofString, List.map_inj_right (fun _ _ => by simp),
    String.toList_inj]

@[simp] theorem ofString_append (s t : String) :
    ofString (s ++ t) = ofString s ++ ofString t := by
  simp [← toList_inj]

@[simp] theorem isWhole_ofString (s : String) : (ofString s).isWhole = true := by
  simp [isWhole]

@[simp] theorem string?_ofString (s : String) : (ofString s).string? = some s := by
  have h : (s.toList.map CodePoint.char).mapM CodePoint.char? = some s.toList := by
    induction s.toList with
    | nil => rfl
    | cons c s ih => simp [ih]
  rw [string?, toList_ofString, h]
  simp

/-- A text with half of a pair is no string. -/
theorem string?_eq_none {t : Text} (h : t.isWhole = false) : t.string? = none := by
  have hmap : ∀ s : List CodePoint, s.all CodePoint.isChar = false →
      s.mapM CodePoint.char? = none := by
    intro s hs
    induction s with
    | nil => exact absurd hs (by simp)
    | cons c s ih =>
      cases c with
      | half n => rfl
      | char c => simp [ih (by simpa using hs)]
  rw [string?, hmap _ h]
  rfl

@[simp] theorem isWhole_append (s t : Text) : (s ++ t).isWhole = (s.isWhole && t.isWhole) := by
  simp [isWhole]

/-- Code points that are all characters come from characters. -/
theorem all_isChar_iff {s : List CodePoint} :
    s.all CodePoint.isChar = true ↔ ∃ cs : List Char, s = cs.map .char := by
  constructor
  · intro h
    induction s with
    | nil => exact ⟨[], rfl⟩
    | cons c s ih =>
      rw [List.all_cons, Bool.and_eq_true] at h
      obtain ⟨cs, rfl⟩ := ih h.2
      cases c with
      | char c => exact ⟨c :: cs, rfl⟩
      | half n => exact absurd h.1 (by simp)
  · rintro ⟨cs, rfl⟩
    simp

/-- The texts without halves of pairs are those of strings. -/
theorem isWhole_iff {t : Text} : t.isWhole = true ↔ ∃ s : String, t = ofString s := by
  rw [isWhole, all_isChar_iff]
  constructor
  · rintro ⟨cs, hcs⟩
    exact ⟨String.ofList cs, by rw [← toList_inj, hcs, toList_ofString, String.toList_ofList]⟩
  · rintro ⟨s, rfl⟩
    exact ⟨s.toList, rfl⟩

end Text
end TraitIndex
