import TraitIndex.Api.Message
import TraitIndex.Proofs.Numbers

/-! What can be sent.

    An answer is sent as the compact text of a document, in which no half of a pair may stand. Only
    the texts and the names of a document can hold one, for whatever is written around them is
    characters, and an escape is one exactly where the escaped code point is. So whether a document
    can be sent shows in its texts and names. -/

namespace TraitIndex

theorem CodePoint.isChar_of_isDigit {c : CodePoint} (h : c.isDigit = true) : c.isChar = true := by
  rw [isDigit, Bool.and_eq_true, decide_eq_true_eq, decide_eq_true_eq] at h
  exact isChar_of_toNat_lt (by omega)

/-- Blanks at the ends of a text go without making halves of pairs. -/
theorem Text.isWhole_trim {t : Text} (h : t.isWhole = true) : (trim t).isWhole = true := by
  refine List.all_eq_true.2 fun c hc => List.all_eq_true.1 h c ?_
  have hc := List.mem_reverse.1 ((List.dropWhile_suffix _).subset (List.mem_reverse.1 hc))
  exact (List.dropWhile_suffix _).subset hc

namespace Json

/-! ### Documents without halves -/

mutual

/-- No text and no name in the document has half of a pair. -/
def isWhole : Json → Bool
  | .text s => s.isWhole
  | .list items => allWhole items
  | .object fields => fieldsWhole fields
  | _ => true

def allWhole : List Json → Bool
  | [] => true
  | x :: rest => isWhole x && allWhole rest

def fieldsWhole : List (Text × Json) → Bool
  | [] => true
  | (name, x) :: rest => name.isWhole && isWhole x && fieldsWhole rest

end

theorem allWhole_iff {xs : List Json} : allWhole xs = true ↔ ∀ x ∈ xs, isWhole x = true := by
  induction xs with
  | nil => simp [allWhole]
  | cons x rest ih => simp [allWhole, ih]

theorem fieldsWhole_iff {fields : List (Text × Json)} :
    fieldsWhole fields = true ↔ ∀ p ∈ fields, p.1.isWhole = true ∧ isWhole p.2 = true := by
  induction fields with
  | nil => simp [fieldsWhole]
  | cons p rest ih => simp [fieldsWhole, ih, and_assoc]

/-! ### What is written around the texts -/

theorem all_isChar_separated {separator : List CodePoint}
    (hseparator : separator.all CodePoint.isChar = true) (ws : List (List CodePoint)) :
    (separated separator ws).all CodePoint.isChar = ws.all (·.all CodePoint.isChar) := by
  fun_induction separated separator ws with
  | case1 => rfl
  | case2 w => simp
  | case3 v w rest ih =>
    rw [List.all_append, List.all_append, hseparator, ih, Bool.and_true, List.all_cons (a := v)]

theorem all_isChar_digits {ds : List CodePoint} (h : ∀ c ∈ ds, c.isDigit = true) :
    ds.all CodePoint.isChar = true :=
  List.all_eq_true.2 fun c hc => CodePoint.isChar_of_isDigit (h c hc)

theorem Exponent.all_isChar (e : Exponent) : e.chars.all CodePoint.isChar = true := by
  have hsign : e.signChars.all CodePoint.isChar = true := by
    unfold signChars
    rcases e.sign with _ | _ | _ <;> rfl
  have hmarker : e.marker.isChar = true := by rcases e.marked with h | h <;> rw [h] <;> rfl
  rw [chars, List.all_cons, List.all_append, hmarker, hsign, all_isChar_digits e.digits.digit]
  rfl

theorem Decimal.all_isChar (d : Decimal) : d.chars.all CodePoint.isChar = true := by
  have hplaces : d.placesChars.all CodePoint.isChar = true := by
    rcases hp : d.places with _ | ds
    · rw [placesChars, hp]
      rfl
    · rw [placesChars, hp]
      show ds.chars.all CodePoint.isChar = true
      exact all_isChar_digits ds.digit
  have hpower : d.powerChars.all CodePoint.isChar = true := by
    rcases hp : d.power with _ | e
    · rw [powerChars, hp]
      rfl
    · rw [powerChars, hp]
      exact e.all_isChar
  rw [chars, List.all_append, List.all_append, all_isChar_digits d.whole.digit, hplaces, hpower]
  rfl

theorem all_isChar_floatText (x : Binary64) : (floatText x).all CodePoint.isChar = true := by
  cases x with
  | nan => rfl
  | infinite negative => cases negative <;> rfl
  | finite negative m q =>
    obtain ⟨d, hd, -⟩ := Binary64.toText_finite negative m q
    rw [floatText, hd, List.all_append, d.all_isChar]
    · cases negative <;> rfl
    all_goals simp

/-! ### The texts -/

theorem all_isChar_hexDigits (width n : Nat) :
    (Text.hexDigits width n).all CodePoint.isChar = true := by
  have hdigit : ∀ d < 16, (Text.hexDigit d).isChar = true := by decide
  induction width generalizing n with
  | zero => rfl
  | succ width ih =>
    rw [Text.hexDigits, List.all_append, ih, List.all_cons, List.all_nil,
      hdigit _ (Nat.mod_lt _ (by decide))]
    rfl

theorem isChar_of_shortEscape? {c e : CodePoint} (h : shortEscape? c = some e) :
    c.isChar = true ∧ e.isChar = true := by
  unfold shortEscape? at h
  split at h
  case h_8 => exact absurd h (by simp)
  all_goals
    obtain rfl := Option.some.inj h
    exact ⟨rfl, rfl⟩

/-- A code point is written with characters if it is one itself. -/
theorem all_isChar_escapedChar (c : CodePoint) :
    (escapedChar c).all CodePoint.isChar = c.isChar := by
  unfold escapedChar
  rcases he : shortEscape? c with _ | e
  · by_cases hc : c < ' '
    · have hchar : c.isChar = true :=
        CodePoint.isChar_of_toNat_lt (Nat.lt_trans (CodePoint.lt_iff.1 hc) (by decide))
      simp only [hc, if_true, hchar]
      rw [unitEscape, List.all_cons, List.all_cons, all_isChar_hexDigits]
      rfl
    · simp only [hc, if_false, List.all_cons, List.all_nil, Bool.and_true]
  · obtain ⟨hc, he⟩ := isChar_of_shortEscape? he
    simp only [List.all_cons, List.all_nil, he, hc]
    rfl

theorem all_isChar_escaped (s : Text) : (escaped s.toList).all CodePoint.isChar = s.isWhole := by
  have hchars : (s.toList.flatMap escapedChar).all CodePoint.isChar = s.isWhole := by
    rw [List.all_flatMap, Text.isWhole]
    exact congrArg _ (funext all_isChar_escapedChar)
  rw [escaped, List.all_append, List.all_cons, hchars]
  exact Bool.and_true _

mutual

/-- The compact text is whole if the document is. -/
theorem all_isChar_compactWith :
    ∀ x : Json, (compactWith escaped x).all CodePoint.isChar = isWhole x
  | .null => rfl
  | .bool true => rfl
  | .bool false => rfl
  | .int n => Text.isWhole_ofString (toString n)
  | .float x => all_isChar_floatText x
  | .text s => all_isChar_escaped s
  | .list items => by
    rw [compactWith, List.all_append, List.all_cons, all_isChar_separated rfl,
      all_isChar_compactItems, isWhole]
    exact Bool.and_true _
  | .object fields => by
    rw [compactWith, List.all_append, List.all_cons, all_isChar_separated rfl,
      all_isChar_compactFields, isWhole]
    exact Bool.and_true _

theorem all_isChar_compactItems :
    ∀ xs : List Json, (compactItems escaped xs).all (·.all CodePoint.isChar) = allWhole xs
  | [] => rfl
  | x :: rest => by
    rw [compactItems, List.all_cons, all_isChar_compactWith, all_isChar_compactItems, allWhole]

theorem all_isChar_compactFields : ∀ fields : List (Text × Json),
    (compactFields escaped fields).all (·.all CodePoint.isChar) = fieldsWhole fields
  | [] => rfl
  | (name, x) :: rest => by
    rw [compactFields, List.all_cons, List.all_append, List.all_cons, all_isChar_escaped,
      all_isChar_compactWith, all_isChar_compactFields, fieldsWhole]
    rfl

end

/-- A document can be sent if no text and no name in it has half of a pair. -/
theorem isWhole_compact (x : Json) : (compact x).isWhole = isWhole x := all_isChar_compactWith x

end Json

namespace Api.Response

open Json (isWhole_compact)

theorem giving_of_isWhole {j : Json} (h : j.isWhole = true) (status : Nat) :
    giving status j = ⟨status, .document j⟩ := by
  rw [giving, if_pos ((isWhole_compact j).trans h)]

theorem success_of_isWhole {j : Json} (h : j.isWhole = true) : success j = ⟨200, .document j⟩ :=
  giving_of_isWhole h 200

theorem giving_of_not_isWhole {j : Json} (h : j.isWhole = false) (status : Nat) :
    giving status j = ⟨500, .unsendable⟩ := by
  rw [giving, isWhole_compact, h, if_neg Bool.false_ne_true]

/-- The text of a document that is given. -/
theorem text?_document {j : Json} {text : String} (h : j.compact = text) (status : Nat) :
    (Response.mk status (.document j)).text? = some text := by
  show j.compact.string? = _
  rw [h, Text.string?_ofString]

/-- What is given is a document exactly if it can be sent. -/
theorem giving_eq_iff {status status' : Nat} {j j' : Json} :
    giving status j = ⟨status', .document j'⟩ ↔ status = status' ∧ j = j' ∧ j.isWhole = true := by
  cases h : j.isWhole with
  | true => simp [giving_of_isWhole h]
  | false => simp [giving_of_not_isWhole h]

end Api.Response
end TraitIndex
