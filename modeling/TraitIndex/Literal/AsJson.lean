import TraitIndex.Json.Quoted
import TraitIndex.Literal.Extent
import TraitIndex.Text.Blank

/-! Literals as JSON.

    `asJson` turns a literal into JSON: a name before a colon gets quotes, a quoted text gets JSON
    quotes and escapes, and a comma before a closing bracket is left out. All else stays, so text
    that is JSON already is not changed. -/

namespace TraitIndex.Literal

/-- A character that starts a name. -/
def isNameStart (c : CodePoint) : Bool :=
  ('A' ≤ c && c ≤ 'Z') || ('a' ≤ c && c ≤ 'z') || c == '_' || c == '$'

/-- A character of a name. -/
def isNameChar (c : CodePoint) : Bool := isNameStart c || ('0' ≤ c && c ≤ '9')

/-- The first character that is no blank. -/
def firstSolid (s : List CodePoint) : Option CodePoint := (s.dropWhile Text.isBlank).head?

/-- A name as it is written: in quotes before a colon. -/
def nameAs (name after : List CodePoint) : List CodePoint :=
  if firstSolid after = some (.char ':') then Json.escapedAscii name else name

/-- The literal as JSON; it fails only on a quoted text that does not end. -/
def asJson : List CodePoint → Except Fault (List CodePoint)
  | [] => .ok []
  | c :: rest =>
    if isQuote c then
      match _h : body c rest with
      | some (written, after) => (asJson after).map (.char '"' :: written ++ .char '"' :: ·)
      | none => .error .unterminatedText
    else if isNameStart c then
      let after := rest.dropWhile isNameChar
      (asJson after).map (nameAs (c :: rest.takeWhile isNameChar) after ++ ·)
    else if c = ',' ∧ (firstSolid rest).any closes then asJson rest
    else (asJson rest).map (c :: ·)
termination_by s => s.length
decreasing_by
  · have := length_lt_of_body _h
    simp only [List.length_cons]
    omega
  · have := (List.dropWhile_suffix isNameChar (l := rest)).length_le
    simp only [List.length_cons]
    omega
  all_goals simp

end TraitIndex.Literal
