import TraitIndex.Intake
import TraitIndex.Text.Blank
import TraitIndex.Text.LowerCase

/-! Reading the fields of a query.

    A flag is a truth value or one of a few words, a cursor is a whole number from zero on, and a
    trait is a text that is not blank. -/

namespace TraitIndex.Query

/-- The words for yes. -/
def yesWords : List Text := ["1", "true", "yes", "on"]

/-- The words for no. -/
def noWords : List Text := ["0", "false", "no", "off"]

/-- A flag under the name of its field. -/
def flag (field : Text) : Value → Except Fault Bool
  | .bool b => .ok b
  | .null => .error (.missing field)
  | v => do
    let word := Text.ofList (Text.lower (Text.trim (← Intake.text v)).toList)
    if word ∈ yesWords then .ok true
    else if word ∈ noWords then .ok false
    else .error (.invalid field)

/-- A cursor: the number of the last delivery seen. Nothing at all is before the first. -/
def cursor : Value → Except Fault Nat
  | .null => .ok 0
  | .text "" => .ok 0
  | v =>
    match v.integer with
    | .error _ => .error (.invalid "since")
    | .ok n => if n < 0 then .error .negativeSince else .ok n.toNat

/-- A trait under the name of its field. -/
def trait (field : Text) : Value → Except Fault Text
  | .null => .error (.missing field)
  | v => do
    let name := Text.trim (← Intake.text v)
    if name = "" then .error (.empty field) else .ok name

end TraitIndex.Query
