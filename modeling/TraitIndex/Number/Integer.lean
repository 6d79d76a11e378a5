import TraitIndex.Text.Blank
import TraitIndex.Text.Digit

/-! Integers written by people.

    An integer is an optional sign and decimal digits of any script, between two of which one
    underscore may stand, in optional white space. The ASCII separators, blanks elsewhere, are not
    white space here. A text of more than `digitLimit` digits is refused, as is a number that would
    need more to be written. -/

namespace TraitIndex.Integer

/-- The most digits that the text of an integer may have. -/
def digitLimit : Nat := 4300

/-- The integer can be written within the limit. -/
def isWritable (n : Int) : Bool := n.natAbs < Nat.pow 10 digitLimit

/-- White space around an integer. -/
def isPadding (c : CodePoint) : Bool :=
  (0x09 ≤ c.toNat && c.toNat ≤ 0x0d) || c == ' ' || (0x7f ≤ c.toNat && Text.isBlank c)

/-- The digits of an unsigned integer, underscores left out. -/
def digits? : List CodePoint → Option (List Nat)
  | [] => none
  | [c] => (Text.digitValue? c).map ([·])
  | c :: '_' :: rest => do
    let d ← Text.digitValue? c
    let ds ← digits? rest
    return d :: ds
  | c :: rest => do
    let d ← Text.digitValue? c
    let ds ← digits? rest
    return d :: ds

/-- An unsigned integer within the limit. -/
def readNat? (s : List CodePoint) : Option Nat := do
  let ds ← digits? s
  if ds.length ≤ digitLimit then some (Text.ofDigits 10 ds) else none

/-- An integer with an optional sign, in optional white space. -/
def read? (s : List CodePoint) : Option Int :=
  match Text.trimBoth isPadding s with
  | '-' :: rest => (readNat? rest).map fun n => -(n : Int)
  | '+' :: rest => (readNat? rest).map Int.ofNat
  | unsigned => (readNat? unsigned).map Int.ofNat

example : read? [' ', '-', '1', '_', '0', '\n'] = some (-10) ∧ read? ['1', '_'] = none := by decide

end TraitIndex.Integer
