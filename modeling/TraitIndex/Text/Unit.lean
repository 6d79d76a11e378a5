import TraitIndex.Text.CodePoint

/-! Sixteen-bit units.

    A character beyond the first 65536 is written as a pair of units, a high one and a low one, and
    any other code point as one unit. `ofUnits` reads units back. Half of a pair without its partner
    stays the half that it is. -/

namespace TraitIndex.Text

/-- A unit that opens a pair. -/
def isHigh (n : Nat) : Bool := 0xd800 ≤ n && n < 0xdc00

/-- A unit that closes a pair. -/
def isLow (n : Nat) : Bool := 0xdc00 ≤ n && n < 0xe000

/-- The character of a pair of units. -/
def pairedUnits (high low : Nat) : CodePoint :=
  CodePoint.ofNat (0x10000 + (high - 0xd800) * 0x400 + (low - 0xdc00))

/-- The code points that units denote. -/
def ofUnits : List Nat → List CodePoint
  | [] => []
  | [n] => [.ofNat n]
  | h :: l :: rest =>
    if isHigh h && isLow l then pairedUnits h l :: ofUnits rest
    else .ofNat h :: ofUnits (l :: rest)

example : ofUnits [0x41, 0xd83d, 0xde00, 0xde00] = [.char 'A', .char '😀', .half 0x600] := by
  decide

end TraitIndex.Text
