/-! Host names beyond ASCII.

    A label of a host name with other characters than ASCII is written in ASCII: its ASCII
    characters, a hyphen, and digits in base 36 that tell where the others belong. The others come
    in the order of their code points. Between two of them the text counts one state for every
    place and code point that is passed over; that number is written in digits whose thresholds
    follow the sizes seen so far. -/

namespace TraitIndex.Punycode

/-- A digit in base 36: letters, then digits. -/
def digit (n : Nat) : Char := if n < 26 then Char.ofNat (97 + n) else Char.ofNat (22 + n)

/-- The threshold of the digit at a position: one at first, at most 26. -/
def threshold (bias position : Nat) : Nat :=
  if position ≤ bias then 1 else if bias + 26 ≤ position then 26 else position - bias

/-- A threshold leaves at least ten digits above it. -/
theorem threshold_mem (bias position : Nat) :
    1 ≤ threshold bias position ∧ threshold bias position ≤ 26 := by
  unfold threshold
  split
  · omega
  · split <;> omega

/-- A number in digits, the last of which is below its threshold. -/
def digits (bias position n : Nat) : List Char :=
  let t := threshold bias position
  if n < t then [digit n]
  else digit (t + (n - t) % (36 - t)) :: digits bias (position + 36) ((n - t) / (36 - t))
termination_by n
decreasing_by
  have := threshold_mem bias position
  have := Nat.div_le_self (n - threshold bias position) (36 - threshold bias position)
  omega

/-- Large steps are scaled down, each time by one position. -/
def scaled (position step : Nat) : Nat :=
  if 455 < step then scaled (position + 36) (step / 35) else position + 36 * step / (step + 38)
termination_by step

/-- The bias after a number was written, the first one or not, as the text got its `count`-th
    character. -/
def adapted (step count : Nat) (isFirst : Bool) : Nat :=
  let step := if isFirst then step / 700 else step / 2
  scaled 0 (step + step / count)

/-- How far a label has been written: the code point looked at, the steps since the last digits,
    the bias, how many characters are told, and the digits so far. -/
structure Progress where
  point : Nat := 0x80
  step : Nat := 0
  bias : Nat := 72
  told : Nat
  written : List Char := []

/-- A character of the label is passed while a code point is looked at. -/
def Progress.pass (basic point : Nat) (p : Progress) (c : Char) : Progress :=
  if c.toNat < point then { p with step := p.step + 1 }
  else if c.toNat = point then
    { p with
      step := 0
      bias := adapted p.step (p.told + 1) (p.told == basic)
      told := p.told + 1
      written := p.written ++ digits p.bias 36 p.step }
  else p

/-- All occurrences of the next code point are told. -/
def Progress.tell (basic : Nat) (label : List Char) (p : Progress) (point : Nat) : Progress :=
  let p := { p with step := p.step + (point - p.point) * (p.told + 1), point }
  let p := label.foldl (Progress.pass basic point) p
  { p with step := p.step + 1, point := point + 1 }

/-- A label in ASCII. -/
def encode (label : List Char) : List Char :=
  let isBasic (c : Char) : Bool := c.toNat < 0x80
  let front := label.filter isBasic
  let others := (label.filter fun c => !isBasic c).map Char.toNat
  let points := (others.mergeSort fun a b => decide (a ≤ b)).eraseDups
  let start : Progress := { told := front.length }
  (if front.isEmpty then [] else front ++ ['-']) ++
    (points.foldl (Progress.tell front.length label) start).written

end TraitIndex.Punycode
