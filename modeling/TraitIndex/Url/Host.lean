import TraitIndex.Text.FinalSigma
import TraitIndex.Text.Split
import TraitIndex.Url.Label
import TraitIndex.Url.Percent
import TraitIndex.Url.Punycode

/-! Hosts in addresses.

    A host is a name, or the address of a machine in four numbers, or, between brackets, one in
    hexadecimal groups. `hostOf?` gives the form in which hosts are compared: without brackets, in
    lower case, and in ASCII. What looks like an address but is none is refused. -/

namespace TraitIndex.Url

/-- A digit of `0` to `9`. -/
def isDigit (c : Char) : Bool := '0' ≤ c && c ≤ '9'

/-- The text looks like an address in four numbers, whatever their size. -/
def looksNumeric (s : List Char) : Bool :=
  let parts := Text.splitAt (· == '.') s
  parts.length = 4 && parts.all fun part => part ≠ [] && part.all isDigit

/-- A number of an address: up to 255, without zeros before it. -/
def isOctet (s : List Char) : Bool :=
  s.all isDigit && (s.length = 1 || (s.head? ≠ some '0' && (s.length = 2 ||
    (s.length = 3 && Text.ofDigits 10 ((s.map .char).filterMap Text.asciiDigit?) < 256))))

/-- An address in four numbers. -/
def isFourNumbers (s : List Char) : Bool :=
  let parts := Text.splitAt (· == '.') s
  parts.length = 4 && parts.all isOctet

/-- A group of an address in hexadecimal groups. -/
def isHexGroup (s : List Char) : Bool :=
  s.length ≤ 4 && s ≠ [] && s.all fun c => (Text.hexValue? c).isSome

/-- The groups with an address in four numbers at the end taken as two groups. -/
def groupsOf (parts : List (List Char)) : List (List Char) :=
  if isFourNumbers (parts.getLast?.getD []) then parts.dropLast ++ [['0'], ['0']] else parts

/-- An address of eight hexadecimal groups, of which one gap of two colons may leave out some. -/
def isHexAddress (s : List Char) : Bool :=
  let (address, zone) := Text.cutAt '%' s
  let groups := groupsOf (Text.splitAt (· == ':') address)
  let before := groups.takeWhile (· ≠ [])
  let after := groups.reverse.takeWhile (· ≠ [])
  let gap := groups.length - before.length - after.length
  zone.all (fun z => z ≠ [] && '%' ∉ z) && before.all isHexGroup && after.all isHexGroup &&
    (if groups.length = before.length then groups.length = 8
    else
      3 ≤ groups.length && before.length + after.length ≤ 7 &&
        gap = 1 + (if before = [] then 1 else 0) + (if after = [] then 1 else 0))

/-- A character that stands for itself in a host name. -/
def isHostSafe (c : Char) : Bool :=
  c.isAlphanum || c ∈ ['-', '.', '_', '~', '!', '$', '&', '\'', '(', ')', '*', '+', ',', ';', '=',
    '"', '\x60', '{', '}', '%', '|', '\\']

/-- The points between the labels of a name. -/
def isLabelPoint (c : Char) : Bool := c ∈ ['.', '。', '．', '｡']

/-- A label of a name in ASCII. -/
def labelOf? (s : List Char) : Option (List Char) :=
  let label := if s.all fun c => c.toNat < 0x80 then s else "xn--".toList ++ Punycode.encode s
  if s ≠ [] ∧ hyphensFit s ∧ s.all isLabelChar ∧ label.length ≤ 63 then some label else none

/-- A name with characters beyond ASCII in ASCII; a point may stand at its end. -/
def nameOf? (s : List Char) : Option (List Char) := do
  let parts := Text.splitAt isLabelPoint (Text.lowerWords s)
  let isRooted := parts.getLast? = some []
  let labels ← (if isRooted then parts.dropLast else parts).mapM labelOf?
  let name := ['.'].intercalate (if isRooted then labels ++ [[]] else labels)
  if name.length ≤ (if isRooted then 254 else 253) then some name else none

/-- A host as it is compared. -/
def hostOf? (s : List Char) : Option (List Char) :=
  match s with
  | [] => some []
  | c :: rest =>
    if looksNumeric s then if isFourNumbers s then some s else none
    else if c = '[' ∧ rest.getLast? = some ']' then
      if isHexAddress rest.dropLast then some rest.dropLast else none
    else if s.all fun c => c.toNat < 0x80 then
      some ((Percent.encode isHostSafe s).map Char.toLower)
    else nameOf? s

example : hostOf? "Env.Test".toList = some "env.test".toList := by decide

example : hostOf? "[::1]".toList = some "::1".toList ∧ hostOf? "1.2.3.256".toList = none := by
  decide

end TraitIndex.Url
