import TraitIndex.Text.Basic

/-! Numbers in binary with 53 significant bits.

    A finite number is `m * 2 ^ q` with `m < 2 ^ 53` and `-1074 ≤ q ≤ 971`; below `2 ^ 52` only the
    least `q` is used, so a number other than zero has one form. `ofRatio` rounds a quotient of
    naturals to the nearest such number, a half to the even `m`; `shortest` finds the fewest
    decimal digits that round back, and of those the nearest; `toText` lays them out. All of it is
    exact arithmetic on naturals. -/

namespace TraitIndex

/-- A number of the binary format, or one of its three values that are no numbers. -/
inductive Binary64 where
  | nan
  | infinite (negative : Bool)
  | finite (negative : Bool) (m : Nat) (q : Int)
  deriving DecidableEq, Repr

namespace Binary64

/-- The least exponent of the format. -/
def leastExponent : Int := -1074

/-- The greatest exponent of the format. -/
def greatestExponent : Int := 971

/-- Zero with a sign. -/
def zero (negative : Bool) : Binary64 := .finite negative 0 leastExponent

/-- A quotient rounded to the nearest natural, a half to the even one. -/
def roundHalfEven (num den : Nat) : Nat :=
  let k := num / den
  let r := num % den
  if 2 * r < den then k else if den < 2 * r then k + 1 else k + k % 2

/-- The quotient `num / den` divided by `b ^ e`, as a quotient of naturals. -/
def scaleDown (b num den : Nat) (e : Int) : Nat × Nat :=
  if 0 ≤ e then (num, den * b.pow e.toNat) else (num * b.pow (-e).toNat, den)

/-- The power `b ^ e` is at most `num / den`. -/
def reaches (b num den : Nat) (e : Int) : Bool :=
  let r := scaleDown b num den e
  r.2 ≤ r.1

/-- The number nearest to `num / den`. -/
def ofRatio (negative : Bool) (num den : Nat) : Binary64 :=
  if num = 0 then zero negative
  else
    let e : Int := (num.log2 : Int) - den.log2
    let top := if reaches 2 num den e then e else e - 1
    let q := if top - 52 < leastExponent then leastExponent else top - 52
    let r := scaleDown 2 num den q
    let m := roundHalfEven r.1 r.2
    let (m, q) := if m = Nat.pow 2 53 then (Nat.pow 2 52, q + 1) else (m, q)
    if q > greatestExponent then .infinite negative else .finite negative m q

/-- The number nearest to `digits * 10 ^ e`. Decimals far outside the format are settled by their
    size alone. -/
def ofDecimal (negative : Bool) (digits : Nat) (e : Int) : Binary64 :=
  if digits = 0 then zero negative
  else if 400 < e then .infinite negative
  else if e + (digits.log2 / 3 + 1 : Nat) < -400 then zero negative
  else
    let r := scaleDown 10 digits 1 (-e)
    ofRatio negative r.1 r.2

/-- The number `m * 2 ^ q` as a quotient of naturals. -/
def ratio (m : Nat) (q : Int) : Nat × Nat := scaleDown 2 m 1 (-q)

/-- The number of decimal places before the point: the least `k` near the binary estimate with
    `num / den < 10 ^ k`. -/
def decimalPlaces (num den : Nat) : Int :=
  let k := (((num.log2 : Int) - den.log2) * 30103) / 100000
  if !reaches 10 num den (k - 1) then k - 1
  else if !reaches 10 num den k then k
  else if !reaches 10 num den (k + 1) then k + 1
  else k + 2

/-- Of the two neighbours of `num / den` on the grid of `10 ^ e`, the one that rounds back to `x`;
    of two, the nearer, and of two equally near the even one. -/
def onGrid? (x : Binary64) (num den : Nat) (e : Int) : Option (Nat × Int) :=
  let r := scaleDown 10 num den e
  let below := r.1 / r.2
  let back (d : Nat) : Bool := d ≠ 0 && ofDecimal false d e == x
  match back below, back (below + 1) with
  | false, false => none
  | true, false => some (below, e)
  | false, true => some (below + 1, e)
  | true, true =>
    let half := (2 * below + 1) * r.2
    if 2 * r.1 < half then some (below, e)
    else if half < 2 * r.1 then some (below + 1, e)
    else some (below + below % 2, e)

/-- A decimal without the zeros at its end, at most `n` of them. -/
def dropZeros : (n : Nat) → Nat → Int → Nat × Int
  | 0, d, e => (d, e)
  | n + 1, d, e => if d ≠ 0 ∧ d % 10 = 0 then dropZeros n (d / 10) (e + 1) else (d, e)

/-- The fewest decimal digits that round back to `m * 2 ^ q`, `m ≠ 0`, with their exponent. -/
def shortest (m : Nat) (q : Int) : Nat × Int :=
  let r := ratio m q
  let places := decimalPlaces r.1 r.2
  match (List.range 17).findSome? fun n =>
      onGrid? (.finite false m q) r.1 r.2 (places - (n + 1 : Nat)) with
  | some (d, e) => dropZeros 20 d e
  | none => if 0 ≤ q then (m * Nat.pow 2 q.toNat, 0) else (m * Nat.pow 5 (-q).toNat, q)

/-- Decimal digits `ds`, the point after the first `p` places: positional while the point is near
    the digits, otherwise with an exponent of at least two digits. -/
def layOut (ds : List CodePoint) (p : Int) : List CodePoint :=
  if -4 < p ∧ p ≤ 16 then
    if p ≤ 0 then .char '0' :: .char '.' :: List.replicate (-p).toNat (.char '0') ++ ds
    else if ds.length ≤ p.toNat then
      ds ++ List.replicate (p.toNat - ds.length) (.char '0') ++ [.char '.', .char '0']
    else ds.take p.toNat ++ .char '.' :: ds.drop p.toNat
  else
    let e := p - 1
    let digits := (toString e.natAbs : Text).toList
    let mantissa := match ds with
      | d :: rest@(_ :: _) => d :: .char '.' :: rest
      | _ => ds
    mantissa ++ [.char 'e', if e < 0 then .char '-' else .char '+'] ++
      (if digits.length < 2 then .char '0' :: digits else digits)

/-- The text of a number: the fewest digits that read back. -/
def toText : Binary64 → List CodePoint
  | .nan => ['n', 'a', 'n']
  | .infinite negative => if negative then ['-', 'i', 'n', 'f'] else ['i', 'n', 'f']
  | .finite negative m q =>
    let unsigned : List CodePoint :=
      if m = 0 then ['0', '.', '0']
      else
        let (d, e) := shortest m q
        let ds := (toString d : Text).toList
        layOut ds (ds.length + e)
    if negative then .char '-' :: unsigned else unsigned

/-- Neither positive nor negative. -/
def isZero : Binary64 → Bool
  | .finite _ m _ => m = 0
  | _ => false

/-- The whole part of a number; infinities and the value that is no number have none. -/
def truncate? : Binary64 → Option Int
  | .finite negative m q =>
    let whole : Int := (ratio m q).1 / (ratio m q).2
    some (if negative then -whole else whole)
  | _ => none

end Binary64
end TraitIndex
