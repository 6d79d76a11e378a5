import TraitIndex.Json.Basic
import TraitIndex.Json.Quoted

/-! Reading JSON.

    Each reader takes the text that is left and returns what it read with the text after it. Besides
    the standard grammar the words `NaN`, `Infinity` and `-Infinity` are numbers. A `Dialect` says
    whether control characters may stand in texts and how many digits an integer may have; more
    digits are a failure of their own. The readers of nested parts count down a bound on the steps
    left, which `read` takes from the length of the text. -/

namespace TraitIndex.Json

/-- What a reader lets pass. -/
structure Dialect where
  /-- Control characters may stand in texts. -/
  rawControls : Bool := false
  /-- The most digits of an integer. -/
  digitLimit : Option Nat := some 4300

/-- Why a text cannot be read. -/
inductive Failure where
  | malformed
  | digitLimit
  deriving DecidableEq, Repr

/-- White space between tokens. -/
def isSpace (c : CodePoint) : Bool := c == ' ' || c == '\t' || c == '\n' || c == '\r'

/-- The text from its first token on. -/
def skipSpace (s : List CodePoint) : List CodePoint := s.dropWhile isSpace

/-- The digits at the front, and what follows them. -/
def spanDigits : List CodePoint → List Nat × List CodePoint
  | [] => ([], [])
  | c :: rest =>
    match Text.asciiDigit? c with
    | some d => ((spanDigits rest).1.cons d, (spanDigits rest).2)
    | none => ([], c :: rest)

/-- The digits before the point: a zero alone, or digits that start with another. -/
def whole? (s : List CodePoint) : Option (List Nat × List CodePoint) :=
  match spanDigits s with
  | ([], _) => none
  | (0 :: _, _) => some ([0], s.drop 1)
  | whole => some whole

/-- A point with the digits after it; without a digit the point is not part of the number. -/
def fraction (s : List CodePoint) : Option (List Nat) × List CodePoint :=
  match s with
  | '.' :: rest =>
    match spanDigits rest with
    | ([], _) => (none, s)
    | (ds, after) => (some ds, after)
  | _ => (none, s)

/-- An exponent; without a digit it is not part of the number. -/
def exponent (s : List CodePoint) : Option Int × List CodePoint :=
  let signed (rest : List CodePoint) : Option Int × List CodePoint :=
    let (negative, digits) := match rest with
      | '-' :: r => (true, r)
      | '+' :: r => (false, r)
      | r => (false, r)
    match spanDigits digits with
    | ([], _) => (none, s)
    | (ds, after) =>
      let n : Int := Text.ofDigits 10 ds
      (some (if negative then -n else n), after)
  match s with
  | 'e' :: rest => signed rest
  | 'E' :: rest => signed rest
  | _ => (none, s)

/-- An unsigned number under a sign: an integer unless it has a fraction or an exponent. -/
def number (dialect : Dialect) (negative : Bool) (s : List CodePoint) :
    Except Failure (Json × List CodePoint) :=
  match whole? s with
  | none => .error .malformed
  | some (ds, afterWhole) =>
    let (places, afterPlaces) := fraction afterWhole
    let (power, rest) := exponent afterPlaces
    match places, power with
    | none, none =>
      if dialect.digitLimit.all (ds.length ≤ ·) then
        let n : Int := Text.ofDigits 10 ds
        .ok (.int (if negative then -n else n), rest)
      else .error .digitLimit
    | _, _ =>
      let places := places.getD []
      let digits := Text.ofDigits 10 (ds ++ places)
      .ok (.float (.ofDecimal negative digits (power.getD 0 - places.length)), rest)

/-- A text whose opening quote is already read. -/
def string (dialect : Dialect) (s : List CodePoint) : Except Failure (Text × List CodePoint) :=
  match pieces? dialect.rawControls s with
  | some (ps, rest) => .ok (Text.ofList (join ps), rest)
  | none => .error .malformed

mutual

/-- A value that starts at the first character. -/
def value (dialect : Dialect) : Nat → List CodePoint → Except Failure (Json × List CodePoint)
  | 0, _ => .error .malformed
  | bound + 1, s =>
    match s with
    | '"' :: rest => do
      let (t, rest) ← string dialect rest
      return (.text t, rest)
    | '[' :: rest =>
      match skipSpace rest with
      | ']' :: rest => .ok (.list [], rest)
      | items => do
        let (xs, rest) ← elements dialect bound items
        return (.list xs, rest)
    | '{' :: rest =>
      match skipSpace rest with
      | '}' :: rest => .ok (.object [], rest)
      | fields => do
        let (ps, rest) ← members dialect bound fields
        return (.object (Fields.ofPairs ps), rest)
    | 'n' :: 'u' :: 'l' :: 'l' :: rest => .ok (.null, rest)
    | 't' :: 'r' :: 'u' :: 'e' :: rest => .ok (.bool true, rest)
    | 'f' :: 'a' :: 'l' :: 's' :: 'e' :: rest => .ok (.bool false, rest)
    | 'N' :: 'a' :: 'N' :: rest => .ok (.float .nan, rest)
    | 'I' :: 'n' :: 'f' :: 'i' :: 'n' :: 'i' :: 't' :: 'y' :: rest =>
      .ok (.float (.infinite false), rest)
    | '-' :: 'I' :: 'n' :: 'f' :: 'i' :: 'n' :: 'i' :: 't' :: 'y' :: rest =>
      .ok (.float (.infinite true), rest)
    | '-' :: rest => number dialect true rest
    | unsigned => number dialect false unsigned

/-- The elements of a list from one of them on, with the closing bracket. -/
def elements (dialect : Dialect) : Nat →
    List CodePoint → Except Failure (List Json × List CodePoint)
  | 0, _ => .error .malformed
  | bound + 1, s => do
    let (x, rest) ← value dialect bound s
    match skipSpace rest with
    | ']' :: rest => return ([x], rest)
    | ',' :: rest =>
      let (xs, rest) ← elements dialect bound (skipSpace rest)
      return (x :: xs, rest)
    | _ => .error .malformed

/-- The members of an object from one of them on, with the closing brace. -/
def members (dialect : Dialect) :
    Nat → List CodePoint → Except Failure (List (Text × Json) × List CodePoint)
  | 0, _ => .error .malformed
  | bound + 1, s =>
    match s with
    | '"' :: rest => do
      let (name, rest) ← string dialect rest
      match skipSpace rest with
      | ':' :: rest =>
        let (x, rest) ← value dialect bound (skipSpace rest)
        match skipSpace rest with
        | '}' :: rest => return ([(name, x)], rest)
        | ',' :: rest =>
          let (ps, rest) ← members dialect bound (skipSpace rest)
          return ((name, x) :: ps, rest)
        | _ => .error .malformed
      | _ => .error .malformed
    | _ => .error .malformed

end

/-- One document with nothing but white space around it. -/
def read (dialect : Dialect) (s : List CodePoint) : Except Failure Json := do
  let (x, rest) ← value dialect (s.length + 1) (skipSpace s)
  if (skipSpace rest).isEmpty then return x else .error .malformed

end TraitIndex.Json
