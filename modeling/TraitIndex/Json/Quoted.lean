import TraitIndex.Text.Digit
import TraitIndex.Text.Quoted
import TraitIndex.Text.Unit

/-! Texts in a JSON document.

    Between its quotes a text is a sequence of pieces: characters, and 16-bit units written in four
    hexadecimal digits. `pieces?` reads them up to the closing quote and `join` makes characters of
    them: a high unit with a low one after it is one character, and a unit that has lost its
    partner stays the half of a pair that it is. `escaped` and `escapedAscii` write a text, the
    second with ASCII characters only. -/

namespace TraitIndex.Json

/-- Part of a text as it is written. -/
inductive Piece where
  | char (c : CodePoint)
  | unit (n : Nat)
  deriving DecidableEq, Repr

/-- The unit that four hexadecimal digits denote. -/
def unit? (a b c d : CodePoint) : Option Nat := do
  return Text.ofDigits 16
    [← Text.hexValue? a, ← Text.hexValue? b, ← Text.hexValue? c, ← Text.hexValue? d]

/-- The character that a letter after a backslash denotes. -/
def plainEscape? : CodePoint → Option CodePoint
  | '"' => some '"'
  | '\\' => some '\\'
  | '/' => some '/'
  | 'b' => some '\x08'
  | 'f' => some '\x0c'
  | 'n' => some '\n'
  | 'r' => some '\r'
  | 't' => some '\t'
  | _ => none

/-- The pieces up to the closing quote, and what follows it. A control character is refused unless
    `rawControls` lets it stand for itself. -/
def pieces? (rawControls : Bool) : List CodePoint → Option (List Piece × List CodePoint)
  | [] => none
  | '"' :: rest => some ([], rest)
  | '\\' :: 'u' :: a :: b :: c :: d :: rest => do
    let n ← unit? a b c d
    let (ps, after) ← pieces? rawControls rest
    return (.unit n :: ps, after)
  | '\\' :: e :: rest => do
    let c ← plainEscape? e
    let (ps, after) ← pieces? rawControls rest
    return (.char c :: ps, after)
  | c :: rest =>
    if c = '\\' ∨ (c < ' ' ∧ rawControls = false) then none
    else do
      let (ps, after) ← pieces? rawControls rest
      return (.char c :: ps, after)

/-- The characters that pieces denote. -/
def join : List Piece → List CodePoint
  | [] => []
  | .char c :: rest => c :: join rest
  | .unit h :: .unit l :: rest =>
    if Text.isHigh h && Text.isLow l then Text.pairedUnits h l :: join rest
    else .ofNat h :: join (.unit l :: rest)
  | .unit n :: rest => .ofNat n :: join rest

/-- A unit written in four hexadecimal digits. -/
def unitEscape (n : Nat) : List CodePoint := '\\' :: 'u' :: Text.hexDigits 4 n

/-- The short escape of a character that has one. -/
def shortEscape? : CodePoint → Option CodePoint
  | '"' => some '"'
  | '\\' => some '\\'
  | '\n' => some 'n'
  | '\r' => some 'r'
  | '\t' => some 't'
  | '\x0c' => some 'f'
  | '\x08' => some 'b'
  | _ => none

/-- A character as it is written between quotes: quotes, backslashes and control characters by an
    escape, all others as they are. -/
def escapedChar (c : CodePoint) : List CodePoint :=
  match shortEscape? c with
  | some e => ['\\', e]
  | none => if c < ' ' then unitEscape c.toNat else [c]

/-- A character written with ASCII characters: beyond them by one unit or a pair. -/
def escapedCharAscii (c : CodePoint) : List CodePoint :=
  match shortEscape? c with
  | some e => ['\\', e]
  | none =>
    let n := c.toNat
    if 0x20 ≤ n ∧ n < 0x7f then [c]
    else if n < 0x10000 then unitEscape n
    else unitEscape (0xd800 + (n - 0x10000) / 0x400) ++ unitEscape (0xdc00 + (n - 0x10000) % 0x400)

/-- A text in quotes. -/
def escaped (s : List CodePoint) : List CodePoint :=
  .char '"' :: s.flatMap escapedChar ++ [.char '"']

/-- A text in quotes, in ASCII. -/
def escapedAscii (s : List CodePoint) : List CodePoint :=
  .char '"' :: s.flatMap escapedCharAscii ++ [.char '"']

end TraitIndex.Json
