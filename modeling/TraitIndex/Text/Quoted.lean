import TraitIndex.Text.Basic
import TraitIndex.Text.Printable

/-! Text shown in quotes.

    A shown text stands in single quotes, or in double quotes when it holds a single quote and no
    double one. The backslash and the chosen quote are written with a backslash before them, line
    feed, carriage return and tab as `\n`, `\r` and `\t`, and any other hidden character as its code
    point in two, four or eight hexadecimal digits. -/

namespace TraitIndex.Text

/-- One hexadecimal digit, in lower case. -/
def hexDigit (n : Nat) : CodePoint := .ofNat (if n < 10 then 48 + n else 87 + n)

/-- The last `width` hexadecimal digits of a number. -/
def hexDigits : (width : Nat) → Nat → List CodePoint
  | 0, _ => []
  | w + 1, n => hexDigits w (n / 16) ++ [hexDigit (n % 16)]

/-- A hidden character by its code point. -/
def codePointEscape (c : CodePoint) : List CodePoint :=
  let n := c.toNat
  if n < 0x100 then '\\' :: 'x' :: hexDigits 2 n
  else if n < 0x10000 then '\\' :: 'u' :: hexDigits 4 n
  else '\\' :: 'U' :: hexDigits 8 n

/-- One character as it is shown between the given quotes. -/
def shownChar (quote c : CodePoint) : List CodePoint :=
  if c = '\\' ∨ c = quote then ['\\', c]
  else if c = '\n' then ['\\', 'n']
  else if c = '\r' then ['\\', 'r']
  else if c = '\t' then ['\\', 't']
  else if isPrintable c then [c]
  else codePointEscape c

/-- The quote in which a text is shown. -/
def quoteFor (s : List CodePoint) : CodePoint :=
  if .char '\'' ∈ s ∧ .char '"' ∉ s then '"' else '\''

/-- Text shown in quotes. -/
def quoted (s : Text) : Text :=
  let q := quoteFor s.toList
  Text.ofList (q :: s.toList.flatMap (shownChar q) ++ [q])

example : quoted "it's" = "\"it's\"" ∧ quoted "a\\\n" = "'a\\\\\\n'" := by decide

end TraitIndex.Text
