import TraitIndex.Text.Basic

/-! Blank characters.

    The blanks are the white space of every script together with the four ASCII separators
    `\x1c` to `\x1f`. `trim` takes them off both ends of a text. -/

namespace TraitIndex.Text

variable {α : Type}

/-- A character that separates words and shows nothing. -/
def isBlank (c : CodePoint) : Bool :=
  let n := c.toNat
  (0x09 ≤ n && n ≤ 0x0d) || (0x1c ≤ n && n ≤ 0x20) || n == 0x85 || n == 0xa0 || n == 0x1680 ||
    (0x2000 ≤ n && n ≤ 0x200a) || n == 0x2028 || n == 0x2029 || n == 0x202f || n == 0x205f ||
    n == 0x3000

/-- Text without the characters of a class at its end. -/
def trimEnd (p : α → Bool) (s : List α) : List α := (s.reverse.dropWhile p).reverse

/-- Text without the characters of a class at its two ends. -/
def trimBoth (p : α → Bool) (s : List α) : List α := trimEnd p (s.dropWhile p)

/-- Text without the blanks at its two ends. -/
def trim (s : Text) : Text := ofList (trimBoth isBlank s.toList)

/-- A string without the blanks at its two ends. -/
def trimString (s : String) : String :=
  String.ofList (trimBoth (fun c => isBlank c) s.toList)

/-- A string without the slashes at its end. -/
def trimSlashes (s : String) : String := String.ofList (trimEnd (· == '/') s.toList)

example : trim "\u3000 a b\n" = "a b" ∧ trim " \t" = "" := by decide

end TraitIndex.Text
