import TraitIndex.Text.Digit
import TraitIndex.Text.Encoding

/-! Percent-encoding.

    A character that may not stand for itself is written as the bytes of its UTF-8 form, each as a
    percent sign and two hexadecimal digits. What is read back are bytes, which need not be text, so
    `decode` puts replacement characters where they are none. A percent sign without two digits
    after it stands for itself. -/

namespace TraitIndex.Percent

/-- One hexadecimal digit, in upper case. -/
def hexDigit (n : Nat) : Char := if n < 10 then Char.ofNat (48 + n) else Char.ofNat (55 + n)

/-- A byte in its encoded form. -/
def escape (b : Nat) : List Char := ['%', hexDigit (b / 16), hexDigit (b % 16)]

/-- Text with every character encoded that is not safe. -/
def encode (isSafe : Char → Bool) (s : List Char) : List Char :=
  s.flatMap fun c => if isSafe c then [c] else (Text.bytesOf [c]).flatMap escape

/-- The bytes that encoded text stands for. -/
def bytes : List Char → List Nat
  | [] => []
  | '%' :: a :: b :: rest =>
    match Text.hexValue? a, Text.hexValue? b with
    | some high, some low => (high * 16 + low) :: bytes rest
    | _, _ => '%'.toNat :: bytes (a :: b :: rest)
  | c :: rest => Text.bytesOf [c] ++ bytes rest

/-- The text that encoded text stands for. -/
def decode (s : List Char) : List Char := Text.lossy (bytes s)

example : encode Char.isAlphanum ['a', ' ', 'é'] = "a%20%C3%A9".toList := by decide

end TraitIndex.Percent
