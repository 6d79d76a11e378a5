import TraitIndex.Text.Encoding

/-! Names of files.

    A name is bytes. Shown as text they are read as UTF-8, and a byte that is part of no character
    shows as the half of a pair that lies `0xdc00` above it; so a name can have any bytes. `bytes`
    goes back from the text. The other halves stand for no byte, and a text that holds one of them
    names nothing. Texts with the same bytes are the same name. -/

namespace TraitIndex.FileName

/-- The bytes that a code point stands for in a name; none for a half that stands for no byte. -/
def bytesAt : CodePoint → List Nat
  | .char c => Text.bytesOf [c]
  | .half n => if 0x480 ≤ n.val ∧ n.val < 0x500 then [n.val - 0x400] else []

/-- The bytes of a name. -/
def bytes (name : Text) : List Nat := name.toList.flatMap bytesAt

/-- The text can be the name of a file, or a path: all of it stands for bytes. -/
def isWritable (name : Text) : Bool := name.toList.all fun c => bytesAt c ≠ []

/-- The texts are the same name. -/
def same (a b : Text) : Bool := bytes a = bytes b

end TraitIndex.FileName
