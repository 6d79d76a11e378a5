import TraitIndex.Json.Basic

/-! Implementor records.

    A record says that one type implements a trait: the signature as it is displayed, whether the
    implementation is synthetic, the path of the type and the crate it was found in. The signature
    may hold markup and is never looked into. -/

namespace TraitIndex

/-- One type that implements a trait. -/
structure Implementor where
  displayText : Text := ""
  isSynthetic : Bool := false
  typePath : Text := ""
  crate : Text := ""
  deriving DecidableEq, Repr, Inhabited

namespace Implementor

/-- The record as a JSON object. -/
def toJson (r : Implementor) : Json :=
  .object [("displayText", .text r.displayText), ("isSynthetic", .bool r.isSynthetic),
    ("typePath", .text r.typePath), ("crate", .text r.crate)]

end Implementor
end TraitIndex
