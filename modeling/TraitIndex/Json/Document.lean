import TraitIndex.Fault
import TraitIndex.Json.Reader
import TraitIndex.Text.Encoding

/-! Documents from outside.

    `parse` reads the document in a text and names the fault if there is one. What is sent over the
    network is bytes: `parseSent` reads them in whichever encoding they are, which shows in a byte
    order mark or in the places of zero bytes at the start, since a document begins with ASCII. -/

namespace TraitIndex.Json

/-- Why a document cannot be read, as a fault. -/
def Failure.toFault : Failure → Fault
  | .malformed => .malformedJson
  | .digitLimit => .digitLimit

/-- The document that a text holds. -/
def parse (dialect : Dialect) (s : List CodePoint) : Except Fault Json :=
  (read dialect s).mapError Failure.toFault

/-- The encoding of bytes without a mark: the first two characters are not zero, so zero bytes are
    the empty parts of longer numbers. -/
def encodingByZeros : List Nat → Text.Encoding
  | 0 :: 0 :: _ :: _ :: _ => .utf32 true
  | 0 :: _ :: _ :: _ :: _ => .utf16 true
  | _ :: 0 :: 0 :: 0 :: _ => .utf32 false
  | _ :: 0 :: _ :: _ :: _ => .utf16 false
  | [0, _] => .utf16 true
  | [_, 0] => .utf16 false
  | _ => .utf8

/-- The encoding of bytes, and the bytes without the mark that may come first. -/
def unmarked : List Nat → Text.Encoding × List Nat
  | 0x00 :: 0x00 :: 0xfe :: 0xff :: rest => (.utf32 true, rest)
  | 0xff :: 0xfe :: 0x00 :: 0x00 :: rest => (.utf32 false, rest)
  | 0xfe :: 0xff :: rest => (.utf16 true, rest)
  | 0xff :: 0xfe :: rest => (.utf16 false, rest)
  | 0xef :: 0xbb :: 0xbf :: rest => (.utf8, rest)
  | bytes => (encodingByZeros bytes, bytes)

/-- The document that was sent as bytes. -/
def parseSent (bytes : ByteArray) : Except Fault Json :=
  let (encoding, bytes) := unmarked (bytes.toList.map UInt8.toNat)
  match encoding.decode bytes with
  | some s => parse {} s
  | none => .error .invalidEncoding

end TraitIndex.Json
