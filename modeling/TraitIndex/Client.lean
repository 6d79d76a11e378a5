import TraitIndex.Api.Message
import TraitIndex.Files.Loading

/-! A client of the endpoints.

    `request` is what a call sends, or why it sends nothing; `interpret` is what the call comes to
    when the answer is there. Nothing is known here about how messages travel. -/

namespace TraitIndex

namespace Json

/-- The items of a document: of a list its elements, of an object its names, of a text its
    characters. -/
def items? : Json → Option (List Json)
  | .list items => some items
  | .object fields => some (fields.map fun p => .text p.1)
  | .text s => some (s.toList.map fun c => .text (.ofList [c]))
  | _ => none

end Json

namespace Client

/-- What a client can ask for. -/
inductive Call where
  | contribute (batch : Value)
  | contributeFragment (source trait : Value)
  | listTraits
  | getImplementors (trait : Value) (synthetic : Option Bool)
  | getDeliveries (since : Value)
  | reset

/-- What a call comes to. -/
inductive Reply where
  | nothing
  | count (n : Int)
  | items (xs : List Json)
  | document (j : Json)

/-- The path that a value names. -/
def pathOf : Value → Except Fault Path
  | .text s => .ok (Path.ofText s)
  | _ => .error .wrongKind

/-- The call that sends a file as a fragment, of the trait given or else the one its path tells. -/
def Call.ofFile (disk : Disk) (p : Path) (trait : Option Value) : Except Fault Call := do
  let trait ← match trait with
    | some v => .ok v
    | none => (Loading.traitOf p p.toText).map Value.text
  return .contributeFragment (.text (← disk.readText p)) trait

/-- What a call is about, in the message of its failure. -/
def Call.what : Call → Text
  | .contribute _ => "contribute batch"
  | .contributeFragment .. => "contribute fragment"
  | .listTraits => "list traits"
  | .getImplementors .. => "get implementors"
  | .getDeliveries _ => "get deliveries"
  | .reset => "reset page"

/-- A record as it is sent, and anything else as it is. -/
def plainEntry : Value → Value
  | .record r => .ofJson r.toJson
  | v => v

/-- The implementors of a trait as they are sent; what is no list is left to the server. -/
def plainEntries (v : Value) : Value := (v.items?.map fun xs => .list (xs.map plainEntry)).getD v

/-- The entries of a batch by the texts of their keys. -/
def bodyMembers : List (Value × Value) → Except Fault (List (Text × Value))
  | [] => .ok []
  | (key, v) :: rest => do
    let name ← Intake.text key
    return (name, plainEntries v) :: (← bodyMembers rest)

/-- A batch as it is sent: of two keys with one text the later value counts. -/
def batchBody : Value → Except Fault (Fields Value)
  | .map entries => (bodyMembers entries).map Fields.ofPairs
  | _ => .error .noSuchOperation

/-- Members as a mapping. -/
def mapping (fields : Fields Value) : Value := .map (fields.map fun p => (.text p.1, p.2))

/-- What a call sends. -/
def Call.request : Call → Except Fault Api.Request
  | .contribute batch => do
    let body ← (mapping (← batchBody batch)).sentText
    return { method := "POST", path := "/api/batches", body }
  | .contributeFragment source trait => do
    let name := Text.trim (← Intake.text trait)
    if name = "" then .error (.empty "trait_id")
    else
      let body ← (mapping [("traitId", .text name), ("source", source)]).sentText
      return { method := "POST", path := "/api/fragments", body }
  | .listTraits => .ok { method := "GET", path := "/api/traits" }
  | .getImplementors trait synthetic => do
    let flag ← synthetic.mapM fun b => (Value.bool b).queryText.sent
    let query := ("trait", ← (← Intake.text trait).sent) :: (flag.map ("synthetic", ·)).toList
    return { method := "GET", path := "/api/implementors", query }
  | .getDeliveries since => do
    let n ← Value.writable (← since.integer)
    return { method := "GET", path := "/api/deliveries", query := [("since", toString n)] }
  | .reset => .ok { method := "POST", path := "/api/reset" }

/-- The items of a document that must have some. -/
def itemsOf (j : Json) : Except Fault Reply :=
  match j.items? with
  | some xs => .ok (.items xs)
  | none => .error .wrongKind

/-- A member of a document that must be an object, or what stands for it. -/
def memberOr (j : Json) (name : Text) (default : Json) : Except Fault Json :=
  match j with
  | .object fields => .ok ((Fields.get? fields name).getD default)
  | _ => .error .noSuchOperation

/-- What a call comes to when it is answered with a status and a text. -/
def Call.interpret (call : Call) (status : Nat) (text : String) : Except Fault Reply :=
  if status ≠ 200 then .error (.requestFailed call.what status text)
  else
    match call with
    | .reset => .ok .nothing
    | .contribute _ => do itemsOf (← memberOr (← Json.parseSent text.toUTF8) "traits" (.list []))
    | .contributeFragment .. => do
      let n ← memberOr (← Json.parseSent text.toUTF8) "implementorCount" (.int 0)
      (Value.ofJson n).integer.map Reply.count
    | .listTraits | .getImplementors .. => do itemsOf (← Json.parseSent text.toUTF8)
    | .getDeliveries _ => do return .document (← Json.parseSent text.toUTF8)

end Client
end TraitIndex
