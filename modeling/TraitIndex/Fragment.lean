import TraitIndex.Intake
import TraitIndex.Json.Document
import TraitIndex.Literal.AsJson
import TraitIndex.Text.Start

/-! Generated fragments.

    A fragment lists the implementors of one trait: for each crate an assignment
    `implementors["crate"] = [ ... ];`. `Assignment.all` finds the assignments, leftmost first and
    none inside another; `Assignment.entries` reads the list of one. `parse` collects the records
    in the order of the file, each with its crate. A list that cannot be read costs its own records
    only, and a notice says so. -/

namespace TraitIndex

namespace Fragment

/-- The quoted key of an assignment with the text after its equals sign. -/
structure Assignment where
  key : List CodePoint
  rest : List CodePoint
  deriving DecidableEq, Repr

namespace Assignment

/-- The word before the key. -/
def opening : List CodePoint := ("implementors[" : Text).toList

/-- The characters of a key up to its closing quote and with it, and what follows. A backslash takes
    the next character with it, which may not be a line feed. -/
def keyBody (quote : CodePoint) : List CodePoint → Option (List CodePoint × List CodePoint)
  | [] => none
  | '\\' :: c :: rest =>
    if c = '\n' then none
    else do
      let (key, after) ← keyBody quote rest
      return ('\\' :: c :: key, after)
  | c :: rest =>
    if c = quote then some ([c], rest)
    else if c = '\\' then none
    else do
      let (key, after) ← keyBody quote rest
      return (c :: key, after)

/-- A quoted key, and what follows it. -/
def key? : List CodePoint → Option (List CodePoint × List CodePoint)
  | c :: rest =>
    if Literal.isQuote c then (keyBody c rest).map fun p => (c :: p.1, p.2) else none
  | [] => none

/-- A text without the blanks at its start. -/
def skipBlanks (s : List CodePoint) : List CodePoint := s.dropWhile Text.isBlank

/-- The assignment at the start of a text. -/
def start? (s : List CodePoint) : Option Assignment := do
  let s ← Text.afterStart? opening s
  let (key, s) ← key? (skipBlanks s)
  let s ← Text.afterStart? [.char ']'] (skipBlanks s)
  let s ← Text.afterStart? [.char '='] (skipBlanks s)
  return ⟨key, skipBlanks s⟩

/-- What follows a key is shorter than the text with it. -/
theorem length_lt_of_keyBody {quote : CodePoint} {s key after : List CodePoint}
    (h : keyBody quote s = some (key, after)) : after.length < s.length := by
  fun_induction keyBody quote s generalizing key after with
  | case1 => simp at h
  | case2 => simp at h
  | case3 c rest _ ih =>
    simp only [Option.bind_eq_bind, Option.bind_eq_some_iff, Option.pure_def, Option.some.injEq,
      Prod.exists, Prod.mk.injEq] at h
    obtain ⟨w, a, hw, -, rfl⟩ := h
    have := ih hw
    simp only [List.length_cons]
    omega
  | case4 => simp_all
  | case5 => simp at h
  | case6 c rest _ _ _ ih =>
    simp only [Option.bind_eq_bind, Option.bind_eq_some_iff, Option.pure_def, Option.some.injEq,
      Prod.exists, Prod.mk.injEq] at h
    obtain ⟨w, a, hw, -, rfl⟩ := h
    have := ih hw
    simp only [List.length_cons]
    omega

theorem length_skipBlanks_le (s : List CodePoint) : (skipBlanks s).length ≤ s.length :=
  (List.dropWhile_suffix _).length_le

/-- What follows an assignment is shorter than the text with it. -/
theorem length_lt_of_start? {s : List CodePoint} {a : Assignment} (h : start? s = some a) :
    a.rest.length < s.length := by
  simp only [start?, Option.bind_eq_bind, Option.bind_eq_some_iff, Option.pure_def,
    Option.some.injEq, Prod.exists, Text.afterStart?_eq_some_iff] at h
  obtain ⟨s1, rfl, key, s2, hkey, s3, h3, s4, h4, rfl⟩ := h
  have e1 := length_skipBlanks_le s1
  have e2 := length_skipBlanks_le s2
  have e3 := length_skipBlanks_le s3
  have e4 := length_skipBlanks_le s4
  have k : s2.length ≤ (skipBlanks s1).length := by
    unfold key? at hkey
    split at hkey
    · rename_i c r hc
      split at hkey
      · obtain ⟨⟨w, a⟩, hw, he⟩ := Option.map_eq_some_iff.1 hkey
        have := length_lt_of_keyBody hw
        simp only [Prod.mk.injEq] at he
        rw [hc, ← he.2]
        simp only [List.length_cons]
        omega
      · simp at hkey
    · simp at hkey
  rw [h3] at e2
  rw [h4] at e3
  simp only [List.length_append, List.length_cons, List.length_nil] at *
  omega

/-- All assignments of a text. -/
def all : List CodePoint → List Assignment
  | [] => []
  | c :: s =>
    match _h : start? (c :: s) with
    | some a => a :: all a.rest
    | none => all s
termination_by s => s.length
decreasing_by
  · exact length_lt_of_start? _h
  · simp

/-- The name of the crate that a key denotes. -/
def crate (a : Assignment) : Except Fault Text := do
  let (written, _) ← Literal.quoted a.key
  match ← Json.parse {} written with
  | .text s => return s
  | _ => .error .malformedJson

/-- The literal of an assignment, which stands at an offset, as a JSON document. -/
def entries (a : Assignment) (offset : Nat) : Except Fault Json := do
  let after ← Literal.afterLiteral offset a.rest
  let json ← Literal.asJson (a.rest.take (a.rest.length - after.length))
  Json.parse { rawControls := true } json

/-- The records of an assignment in the list of a trait. A fault in what is written costs these
    records; a text that ends where the literal should start is no such fault. -/
def records (a : Assignment) (trait : Text) (offset : Nat) : Outcome (List Implementor) :=
  match a.crate with
  | .error why => do
    Outcome.note [.crateSkipped (Text.ofList a.key) trait why]
    return []
  | .ok crate =>
    match a.entries offset with
    | .ok (.list items) => do
      let values := Value.ofItems items
      Outcome.note (values.flatMap Intake.entryNotices)
      return values.map (Intake.entry crate)
    | .ok _ => do
      Outcome.note [.crateNotList crate trait]
      return []
    | .error why =>
      if why.isValueFault then do
        Outcome.note [.crateSkipped crate trait why]
        return []
      else .fail why

end Assignment

/-- The records of some assignments of a text of a given length, one after another. -/
def collect (trait : Text) (length : Nat) : List Assignment → Outcome (List Implementor)
  | [] => return []
  | a :: rest => do
    let rs ← a.records trait (length - a.rest.length)
    let more ← collect trait length rest
    return rs ++ more

/-- The batch of one trait that a fragment holds. -/
def parse (source trait : Text) : Outcome Batch := do
  let trait := Text.trim trait
  if trait = "" then .fail (.empty "trait_id")
  else do
    let source := source.toList
    let rs ← collect trait source.length (Assignment.all source)
    return .single trait rs

end Fragment
end TraitIndex
