import TraitIndex.Literal.Quoted

/-! How far a literal goes.

    A literal starts with an opening bracket and ends with the bracket that closes it. Brackets and
    braces count alike, and those inside quoted texts do not count. -/

namespace TraitIndex.Literal

/-- A bracket or brace that opens. -/
def opens (c : CodePoint) : Bool := c == '[' || c == '{'

/-- A bracket or brace that closes. -/
def closes (c : CodePoint) : Bool := c == ']' || c == '}'

/-- What follows the bracket that closes the last of `depth` open ones. -/
def closing (depth : Nat) : List CodePoint → Except Fault (List CodePoint)
  | [] => .error .unbalanced
  | c :: rest =>
    if isQuote c then
      match _h : body c rest with
      | some (_, after) => closing depth after
      | none => .error .unterminatedText
    else if opens c then closing (depth + 1) rest
    else if closes c then if depth = 1 then .ok rest else closing (depth - 1) rest
    else closing depth rest
termination_by s => s.length
decreasing_by
  · have := length_lt_of_body _h
    simp only [List.length_cons]
    omega
  all_goals simp

/-- What follows the literal at the start of a text that stands at an offset. -/
def afterLiteral (offset : Nat) : List CodePoint → Except Fault (List CodePoint)
  | [] => .error .pastEnd
  | c :: rest => if opens c then closing 1 rest else .error (.noBracket offset)

end TraitIndex.Literal
