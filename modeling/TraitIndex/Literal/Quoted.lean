import TraitIndex.Fault

/-! Quoted texts in a literal.

    A quoted text stands in single or double quotes; a backslash takes the character after it with
    it, whatever that is. `body` reads from behind the opening quote to the closing one and gives
    the characters as they are written in JSON: all escapes stay, but a single quote loses its
    backslash and a bare double quote gets one. A raw line break stays as it is. -/

namespace TraitIndex.Literal

/-- The characters up to the closing quote, as they are written in JSON, and what follows it. -/
def body (quote : CodePoint) : List CodePoint → Option (List CodePoint × List CodePoint)
  | [] => none
  | '\\' :: c :: rest => do
    let (written, after) ← body quote rest
    return (if c = '\'' then '\'' :: written else '\\' :: c :: written, after)
  | c :: rest =>
    if c = quote then some ([], rest)
    else do
      let (written, after) ← body quote rest
      return (if c = '"' then '\\' :: '"' :: written else c :: written, after)

/-- What follows a quoted text is shorter than the text with it. -/
theorem length_lt_of_body {quote : CodePoint} {s written after : List CodePoint}
    (h : body quote s = some (written, after)) : after.length < s.length := by
  fun_induction body quote s generalizing written after with
  | case1 => simp at h
  | case2 c rest ih =>
    simp only [Option.bind_eq_bind, Option.bind_eq_some_iff, Option.pure_def, Option.some.injEq,
      Prod.exists, Prod.mk.injEq] at h
    obtain ⟨w, a, hw, -, rfl⟩ := h
    have := ih hw
    simp only [List.length_cons]
    omega
  | case3 => simp_all
  | case4 c rest _ _ ih =>
    simp only [Option.bind_eq_bind, Option.bind_eq_some_iff, Option.pure_def, Option.some.injEq,
      Prod.exists, Prod.mk.injEq] at h
    obtain ⟨w, a, hw, -, rfl⟩ := h
    have := ih hw
    simp only [List.length_cons]
    omega

/-- The quoted text at the start, its first character being the quote, written as a JSON text, and
    what follows it. -/
def quoted : List CodePoint → Except Fault (List CodePoint × List CodePoint)
  | [] => .error .pastEnd
  | quote :: rest =>
    match body quote rest with
    | some (written, after) => .ok (.char '"' :: written ++ [.char '"'], after)
    | none => .error .unterminatedText

/-- A character that opens a quoted text. -/
def isQuote (c : CodePoint) : Bool := c == '"' || c == '\''

end TraitIndex.Literal
