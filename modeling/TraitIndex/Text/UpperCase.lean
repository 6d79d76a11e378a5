/-! Capitals.

    Names of methods and of levels of the log count in capitals, and these are ASCII. A few letters
    that are not have capitals that are. Every other letter is left as it is, since no name that
    counts has its capital. -/

namespace TraitIndex.Text

/-- The capitals that stand for a letter, if they are ASCII. -/
def capitals : Char → List Char
  | 'ß' => ['S', 'S']
  | 'ı' => ['I']
  | 'ſ' => ['S']
  | 'ﬀ' => ['F', 'F']
  | 'ﬁ' => ['F', 'I']
  | 'ﬂ' => ['F', 'L']
  | 'ﬃ' => ['F', 'F', 'I']
  | 'ﬄ' => ['F', 'F', 'L']
  | 'ﬅ' => ['S', 'T']
  | 'ﬆ' => ['S', 'T']
  | c => [c.toUpper]

/-- A name in capitals. -/
def inCapitals (s : String) : String := String.ofList (s.toList.flatMap capitals)

end TraitIndex.Text
