/-! Cutting texts.

    `splitAt` cuts a text at every separator, `cutAt` at the first one and `cutAtLast` at the last.
    The separators are not part of what is left. -/

namespace TraitIndex.Text

variable {α : Type}

/-- The parts of a text between separators of a class. -/
def splitAt (isSeparator : α → Bool) : List α → List (List α)
  | [] => [[]]
  | c :: rest =>
    if isSeparator c then [] :: splitAt isSeparator rest
    else match splitAt isSeparator rest with
      | [] => [[c]]
      | part :: parts => (c :: part) :: parts

/-- What comes before the first separator, and what comes after it if there is one. -/
def cutAt [DecidableEq α] (separator : α) (s : List α) : List α × Option (List α) :=
  (s.takeWhile (· ≠ separator), match s.dropWhile (· ≠ separator) with
    | _ :: rest => some rest
    | [] => none)

/-- What comes before the last separator if there is one, and what comes after it. -/
def cutAtLast [DecidableEq α] (separator : α) (s : List α) : Option (List α) × List α :=
  let (back, front) := cutAt separator s.reverse
  (front.map List.reverse, back.reverse)

example : cutAt '=' ['a', '=', 'b', '='] = (['a'], some ['b', '=']) := by decide

example : cutAtLast '@' ['a', '@', 'b'] = (some ['a'], ['b']) := by decide

end TraitIndex.Text
