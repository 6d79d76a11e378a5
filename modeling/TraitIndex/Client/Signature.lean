import TraitIndex.Value

/-! Arguments by place and by name.

    A call has parameters. An argument is given by its place or under its parameter's name; some
    parameters take theirs by name only, and some can do without. `Signature.bind` gives every
    argument its name and refuses arguments that do not fit. -/

namespace TraitIndex.Client

/-- The parameters of a call. -/
structure Signature where
  /-- The parameters whose arguments must be given, by place or by name. -/
  required : List Text := []
  /-- The parameters that follow them and can do without. -/
  optional : List Text := []
  /-- The parameters that take theirs by name only and can do without. -/
  named : List Text := []
  deriving DecidableEq, Repr

namespace Signature

/-- The parameters that arguments have by place. -/
def placed (s : Signature) : List Text := s.required ++ s.optional

/-- The arguments by place under the names of their parameters. -/
def atPlaces (s : Signature) (arguments : List Value) : Fields Value := s.placed.zip arguments

/-- The arguments fit: none is too much, none is given twice and none that is required is left
    out. -/
def fits (s : Signature) (arguments : List Value) (named : Fields Value) : Bool :=
  let given := (s.atPlaces arguments).map (·.1)
  let names := named.map (·.1)
  arguments.length ≤ s.placed.length && names.all (· ∈ s.placed ++ s.named) &&
    names.all (· ∉ given) && s.required.all (· ∈ given ++ names)

/-- The arguments under the names of their parameters, if they fit. -/
def bind (s : Signature) (arguments : List Value) (named : Fields Value) :
    Except Fault (Fields Value) :=
  if s.fits arguments named then .ok (s.atPlaces arguments ++ named) else .error .wrongKind

end Signature

end TraitIndex.Client
