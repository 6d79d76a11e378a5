import TraitIndex.Fault
import TraitIndex.Text.Quoted

/-! The log.

    A notice says that something was repaired, skipped or lost. Nothing is decided by it; `message`
    is the line that is written. -/

namespace TraitIndex

/-- How grave a notice is. -/
inductive Severity where
  | warning
  | error
  deriving DecidableEq, Repr

/-- The name of a severity in the log. -/
def Severity.name : Severity → Text
  | .warning => "WARNING"
  | .error => "ERROR"

/-- A line of the log by its cause. -/
inductive Notice where
  /-- An entry of a batch is no object. -/
  | entryNotObject (kind : Text)
  /-- An entry of a batch has no text to display under the key where it was expected. -/
  | noUsableText (key : Text)
  /-- A batch is no mapping. -/
  | batchNotMapping (kind : Text)
  /-- The implementors of a trait are no list. -/
  | implementorsNotList (trait : Text)
  /-- The list of a crate in a fragment cannot be read. -/
  | crateSkipped (crate trait : Text) (why : Fault)
  /-- The literal of a crate in a fragment is no list. -/
  | crateNotList (crate trait : Text)
  /-- A fragment in a directory is no UTF-8 text. -/
  | fragmentSkipped (path : Text) (why : Fault)
  /-- A consumer failed on a batch. -/
  | consumerFailed (traits : List Text)
  /-- A path of the command line could not be loaded. -/
  | couldNotLoad (path : Text) (why : Fault)
  deriving DecidableEq, Repr

namespace Notice

/-- How grave the notice is. -/
def severity : Notice → Severity
  | .consumerFailed _ | .couldNotLoad .. => .error
  | _ => .warning

/-- The line that is written. -/
def message : Notice → Text
  | .entryNotObject kind =>
    "Implementor entry is not an object (" ++ kind ++ "); using an empty record"
  | .noUsableText key =>
    "Implementor entry has no usable " ++ key ++ "; defaulting to empty text"
  | .batchNotMapping kind => "Batch is not a mapping (" ++ kind ++ "); nothing contributed"
  | .implementorsNotList trait =>
    "Implementors for " ++ Text.quoted trait ++ " are not a list; skipped"
  | .crateSkipped crate trait why =>
    "Skipping implementors for crate " ++ Text.quoted crate ++ " in " ++ trait ++ ": " ++ why.shown
  | .crateNotList crate trait =>
    "Implementors for crate " ++ Text.quoted crate ++ " in " ++ trait ++ " are not a list; skipped"
  | .fragmentSkipped path why =>
    "Skipping fragment " ++ path ++ ": not valid UTF-8 (" ++ why.shown ++ ")"
  | .consumerFailed traits =>
    "Implementors consumer failed on batch for traits [" ++
      .intercalate ", " (traits.map Text.quoted) ++ "]"
  | .couldNotLoad path why => "Could not load " ++ path ++ ": " ++ why.shown

end Notice
end TraitIndex
