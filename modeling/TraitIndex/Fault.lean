import TraitIndex.Text.Quoted

/-! What can go wrong.

    A `Fault` is a cause. Some causes carry a message of their own; all have a kind, whose name
    stands for the fault in a log line when there is no message. -/

namespace TraitIndex

/-- The broad kinds of faults. -/
inductive FaultKind where
  | value
  | runtime
  | index
  | attribute
  | type
  | overflow
  | key
  | upgrade
  | json
  | decoding
  | encoding
  | missingFile
  | isDirectory
  | notDirectory
  | system
  | address
  deriving DecidableEq, Repr

namespace FaultKind

/-- The name of a kind in log lines. -/
def name : FaultKind → Text
  | .value => "ValueError"
  | .runtime => "RuntimeError"
  | .index => "IndexError"
  | .attribute => "AttributeError"
  | .type => "TypeError"
  | .overflow => "OverflowError"
  | .key => "KeyError"
  | .upgrade => "_Upgrade"
  | .json => "JSONDecodeError"
  | .decoding => "UnicodeDecodeError"
  | .encoding => "UnicodeEncodeError"
  | .missingFile => "FileNotFoundError"
  | .isDirectory => "IsADirectoryError"
  | .notDirectory => "NotADirectoryError"
  | .system => "OSError"
  | .address => "InvalidURL"

end FaultKind

/-- The causes of failure. -/
inductive Fault where
  /-- A required field is absent. -/
  | missing (field : Text)
  /-- A field is blank. -/
  | empty (field : Text)
  /-- A field cannot be read. -/
  | invalid (field : Text)
  /-- A cursor lies before the first delivery. -/
  | negativeSince
  /-- Nothing is left of a file name to name a trait. -/
  | unnamedTrait (path : Text)
  /-- A quoted text has no closing quote. -/
  | unterminatedText
  /-- A literal does not start with an opening bracket. -/
  | noBracket (offset : Nat)
  /-- The brackets of a literal do not close. -/
  | unbalanced
  /-- What should take batches cannot be called. -/
  | notCallable
  /-- A batch came to a closed page. -/
  | contributionRefused
  /-- A consumer came to a closed page. -/
  | attachmentRefused
  /-- A server answered a request with something other than success. -/
  | requestFailed (what : Text) (status : Nat) (body : Text)
  /-- A text ends before the place to be read. -/
  | pastEnd
  /-- An integer is too long to be read or written. -/
  | digitLimit
  /-- A text or a number stands for no integer. -/
  | notInteger
  /-- An infinite number has no whole part. -/
  | infinite
  /-- A number that is not finite cannot be sent. -/
  | notFinite
  /-- A text is no JSON document. -/
  | malformedJson
  /-- Bytes are no UTF-8 text. -/
  | invalidEncoding
  /-- A text is no address. -/
  | invalidAddress
  /-- The host of an address cannot be written into a request. -/
  | unwritableHost
  /-- A text holds half of a pair of units, for which no bytes stand. -/
  | unwritableText
  /-- An address cannot be read again, so what it answers is not taken. -/
  | illegibleAddress
  /-- A path holds the null character, which no name of a file does. -/
  | nullInPath
  /-- A path, or a name in it, is longer than any can be. -/
  | pathTooLong
  /-- There is no file at a path. -/
  | missingFile
  /-- A directory is where a file should be. -/
  | isDirectory
  /-- A path goes through something that is no directory. -/
  | notDirectory
  /-- The scheme of an address is none that can be spoken. -/
  | unknownScheme
  /-- What a level of the log is called is no level. -/
  | unknownLevel
  /-- An address is for messages back and forth, not for requests. -/
  | messagesWanted
  /-- A value does not have the operation asked for. -/
  | noSuchOperation
  /-- A value is of a kind that an operation does not take, or an operation does not take the
      arguments given. -/
  | wrongKind
  deriving DecidableEq, Repr

namespace Fault

/-- The kind of a fault. -/
def kind : Fault → FaultKind
  | .contributionRefused | .attachmentRefused | .requestFailed .. => .runtime
  | .pastEnd => .index
  | .noSuchOperation => .attribute
  | .wrongKind => .type
  | .infinite => .overflow
  | .unknownScheme => .key
  | .messagesWanted => .upgrade
  | .malformedJson => .json
  | .invalidEncoding => .decoding
  | .unwritableHost | .unwritableText => .encoding
  | .invalidAddress => .address
  | .missingFile => .missingFile
  | .isDirectory => .isDirectory
  | .notDirectory => .notDirectory
  | .pathTooLong => .system
  | _ => .value

/-- The message of a fault that has one. -/
def message? : Fault → Option Text
  | .missing field => some ("Missing " ++ field)
  | .empty field => some (field ++ " cannot be empty")
  | .invalid field => some ("Invalid " ++ field)
  | .negativeSince => some "since must be >= 0"
  | .unnamedTrait path => some ("Cannot derive a trait name from " ++ Text.quoted path)
  | .unterminatedText => some "Unterminated string literal"
  | .noBracket offset => some ("Expected '[' or '\x7b' at offset " ++ toString offset)
  | .unbalanced => some "Unbalanced brackets in fragment"
  | .notCallable => some "consumer must be callable"
  | .contributionRefused => some "Cannot contribute to a closed page"
  | .attachmentRefused => some "Cannot attach a consumer to a closed page"
  | .requestFailed what status body =>
    some ("Failed to " ++ what ++ ": " ++ toString status ++ " " ++ body)
  | _ => none

/-- A fault inside a log line: its message, or the name of its kind. -/
def shown (f : Fault) : Text := f.message?.getD f.kind.name

/-- The fault lies in a value: bad text, bad JSON, bad bytes or characters that cannot be sent. -/
def isValueFault (f : Fault) : Bool :=
  f.kind = .value || f.kind = .json || f.kind = .decoding || f.kind = .encoding

/-- The fault lies in the files: one is missing, or is not what it should be, or cannot be. -/
def isFileFault (f : Fault) : Bool :=
  f.kind = .missingFile || f.kind = .isDirectory || f.kind = .notDirectory || f.kind = .system

end Fault

/-- A text as it is sent; one that holds half of a pair cannot be. -/
def Text.sent (t : Text) : Except Fault String := (t.string?.map .ok).getD (.error .unwritableText)

end TraitIndex
