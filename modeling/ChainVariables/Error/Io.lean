/-! # Errors of input and output, and of decoding

An input or output error is known by its kind. It prints the wording of the
kind, a text of its own, or the decoding error it carries. A decoding error in
turn carries the input error that the reader met, or tells how many bytes were
left over.
-/

namespace ChainVariables

/-- The kind of an input or output error. -/
inductive IoKind where
  | notFound
  | permissionDenied
  | connectionRefused
  | wouldBlock
  | isADirectory
  | invalidInput
  | invalidData
  | timedOut
  | unexpectedEof
  | other
  deriving DecidableEq, Repr

/-- The wording of a kind, printed when an error has no text of its own. -/
def IoKind.description : IoKind → String
  | notFound => "entity not found"
  | permissionDenied => "permission denied"
  | connectionRefused => "connection refused"
  | wouldBlock => "operation would block"
  | isADirectory => "is a directory"
  | invalidInput => "invalid input parameter"
  | invalidData => "invalid data"
  | timedOut => "timed out"
  | unexpectedEof => "unexpected end of file"
  | other => "other error"

mutual

/-- An error of input or output. -/
inductive IoError where
  | bare (kind : IoKind)
  | described (kind : IoKind) (text : String)
  | wrapping (kind : IoKind) (cause : DecodeError)

/-- Why bytes are not exactly one value. -/
inductive DecodeError where
  | malformed (cause : IoError)
  | trailing (remaining : Nat)

end

def IoError.kind : IoError → IoKind
  | bare kind | described kind _ | wrapping kind _ => kind

mutual

def IoError.message : IoError → String
  | .bare kind => kind.description
  | .described _ text => text
  | .wrapping _ cause => cause.message

def DecodeError.message : DecodeError → String
  | .malformed cause => "malformed value: " ++ cause.message
  | .trailing remaining => remaining.repr ++ " trailing bytes left after decoding"

end

def DecodeError.source? : DecodeError → Option IoError
  | malformed cause => some cause
  | trailing _ => none

/-- The error behind an input or output error. One that stands for a failed decoding prints as
that decoding error, so what lies behind it is what lies behind the decoding error. -/
def IoError.source? : IoError → Option IoError
  | bare _ | described _ _ => none
  | wrapping _ cause => cause.source?

end ChainVariables
