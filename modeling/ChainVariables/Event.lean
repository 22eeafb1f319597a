import ChainVariables.Digest
import ChainVariables.Duration
import ChainVariables.Height

/-! # Events of a cache

A cache announces every refresh, be it successful or not, and every override.
An event is logged as its name, its time in seconds and its contents, separated
by commas.
-/

namespace ChainVariables

/-- The kinds of events. -/
inductive EventKind where
  | updated
  | updateFailed
  | overridden
  deriving DecidableEq, Repr

/-- The name under which events of a kind are logged. -/
def EventKind.name : EventKind → String
  | updated => "UpdateCache"
  | updateFailed => "UpdateCacheFailed"
  | overridden => "SetOverride"

/-- What happened to a cache, and when. -/
inductive Event where
  | updated (time : Timestamp) (height : Height) (size : Nat) (digest : Digest)
  | updateFailed (time : Timestamp) (height : Height) (cause : String)
  | overridden (time : Timestamp) (name : String) (length : Nat)
  deriving DecidableEq

namespace Event

def kind : Event → EventKind
  | updated .. => .updated
  | updateFailed .. => .updateFailed
  | overridden .. => .overridden

def time : Event → Timestamp
  | updated time .. | updateFailed time .. | overridden time .. => time

/-- The contents of an event as they are logged. The digest is shortened. -/
def contents : Event → List String
  | updated _ height size digest =>
      [height.text, size.repr, Base64.short digest.bytes]
  | updateFailed _ height cause => [height.text, cause]
  | overridden _ name length => [name, length.repr]

/-- The line that an event is logged as, with its time written as given. -/
def line (event : Event) (clock : String) : String :=
  ", ".intercalate (event.kind.name :: clock :: event.contents)

def text (event : Event) : String := event.line event.time.seconds.repr

end Event

end ChainVariables
