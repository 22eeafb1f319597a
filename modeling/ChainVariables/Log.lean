import ChainVariables.Event
import ChainVariables.Fetch.Error

/-! # Log entries -/

namespace ChainVariables

/-- The weight of a log entry. -/
inductive LogLevel where
  | trace
  | debug
  | info
  | warn
  deriving DecidableEq, Repr

/-- What is logged. -/
inductive LogEntry where
  | fetched (name : String) (length : Nat)
  /-- A read reported an error after so many values. -/
  | fetchFailed (received expected : Nat) (error : FetchError)
  /-- The time limit of a fetch passed while so many reads were outstanding. -/
  | fetchExpired (limit : Duration) (outstanding : Nat)
  | event (event : Event)

namespace LogEntry

def level : LogEntry → LogLevel
  | fetched .. => .trace
  | fetchFailed .. | fetchExpired .. => .debug
  | event happened =>
      match happened.kind with
      | .updated => .info
      | .updateFailed | .overridden => .warn

def text : LogEntry → String
  | fetched name length =>
      "Fetched system variable " ++ name ++ " (" ++ length.repr ++ " bytes)"
  | fetchFailed received expected error =>
      "Fetch failed after " ++ received.repr ++ " of " ++ expected.repr ++ " outcomes: "
        ++ error.message
  | fetchExpired limit outstanding =>
      "Fetch timed out after " ++ limit.text ++ ", abandoning " ++ outstanding.repr
        ++ " in-flight fetches"
  | event happened => happened.text

end LogEntry

end ChainVariables
