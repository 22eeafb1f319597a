import ChainVariables.Log
import ChainVariables.Text.Utf8

/-! # Transcripts of log entries

Two runs that differ only in the time of day, or in the order in which values
happened to arrive, have the same transcript: the time of an event is hidden, and
every unbroken run of trace lines is sorted.
-/

namespace ChainVariables.Transcript

/-- The line of an entry, with `T` for the time of an event. -/
def maskedText : LogEntry → String
  | .event event => event.line "T"
  | entry => entry.text

def notAfter (first second : LogLevel × String) : Bool :=
  ByteKey.compare first.2 second.2 != .gt

def sortRun (lines : List (LogLevel × String)) : List (LogLevel × String) :=
  if lines.all (·.1 == .trace) then lines.mergeSort notAfter else lines

def ofEntries (entries : List LogEntry) : List (LogLevel × String) :=
  ((entries.map fun entry => (entry.level, maskedText entry)).splitBy fun first second =>
    first.1 == .trace && second.1 == .trace).flatMap sortRun

end ChainVariables.Transcript
