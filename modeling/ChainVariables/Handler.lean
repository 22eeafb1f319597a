import ChainVariables.Log
import ChainVariables.Snapshot

/-! # Handlers of events

Handlers are called one after another in the order of their registration, each
with the events of its kind and the snapshot as it is then. A handler that
crashes keeps the ones after it from being called.

A handler may read the cache that calls it: what it reads is the snapshot. It is
taken neither to refresh that cache nor to override a value in it, so a reaction
leaves the snapshot as it is and causes no further event.
-/

namespace ChainVariables

/-- What a handler does with an event: what it logs and notes, and whether it crashes then. -/
structure Reaction (ν : Type) where
  logs : List LogEntry := []
  notes : List ν := []
  crash? : Option String := none

/-- A handler for the events of one kind. -/
structure Handler (ν : Type) where
  kind : EventKind
  react : Event → Snapshot → Reaction ν

namespace Handler

variable {ν : Type}

def logger (kind : EventKind) : Handler ν :=
  ⟨kind, fun event _ => { logs := [.event event] }⟩

def loggers : List (Handler ν) := [.logger .updated, .logger .updateFailed, .logger .overridden]

/-- Calls handlers in order until one crashes. -/
def callAll (event : Event) (snapshot : Snapshot) : List (Handler ν) → Reaction ν
  | [] => {}
  | handler :: rest =>
      let first := handler.react event snapshot
      match first.crash? with
      | some _ => first
      | none =>
          let later := callAll event snapshot rest
          { logs := first.logs ++ later.logs
            notes := first.notes ++ later.notes
            crash? := later.crash? }

/-- Delivers an event to the handlers of its kind. -/
def fire (handlers : List (Handler ν)) (event : Event) (snapshot : Snapshot) : Reaction ν :=
  callAll event snapshot (handlers.filter (·.kind == event.kind))

end Handler

end ChainVariables
