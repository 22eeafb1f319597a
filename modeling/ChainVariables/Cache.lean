import ChainVariables.Config
import ChainVariables.Directory
import ChainVariables.Fetch.Progress
import ChainVariables.Handler

/-! # The cache

A cache holds a snapshot of all variables. A refresh reads the directory,
resolves every variable at a height, fetches all values and only then replaces
the snapshot as a whole; if any stage fails the snapshot stays as it was. Single
values may be overridden until the next successful refresh. Both are announced
to the handlers after the snapshot has changed.

What a call meets outside is given to it as a `World`, and what it does there is
returned as its `Effects`, so every operation is a function.
-/

namespace ChainVariables

/-- Why a refresh failed, by stage. -/
inductive UpdateError where
  | fetchDirectory (source : StoreError)
  | decodeDirectory (source : DecodeError)
  | fetch (source : FetchError)
  | encodeSnapshot (source : IoError)

def UpdateError.message : UpdateError → String
  | fetchDirectory source => "failed to fetch location directory: " ++ source.message
  | decodeDirectory source => "failed to decode location directory: " ++ source.message
  | fetch source => "failed to fetch system variables: " ++ source.message
  | encodeSnapshot source => "failed to encode new snapshot: " ++ source.message

/-- Why a value could not be set. -/
inductive SetError where
  | encode (name : String) (source : IoError)

def SetError.message : SetError → String
  | encode name source =>
      "failed to encode value of system variable " ++ name ++ ": " ++ source.message

/-- What a call meets outside the cache. -/
structure World where
  read : Address → Answer
  /-- What is met when these requests are fetched, in order. -/
  signals : List Request → List Signal
  now : Timestamp

/-- What a call does outside the cache. -/
structure Effects (ν : Type) where
  reads : List Address := []
  logs : List LogEntry := []
  notes : List ν := []

/-- Whether a cache has been refreshed. -/
inductive CacheState where
  | empty
  | ready (height : Height)
  deriving DecidableEq, Repr

structure Cache (ν : Type) where
  config : Config
  handlers : List (Handler ν)
  snapshot : Snapshot

/-- What has to be fetched for the variables of a directory at a height. -/
def Directory.requests (directory : Directory) (height : Height) : List Request :=
  (directory.resolveAll height).map fun (name, address) => ⟨name, address⟩

namespace Cache

variable {ν α : Type}

/-- A cache that was never refreshed. If events are to be logged, the loggers come after all
other handlers. -/
def create (config : Config) (handlers : List (Handler ν)) : Cache ν where
  config := config
  handlers := if config.logEvents then handlers ++ Handler.loggers else handlers
  snapshot := .empty

def state (cache : Cache ν) : CacheState :=
  match cache.snapshot.height? with
  | none => .empty
  | some height => .ready height

def getRaw? (cache : Cache ν) (name : String) : Option Bytes := cache.snapshot.getRaw? name

def get (cache : Cache ν) (format : Format α) (name : String) : Except GetError α :=
  cache.snapshot.get format name

def digest (cache : Cache ν) : Outcome IoError Digest := cache.snapshot.digest

/-- The values of all variables at a height, by the directory at an address, with the addresses
read and what is logged. The directory is read first; if it can be read, the read of every
variable in it is started once. -/
def fetchVariables (config : Config) (world : World) (height : Height) :
    Outcome UpdateError (SortedMap String Bytes) × List Address × List LogEntry :=
  let directoryRead := [config.directoryAddress]
  match world.read config.directoryAddress with
  | .crash message => (.crashed message, directoryRead, [])
  | .silent => (.waiting, directoryRead, [])
  | .fault error => (.error (.fetchDirectory error), directoryRead, [])
  | .value bytes =>
      match Directory.ofBytes bytes with
      | .error error => (.error (.decodeDirectory error), directoryRead, [])
      | .ok directory =>
          let requests := directory.requests height
          let signals := world.signals requests
          let (outcome, logs) := fetch requests config.timeout signals
          (outcome.mapError .fetch, directoryRead ++ (started requests signals).map (·.address),
            logs)

/-- The snapshot that fetched values make at a height, with its digest. -/
def assemble (height : Height) (fetched : Outcome UpdateError (SortedMap String Bytes)) :
    Outcome UpdateError (Snapshot × Digest) := do
  let snapshot := Snapshot.mk (← fetched) (some height)
  return (snapshot, ← snapshot.digest.mapError .encodeSnapshot)

/-- Delivers an event. The call that caused it ends as given, unless a handler crashes. -/
def announce {ε : Type} (cache : Cache ν) (event : Event) (ending : Outcome ε Unit)
    (effects : Effects ν) : Outcome ε Unit × Cache ν × Effects ν :=
  let reaction := Handler.fire cache.handlers event cache.snapshot
  (match reaction.crash? with
    | some message => .crashed message
    | none => ending,
    cache,
    { effects with
      logs := effects.logs ++ reaction.logs
      notes := effects.notes ++ reaction.notes })

/-- Replaces the snapshot by the values of all variables at a height. -/
def update (cache : Cache ν) (world : World) (height : Height) :
    Outcome UpdateError Unit × Cache ν × Effects ν :=
  let (fetched, reads, logs) := fetchVariables cache.config world height
  let effects := { reads, logs }
  match assemble height fetched with
  | .ok (snapshot, digest) =>
      { cache with snapshot := snapshot }.announce
        (.updated world.now height snapshot.size digest) (.ok ()) effects
  | .error error =>
      cache.announce (.updateFailed world.now height error.message) (.error error) effects
  | .crashed message => (.crashed message, cache, effects)
  | .waiting => (.waiting, cache, effects)

/-- Sets the value of a variable until the next successful refresh. -/
def override (cache : Cache ν) (now : Timestamp) (name : String) (format : Format α) (value : α) :
    Outcome SetError Unit × Cache ν × Effects ν :=
  match format.encode value with
  | .ok bytes =>
      { cache with snapshot := cache.snapshot.override name bytes }.announce
        (.overridden now name bytes.length) (.ok ()) {}
  | .error source => (.error (.encode name source), cache, {})
  | .crashed message => (.crashed message, cache, {})
  | .waiting => (.waiting, cache, {})

end Cache

end ChainVariables
