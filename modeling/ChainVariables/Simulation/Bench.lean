import ChainVariables.Cache
import ChainVariables.Simulation.Script

/-! # Test bench for caches

A bench holds several caches over one scripted store, and snapshots set aside
under a name. Probes are handlers that note every event they are called with and
what they can read at that moment.
-/

namespace ChainVariables

/-- What a probe noted: the event, and a variable if it was told to read one. -/
structure Sighting where
  tag : String
  event : Event
  read? : Option (Option Bytes)

/-- A handler that notes events, may read a variable, and may crash afterwards. -/
structure Probe where
  kind : EventKind
  tag : String
  reads? : Option String := none
  crash? : Option String := none

def Probe.handler (probe : Probe) : Handler Sighting :=
  ⟨probe.kind, fun event snapshot =>
    { notes := [⟨probe.tag, event, probe.reads?.map snapshot.getRaw?⟩]
      crash? := probe.crash? }⟩

/-- Caches over one scripted store. -/
structure Bench where
  store : ScriptedStore
  caches : List (Cache Sighting)
  saved : SortedMap String Snapshot

namespace Bench

/-- A bench of new caches, each with its configuration and probes. -/
def create (setups : List (Config × List Probe)) : Bench where
  store := {}
  caches := setups.map fun (config, probes) => .create config (probes.map (·.handler))
  saved := .empty

def cache? (bench : Bench) (index : Nat) : Option (Cache Sighting) := bench.caches[index]?

/-- What a cache of this configuration meets outside. -/
def world (bench : Bench) (config : Config) (now : Timestamp) : World where
  read := bench.store.directAnswer
  signals := bench.store.signals config.timeout
  now := now

def setCache (bench : Bench) (index : Nat) (cache : Cache Sighting) : Bench :=
  { bench with caches := bench.caches.set index cache }

def put (bench : Bench) (address : Address) (value : Bytes) : Bench :=
  { bench with store := bench.store.mapMemory (·.set address value) }

def delete (bench : Bench) (address : Address) : Bench :=
  { bench with store := bench.store.mapMemory (·.delete address) }

def addRule (bench : Bench) (rule : Rule) : Bench :=
  { bench with store := bench.store.addRule rule }

/-- Stores a directory where a cache expects it. -/
def putDirectory (bench : Bench) (cache : Cache Sighting) (directory : Directory) :
    Outcome IoError Bench := do
  return bench.put cache.config.directoryAddress (← directory.toBytes)

def save (bench : Bench) (slot : String) (snapshot : Snapshot) : Bench :=
  { bench with saved := bench.saved.insert slot snapshot }

def update (bench : Bench) (index : Nat) (cache : Cache Sighting) (now : Timestamp)
    (height : Height) : Outcome UpdateError Unit × Bench × Effects Sighting :=
  let (outcome, next, effects) := cache.update (bench.world cache.config now) height
  (outcome, bench.setCache index next, effects)

def override {α : Type} (bench : Bench) (index : Nat) (cache : Cache Sighting) (now : Timestamp)
    (name : String) (format : Format α) (value : α) :
    Outcome SetError Unit × Bench × Effects Sighting :=
  let (outcome, next, effects) := cache.override now name format value
  (outcome, bench.setCache index next, effects)

end Bench

end ChainVariables
