import ChainVariables.Log
import ChainVariables.SortedMap

/-! # Fetching many values at once

All requested values are read at the same time, and are wanted all or not at all.
The collector counts the values as they arrive. It settles on success when it has
counted as many as there are requests, and on failure at the first error, when
the time limit passes, or when no read is left that could still report. What it
meets after that changes nothing. If a read cannot be started the fetch fails
before anything is collected.
-/

namespace ChainVariables

/-- A variable to fetch, and the address it is kept at. -/
structure Request where
  name : String
  address : Address
  deriving DecidableEq, Repr

/-- What a fetch meets next. -/
inductive Signal where
  /-- The read of a request cannot be started, and no later one is. -/
  | unstarted (request : Request) (error : IoError)
  | value (request : Request) (bytes : Bytes)
  | fault (request : Request) (error : StoreError)
  | expired
  /-- Every read has ended, and nothing they reported is left. -/
  | disconnected

/-- How far a fetch has come. -/
inductive Progress where
  /-- So many values have arrived; of several for one name the last is held. -/
  | collecting (received : Nat) (values : SortedMap String Bytes)
  | settled (result : Except FetchError (SortedMap String Bytes))

namespace Progress

/-- The progress after so many of the expected values: success once all of them are there. -/
def after (expected received : Nat) (values : SortedMap String Bytes) : Progress :=
  if received < expected then collecting received values else settled (.ok values)

def start (expected : Nat) : Progress := after expected 0 .empty

def step (expected : Nat) (limit : Duration) : Progress → Signal → Progress
  | settled result, _ => settled result
  | collecting _ _, .unstarted request error =>
      settled (.error (.spawnFailed request.name error))
  | collecting received values, .value request bytes =>
      after expected (received + 1) (values.insert request.name bytes)
  | collecting _ _, .fault request error =>
      settled (.error (.unavailable request.name request.address error))
  | collecting received _, .expired => settled (.error (.timeout received expected limit))
  | collecting received _, .disconnected => settled (.error (.disconnected received expected))

def logged (expected : Nat) (limit : Duration) : Progress → Signal → List LogEntry
  | settled _, _ => []
  | collecting _ _, .unstarted _ _ => []
  | collecting _ _, .value request bytes => [.fetched request.name bytes.length]
  | collecting received _, .fault request error =>
      [.fetchFailed received expected (.unavailable request.name request.address error)]
  | collecting received _, .expired => [.fetchExpired limit (expected - received)]
  | collecting _ _, .disconnected => []

def run (expected : Nat) (limit : Duration) : Progress → List Signal → Progress × List LogEntry
  | progress, [] => (progress, [])
  | progress, signal :: rest =>
      let (final, logs) := run expected limit (progress.step expected limit signal) rest
      (final, progress.logged expected limit signal ++ logs)

/-- A settled fetch ignores what comes after. -/
theorem run_settled (expected : Nat) (limit : Duration)
    (result : Except FetchError (SortedMap String Bytes)) (signals : List Signal) :
    run expected limit (settled result) signals = (settled result, []) := by
  induction signals with
  | nil => rfl
  | cons signal rest ih => simp only [run, step, logged, ih, List.append_nil]

/-- Taking signals in two batches is taking them in one. -/
theorem run_append (expected : Nat) (limit : Duration) (progress : Progress)
    (first second : List Signal) :
    run expected limit progress (first ++ second) =
      ((run expected limit (run expected limit progress first).1 second).1,
        (run expected limit progress first).2 ++
          (run expected limit (run expected limit progress first).1 second).2) := by
  induction first generalizing progress with
  | nil => rfl
  | cons signal rest ih => simp only [List.cons_append, run, ih, List.append_assoc]

def outcome : Progress → Outcome FetchError (SortedMap String Bytes)
  | collecting _ _ => .waiting
  | settled result => .ofExcept result

end Progress

/-- The requests whose reads are started. -/
def started (requests : List Request) : List Signal → List Request
  | .unstarted request _ :: _ => requests.takeWhile (· ≠ request)
  | _ => requests

/-- Fetches the values of all requests, given what it meets. -/
def fetch (requests : List Request) (limit : Duration) (signals : List Signal) :
    Outcome FetchError (SortedMap String Bytes) × List LogEntry :=
  let (progress, logs) := Progress.run requests.length limit (.start requests.length) signals
  (progress.outcome, logs)

end ChainVariables
