import Mathlib.Order.WellFounded
import ChainVariables.Proofs.Fetch.Interleaving

/-! # What a fetch returns

However its reads interleave, what a fetch returns says what has happened to them
(`ChainVariables.Flight.OutcomeLaw`): it succeeds only with the values of all
reads, fails with the first error that arrives, times out only if it has a
deadline, and is disconnected only by crashes. A fetch that does not time out
returns what its reads decide, in whatever order they act
(`ChainVariables.Flight.Decided`): an error wins over a crash, and a crash is
never taken for a success.
-/

namespace ChainVariables

def Answer.isCrash : Answer → Bool
  | .crash _ => true
  | _ => false

theorem Answer.isCrash_iff {answer : Answer} :
    answer.isCrash = true ↔ ∃ message, answer = .crash message := by
  cases answer <;> simp [isCrash]

/-- How many of the reads crash. -/
def crashes (reads : List (Request × Answer)) : Nat := reads.countP (·.2.isCrash)

theorem crashes_of_perm {arrivals : List Arrival} {crashed reads : List (Request × Answer)}
    (lost : ∀ read ∈ crashed, ∃ message, read.2 = .crash message)
    (permuted : (arrivals.map Arrival.read ++ crashed).Perm reads) :
    crashes reads = crashed.length := by
  have arrived : (arrivals.map Arrival.read).countP (·.2.isCrash) = 0 := by
    rw [List.countP_map, List.countP_eq_zero]
    intro arrival _ crash
    cases crash
  have counted : crashed.countP (·.2.isCrash) = crashed.length := by
    rw [List.countP_eq_length]
    intro read member
    exact Answer.isCrash_iff.mpr (lost read member)
  rw [crashes, ← permuted.countP_eq, List.countP_append, arrived, counted, Nat.zero_add]

namespace Flight

variable {limited : Prop} {limit : Duration} {reads : List (Request × Answer)} {flight : Flight}

/-- What each outcome of a fetch tells of its reads and of what it has received. -/
structure OutcomeLaw (limited : Prop) (limit : Duration) (reads : List (Request × Answer))
    (met : List Signal) (outcome : Outcome FetchError (SortedMap String Bytes)) : Prop where
  /-- Every read has sent a value, all were received, and nothing else was met. -/
  ok : ∀ values, outcome = .ok values →
    ∃ arrivals : List Arrival, (arrivals.map Arrival.read).Perm reads ∧
      met = arrivals.map Arrival.signal ∧ values = Progress.collect arrivals .empty
  /-- The error is the first to arrive; it names its own request, and carries what the store
  answered. Only values were received before it. -/
  unavailable : ∀ name address source, outcome = .error (.unavailable name address source) →
    ∃ (arrivals : List Arrival) (request : Request) (others : List (Request × Answer)),
      (arrivals.map Arrival.read ++ (request, .fault source) :: others).Perm reads ∧
        met = arrivals.map Arrival.signal ++ [.fault request source] ∧
        name = request.name ∧ address = request.address
  /-- There is a deadline. Only values were received before it passed, and not all of them. -/
  timeout : ∀ received expected limit', outcome = .error (.timeout received expected limit') →
    limited ∧ limit' = limit ∧ expected = reads.length ∧ received < expected ∧
      ∃ (arrivals : List Arrival) (others : List (Request × Answer)),
        (arrivals.map Arrival.read ++ others).Perm reads ∧
          met = arrivals.map Arrival.signal ++ [.expired] ∧ received = arrivals.length
  /-- Some reads have crashed. All others have sent a value, and it was received. -/
  disconnected : ∀ received expected, outcome = .error (.disconnected received expected) →
    (∀ read ∈ reads, (∃ bytes, read.2 = .value bytes) ∨ ∃ message, read.2 = .crash message) ∧
      0 < crashes reads ∧ received = reads.length - crashes reads ∧ expected = reads.length ∧
      ∃ arrivals : List Arrival, met = arrivals.map Arrival.signal ++ [.disconnected] ∧
        received = arrivals.length
  /-- Every read was started. -/
  started : ∀ name error, outcome ≠ .error (.spawnFailed name error)
  /-- A crash of a read does not spread. -/
  contained : ∀ message, outcome ≠ .crashed message

/-- When as many values have arrived as there are reads, every read gave one of them. -/
theorem perm_of_full {arrivals : List Arrival} {others : List (Request × Answer)}
    (balance : (arrivals.map Arrival.read ++ others).Perm reads)
    (full : arrivals.length = reads.length) : (arrivals.map Arrival.read).Perm reads := by
  have counted := balance.length_eq
  rw [List.length_append, List.length_map] at counted
  have none : others = [] := List.eq_nil_of_length_eq_zero (by omega)
  rwa [none, List.append_nil] at balance

theorem Accounts.outcomeLaw {arrivals : List Arrival}
    {failed queued crashed : List (Request × Answer)} {last : List Signal}
    (accounts : Accounts limited limit reads flight arrivals failed queued crashed last) :
    OutcomeLaw limited limit reads flight.met (flight.outcome (reads.map Prod.fst) limit) := by
  obtain ⟨met, _, _, balance, verdict⟩ := accounts
  generalize flight.outcome (reads.map Prod.fst) limit = outcome at verdict
  refine ⟨?ok, ?unavailable, ?timeout, ?disconnected, ?started, ?contained⟩
  case ok =>
    rintro values rfl
    cases verdict with
    | ok full =>
        rw [List.append_nil] at met
        exact ⟨arrivals, perm_of_full balance full, met, rfl⟩
  case unavailable =>
    rintro name address source rfl
    cases verdict with
    | unavailable request => exact ⟨arrivals, request, _, balance, met, rfl, rfl⟩
  case timeout =>
    rintro received expected limit' rfl
    cases verdict with
    | timeout allowed missing =>
        exact ⟨allowed, rfl, rfl, missing, arrivals, _, balance, met, rfl⟩
  case disconnected =>
    rintro received expected rfl
    cases verdict with
    | @disconnected lost missing crash all =>
        have crashed := crashes_of_perm crash all
        have counted := all.length_eq
        rw [List.length_append, List.length_map] at counted
        refine ⟨?_, by omega, by omega, rfl, arrivals, met, rfl⟩
        intro read member
        rcases List.mem_append.mp (all.mem_iff.mpr member) with arrived | ended
        · obtain ⟨arrival, _, rfl⟩ := List.mem_map.mp arrived
          exact .inl ⟨arrival.2, rfl⟩
        · exact .inr (crash read ended)
  case started =>
    rintro name error rfl
    cases verdict
  case contained =>
    rintro message rfl
    cases verdict

/-! ## What the reads decide -/

/-- The outcome that a fetch comes to if it waits for as long as it must. -/
structure Decided (reads : List (Request × Answer))
    (outcome : Outcome FetchError (SortedMap String Bytes)) : Prop where
  ok : (∃ values, outcome = .ok values) ↔ ∀ read ∈ reads, ∃ bytes, read.2 = .value bytes
  unavailable : (∃ name address source, outcome = .error (.unavailable name address source)) ↔
    ∃ read ∈ reads, ∃ source, read.2 = .fault source
  disconnected : (∃ received expected, outcome = .error (.disconnected received expected)) ↔
    (∀ read ∈ reads, (∃ bytes, read.2 = .value bytes) ∨ ∃ message, read.2 = .crash message) ∧
      ∃ read ∈ reads, ∃ message, read.2 = .crash message
  waiting : outcome = .waiting ↔
    (∀ read ∈ reads, ∀ source, read.2 ≠ .fault source) ∧ ∃ read ∈ reads, read.2 = .silent

theorem Decided.of_values {values : SortedMap String Bytes}
    (all : ∀ read ∈ reads, ∃ bytes, read.2 = .value bytes) : Decided reads (.ok values) := by
  constructor <;> grind

theorem Decided.of_fault {name : String} {address : Address} {source : StoreError}
    (fault : ∃ read ∈ reads, ∃ source, read.2 = .fault source) :
    Decided reads (.error (.unavailable name address source)) := by
  constructor <;> grind

theorem Decided.of_crash {received expected : Nat}
    (all : ∀ read ∈ reads, (∃ bytes, read.2 = .value bytes) ∨ ∃ message, read.2 = .crash message)
    (crash : ∃ read ∈ reads, ∃ message, read.2 = .crash message) :
    Decided reads (.error (.disconnected received expected)) := by
  constructor <;> grind

theorem Decided.of_silent (none : ∀ read ∈ reads, ∀ source, read.2 ≠ .fault source)
    (silent : ∃ read ∈ reads, read.2 = .silent) : Decided reads .waiting := by
  constructor <;> grind

/-- A fetch that waits in the end has received every answer, and none is an error. -/
theorem Accounts.silent_of_stuck {arrivals : List Arrival}
    {failed queued crashed : List (Request × Answer)} {last : List Signal}
    (accounts : Accounts limited limit reads flight arrivals failed queued crashed last)
    (stuck : flight.Stuck limited (reads.map Prod.fst) limit)
    (waiting : flight.outcome (reads.map Prod.fst) limit = .waiting) :
    (∀ read ∈ reads, ∀ source, read.2 ≠ .fault source) ∧ ∃ read ∈ reads, read.2 = .silent := by
  obtain ⟨rfl, rfl, _, _⟩ := accounts.of_waiting waiting
  obtain ⟨_, received, outstanding⟩ := stuck.of_waiting waiting
  obtain ⟨_, reports, lost, balance, _⟩ := accounts
  rw [received, List.forall₂_nil_right_iff] at reports
  subst reports
  simp only [List.nil_append] at balance
  refine ⟨?_, ?_⟩
  · intro read member source fault
    rcases List.mem_append.mp (balance.mem_iff.mpr member) with arrived | other
    · obtain ⟨arrival, _, rfl⟩ := List.mem_map.mp arrived
      cases fault
    · rcases List.mem_append.mp other with ended | silent
      · obtain ⟨message, crash⟩ := lost read ended
        cases fault.symm.trans crash
      · cases fault.symm.trans (stuck.silent read silent)
  · obtain ⟨read, member⟩ := List.exists_mem_of_ne_nil _ outstanding
    exact ⟨read, balance.mem_iff.mp (by simp [member]), stuck.silent read member⟩

/-- At the end of an interleaving the reads have decided, unless time ran out before. -/
theorem Accounts.decided {arrivals : List Arrival}
    {failed queued crashed : List (Request × Answer)} {last : List Signal}
    (accounts : Accounts limited limit reads flight arrivals failed queued crashed last)
    (stuck : flight.Stuck limited (reads.map Prod.fst) limit)
    (timely : ∀ received expected limit', flight.outcome (reads.map Prod.fst) limit ≠
      .error (.timeout received expected limit')) :
    Decided reads (flight.outcome (reads.map Prod.fst) limit) := by
  have law := accounts.outcomeLaw
  have silent := accounts.silent_of_stuck stuck
  generalize flight.outcome (reads.map Prod.fst) limit = outcome at law silent timely
  cases outcome with
  | ok values =>
      obtain ⟨arrivals, all, _⟩ := law.ok values rfl
      apply Decided.of_values
      intro read member
      obtain ⟨arrival, _, rfl⟩ := List.mem_map.mp (all.mem_iff.mpr member)
      exact ⟨arrival.2, rfl⟩
  | error error =>
      cases error with
      | unavailable name address source =>
          obtain ⟨arrivals, request, others, balance, _⟩ := law.unavailable name address source rfl
          exact .of_fault ⟨(request, .fault source), balance.mem_iff.mp (by simp), source, rfl⟩
      | timeout received expected limit' => exact absurd rfl (timely received expected limit')
      | disconnected received expected =>
          obtain ⟨all, some_crash, _⟩ := law.disconnected received expected rfl
          obtain ⟨read, member, crash⟩ := List.countP_pos_iff.mp some_crash
          exact .of_crash all ⟨read, member, Answer.isCrash_iff.mp crash⟩
      | spawnFailed name error => exact absurd rfl (law.started name error)
  | crashed message => exact absurd rfl (law.contained message)
  | waiting =>
      obtain ⟨none, some⟩ := silent rfl
      exact .of_silent none some

/-- **The law of a fetch.** Let each read give a value, give an error, crash, or stay silent, and
let reads and collector act in any order. What the fetch returns then tells what its reads have
done and what was received. No interleaving goes on forever, and at its end the fetch has returned
unless it has no deadline and some read is silent. Without a deadline, and with one that is not
missed, the reads alone decide: the fetch succeeds exactly if all of them give values, fails with
an error from the store exactly if one of them gives an error, and is disconnected exactly if
one crashes and all others give values. -/
theorem outcome_of_interleaving (reached : Reaches limited limit reads flight) :
    OutcomeLaw limited limit reads flight.met (flight.outcome (reads.map Prod.fst) limit) ∧
      (¬ ∃ run : Nat → Flight, run 0 = flight ∧
        ∀ time, Step limited (reads.map Prod.fst) limit (run time) (run (time + 1))) ∧
      (flight.Stuck limited (reads.map Prod.fst) limit →
        (limited ∨ ∀ read ∈ reads, read.2 ≠ .silent) →
          flight.outcome (reads.map Prod.fst) limit ≠ .waiting) ∧
      (flight.Stuck limited (reads.map Prod.fst) limit →
        (¬ limited ∨ ∀ received expected limit', flight.outcome (reads.map Prod.fst) limit ≠
          .error (.timeout received expected limit')) →
          Decided reads (flight.outcome (reads.map Prod.fst) limit)) := by
  obtain ⟨arrivals, failed, queued, crashed, last, accounts⟩ := accounted_of_reaches reached
  have law := accounts.outcomeLaw
  refine ⟨law, ?endless, ?returned, ?decided⟩
  case endless =>
    rintro ⟨run, _, steps⟩
    have ends := wellFounded_step limited (reads.map Prod.fst) limit
    exact (wellFounded_iff_isEmpty_descending_chain.mp ends).false ⟨run, steps⟩
  case returned =>
    intro stuck answered waiting
    have unlimited := (stuck.of_waiting waiting).1
    obtain ⟨read, member, silent⟩ := (accounts.silent_of_stuck stuck waiting).2
    rcases answered with allowed | answers
    · exact unlimited allowed
    · exact answers read member silent
  case decided =>
    intro stuck timely
    refine accounts.decided stuck ?_
    intro received expected limit' late
    rcases timely with unlimited | timely
    · exact unlimited (law.timeout received expected limit' late).1
    · exact timely received expected limit' late

/-- A request for a variable that is kept under its name. -/
def requestFor (name : String) : Request := ⟨name, ⟨[0], name.toUTF8.toList⟩⟩

/-- Two values and a crash. -/
def crashedReads : List (Request × Answer) :=
  [(requestFor "a", .value [1]), (requestFor "b", .crash "lost"), (requestFor "c", .value [3])]

/-- The second value has overtaken the first. -/
def crashedFlight : Flight :=
  ⟨[], [], [.value (requestFor "c") [3], .value (requestFor "a") [1], .disconnected]⟩

theorem reaches_crashedFlight (limit : Duration) :
    Reaches False limit crashedReads crashedFlight := by
  let a := requestFor "a"
  let b := requestFor "b"
  let c := requestFor "c"
  have third : Step False (crashedReads.map Prod.fst) limit (launch crashedReads)
      ⟨[(a, .value [1])] ++ (b, .crash "lost") :: [], [.value c [3]], []⟩ :=
    @Step.report _ _ _ [(a, .value [1]), (b, .crash "lost")] [] _ _ [] [] (.value c [3])
  have second : Step False (crashedReads.map Prod.fst) limit
      ⟨[(a, .value [1])] ++ (b, .crash "lost") :: [], [.value c [3]], []⟩
      ⟨[] ++ (a, .value [1]) :: [], [.value c [3]], []⟩ := .crash
  have first : Step False (crashedReads.map Prod.fst) limit
      ⟨[] ++ (a, .value [1]) :: [], [.value c [3]], []⟩ ⟨[], [.value c [3], .value a [1]], []⟩ :=
    .report (.value a [1])
  exact .head third (.head second (.head first (.head (.receive rfl) (.head (.receive rfl)
    (.head (.disconnect rfl) .refl)))))

theorem outcome_of_crashedFlight (limit : Duration) :
    crashedFlight.outcome (crashedReads.map Prod.fst) limit = .error (.disconnected 2 3) := rfl

/-- Without a deadline a fetch of two values and a crash is disconnected in the end. -/
theorem outcome_of_interleaving_crashedReads :
    Reaches False ⟨Duration.second⟩ crashedReads crashedFlight ∧
      crashedFlight.Stuck False (crashedReads.map Prod.fst) ⟨Duration.second⟩ ∧
      0 < crashes crashedReads ∧ 2 = crashedReads.length - crashes crashedReads ∧
      Decided crashedReads (.error (.disconnected 2 3)) := by
  have reached := reaches_crashedFlight ⟨Duration.second⟩
  have returned := outcome_of_crashedFlight ⟨Duration.second⟩
  have stuck : crashedFlight.Stuck False (crashedReads.map Prod.fst) ⟨Duration.second⟩ :=
    stuck_of_returned rfl (by rw [returned]; nofun)
  obtain ⟨law, _, _, decided⟩ := outcome_of_interleaving reached
  obtain ⟨_, some, missing, _⟩ := law.disconnected 2 3 returned
  exact ⟨reached, stuck, some, missing, decided stuck (.inl not_false)⟩

end Flight

end ChainVariables
