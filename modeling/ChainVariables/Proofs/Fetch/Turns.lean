import ChainVariables.Proofs.Fetch.Deadline

/-! # The turns of the loop

A loop that collects the reports of a fetch counts the values it takes and keeps
them under their names. The two differ where names are repeated, and the queue of
the reports is ahead of both. At every turn the loop has counted what it has taken,
which are values and fewer than it expects, and its map has their names
(`ChainVariables.Collector.Turn`). It is over as soon as it has taken all values, or
an error (`ChainVariables.Collector.loopLaw_of_reaches`).
-/

namespace ChainVariables

theorem Progress.outcome_eq_error {progress : Progress} {error : FetchError} :
    progress.outcome = .error error ↔ progress = settled (.error error) := by
  cases progress with
  | collecting received values => simp [outcome]
  | settled result => cases result <;> simp [outcome, Outcome.ofExcept]

/-- Every value that arrived is kept exactly if no name is repeated. -/
theorem Progress.size_collect_eq_iff (arrivals : List Arrival) :
    (Progress.collect arrivals .empty).size = arrivals.length ↔
      (arrivals.map (·.1.name)).Nodup := by
  rw [Progress.size_collect, ← List.dedup_eq_self]
  refine ⟨?_, ?_⟩
  · intro same
    apply (List.dedup_sublist _).eq_of_length
    rw [same, List.length_map]
  · intro same
    rw [same, List.length_map]

namespace Arrival

theorem filter_isReport_signals (arrivals : List Arrival) :
    (arrivals.map Arrival.signal).filter Signal.isReport = arrivals.map Arrival.signal := by
  rw [List.filter_eq_self]
  intro signal member
  obtain ⟨arrival, _, rfl⟩ := List.mem_map.mp member
  rfl

theorem fault_notMem_signals {request : Request} {source : StoreError}
    (arrivals : List Arrival) :
    .fault request source ∉ arrivals.map Arrival.signal := by
  intro member
  obtain ⟨arrival, _, fault⟩ := List.mem_map.mp member
  cases fault

theorem signal_injective : Function.Injective Arrival.signal := by
  rintro ⟨request, bytes⟩ ⟨request', bytes'⟩ same
  cases same
  rfl

end Arrival

namespace Collector

variable {deadline? : Option Nat} {limit : Duration} {reads : List (Request × Answer)}
  {collector : Collector}

/-- The values that a loop has taken, counted and mapped while one is missing. -/
structure Turn (reads : List (Request × Answer)) (taken : List Signal) (received : Nat)
    (values : SortedMap String Bytes) (arrivals : List Arrival) : Prop where
  missing : received < reads.length
  taken : taken = arrivals.map Arrival.signal
  count : received = arrivals.length
  sent : (arrivals.map Arrival.read).Subperm reads
  keys : ∀ name, name ∈ values.keys ↔ name ∈ arrivals.map (·.1.name)
  size_le : values.size ≤ received
  size_eq : values.size = received ↔ (arrivals.map (·.1.name)).Nodup
  distinct : (reads.map (·.1.name)).Nodup → values.size = received

/-- What holds of a loop wherever it stands. -/
structure LoopLaw (deadline? : Option Nat) (limit : Duration) (reads : List (Request × Answer))
    (collector : Collector) : Prop where
  /-- It collects what its fetch does. -/
  fetched : fetch (reads.map Prod.fst) limit collector.flight.met =
    (collector.progress.outcome, collector.logs)
  turn : ∀ received values, collector.progress = .collecting received values →
    ∃ arrivals, Turn reads collector.taken received values arrivals
  /-- It receives only while a value is missing. -/
  attempt : ∀ span?, collector.stage = .receiving span? →
    ∃ received values, collector.progress = .collecting received values
  /-- No difference was below zero. -/
  whole : collector.stage ≠ .broken
  /-- The time from the deadline is what is left until then, and is not zero. -/
  span : ∀ span, collector.stage = .receiving (some span) →
    ∃ deadline now, deadline? = some deadline ∧ now + span = deadline ∧ 0 < span
  /-- The values from those expected are the reads whose values are not there. -/
  outstanding : ∀ limit' outstanding, .fetchExpired limit' outstanding ∈ collector.logs →
    collector.progress = .settled (.error (.timeout collector.taken.length reads.length limit)) ∧
      limit' = limit ∧ collector.taken.length + outstanding = reads.length
  bounded : collector.taken.length ≤ reads.length
  /-- It is over as soon as it has taken all values. -/
  full : ∀ arrivals : List Arrival, collector.taken = arrivals.map Arrival.signal →
    arrivals.length = reads.length →
      collector.progress = .settled (.ok (Progress.collect arrivals .empty))
  /-- It is over as soon as it has taken an error. -/
  faulted : ∀ request source, .fault request source ∈ collector.taken →
    collector.progress =
        .settled (.error (.unavailable request.name request.address source)) ∧
      ∃ arrivals : List Arrival,
        collector.taken = arrivals.map Arrival.signal ++ [.fault request source]
  /-- Once it is over it takes nothing. -/
  final : ∀ result next, collector.progress = .settled result →
    Step deadline? (reads.map Prod.fst) limit collector next →
      next.progress = collector.progress ∧ next.taken = collector.taken ∧
        next.logs = collector.logs

section Accounts

variable {arrivals : List Arrival} {failed queued crashed : List (Request × Answer)}
  {last : List Signal}

theorem Tied.outcome_eq (tied : Tied deadline? reads.length limit collector) :
    collector.flight.outcome (reads.map Prod.fst) limit = collector.progress.outcome := by
  rw [Flight.outcome, tied.fetch_eq]

theorem length_le_of_accounts
    (accounts : Flight.Accounts (deadline? ≠ none) limit reads collector.flight arrivals failed
      queued crashed last) : arrivals.length + failed.length ≤ reads.length := by
  have length := accounts.balance.length_eq
  simp only [List.length_append, List.length_map] at length
  omega

/-- A loop has taken values, and after them at most one error, which it fails with. -/
theorem Tied.taken_cases (tied : Tied deadline? reads.length limit collector)
    (accounts : Flight.Accounts (deadline? ≠ none) limit reads collector.flight arrivals failed
      queued crashed last) :
    collector.taken = arrivals.map Arrival.signal ∨
      ∃ request source, collector.taken = arrivals.map Arrival.signal ++ [.fault request source] ∧
        failed = [(request, .fault source)] ∧
        collector.progress =
          .settled (.error (.unavailable request.name request.address source)) := by
  have split : collector.taken =
      arrivals.map Arrival.signal ++ last.filter Signal.isReport := by
    rw [taken, accounts.met, List.filter_append, Arrival.filter_isReport_signals]
  have verdict := accounts.verdict
  rw [tied.outcome_eq] at verdict
  generalize ended : collector.progress.outcome = outcome at verdict
  cases verdict with
  | unavailable request source =>
      exact .inr ⟨request, source, split, rfl, Progress.outcome_eq_error.mp ended⟩
  | waiting missing => exact .inl (split.trans (List.append_nil _))
  | ok full => exact .inl (split.trans (List.append_nil _))
  | timeout allowed missing => exact .inl (split.trans (List.append_nil _))
  | disconnected missing lost all => exact .inl (split.trans (List.append_nil _))

/-- If it has taken nothing but values, these are the values that arrived. -/
theorem Tied.eq_of_values {arrivals' : List Arrival}
    (tied : Tied deadline? reads.length limit collector)
    (accounts : Flight.Accounts (deadline? ≠ none) limit reads collector.flight arrivals failed
      queued crashed last)
    (values : collector.taken = arrivals'.map Arrival.signal) : arrivals' = arrivals := by
  rcases tied.taken_cases accounts with only | ⟨request, source, split, _⟩
  · exact List.map_injective_iff.mpr Arrival.signal_injective (values.symm.trans only)
  · have member : .fault request source ∈ arrivals'.map Arrival.signal := by
      rw [← values, split]
      exact List.mem_append_right _ List.mem_cons_self
    exact absurd member (Arrival.fault_notMem_signals arrivals')

/-- If it has taken an error, that is the last it has taken. -/
theorem Tied.settled_of_fault {request : Request} {source : StoreError}
    (tied : Tied deadline? reads.length limit collector)
    (accounts : Flight.Accounts (deadline? ≠ none) limit reads collector.flight arrivals failed
      queued crashed last)
    (member : .fault request source ∈ collector.taken) :
    collector.progress =
        .settled (.error (.unavailable request.name request.address source)) ∧
      collector.taken = arrivals.map Arrival.signal ++ [.fault request source] := by
  rcases tied.taken_cases accounts with only | ⟨request', source', split, _, failed⟩
  · rw [only] at member
    exact absurd member (Arrival.fault_notMem_signals arrivals)
  · rw [split] at member
    rcases List.mem_append.mp member with value | fault
    · exact absurd value (Arrival.fault_notMem_signals arrivals)
    · cases List.mem_singleton.mp fault
      exact ⟨failed, split⟩

/-- What a loop holds that still misses a value. -/
theorem Tied.turn (tied : Tied deadline? reads.length limit collector)
    (accounts : Flight.Accounts (deadline? ≠ none) limit reads collector.flight arrivals failed
      queued crashed last)
    {received : Nat} {values : SortedMap String Bytes}
    (collects : collector.progress = .collecting received values) :
    Turn reads collector.taken received values arrivals := by
  have waiting : collector.flight.outcome (reads.map Prod.fst) limit = .waiting := by
    rw [tied.outcome_eq, collects]
    rfl
  obtain ⟨rfl, rfl, met, missing⟩ := accounts.of_waiting waiting
  have run : (Progress.run reads.length limit (.start reads.length) collector.flight.met).1 =
      .collecting arrivals.length (Progress.collect arrivals .empty) := by
    rw [met, Progress.start, Progress.run_arrivals limit arrivals .empty (by omega), Nat.zero_add,
      Progress.after_of_lt _ missing]
  rw [tied.run, collects] at run
  cases run
  have taken : collector.taken = arrivals.map Arrival.signal := by
    rw [Collector.taken, met, Arrival.filter_isReport_signals]
  have sent : (arrivals.map Arrival.read).Subperm reads :=
    (List.sublist_append_left _ _).subperm.trans accounts.balance.subperm
  have distinct (different : (reads.map (·.1.name)).Nodup) :
      (arrivals.map (·.1.name)).Nodup := by
    have names := (accounts.balance.map (·.1.name)).nodup_iff.mpr different
    rw [List.map_append, List.map_map] at names
    exact names.of_append_left
  refine ⟨missing, taken, rfl, sent, ?_, ?_, Progress.size_collect_eq_iff arrivals, ?_⟩
  · intro name
    rw [SortedMap.mem_keys_iff, Progress.contains_collect_iff]
  · rw [Progress.size_collect]
    have shorter := (List.dedup_sublist (arrivals.map (·.1.name))).length_le
    rwa [List.length_map] at shorter
  · intro different
    exact (Progress.size_collect_eq_iff arrivals).mpr (distinct different)

theorem ok_of_full {limited : Prop} {outcome : Outcome FetchError (SortedMap String Bytes)}
    (verdict : Flight.Verdict limited limit reads arrivals failed last outcome)
    (fits : arrivals.length + failed.length ≤ reads.length)
    (full : arrivals.length = reads.length) :
    outcome = .ok (Progress.collect arrivals .empty) := by
  cases verdict with
  | waiting missing => omega
  | ok _ => rfl
  | unavailable request source =>
      rw [List.length_singleton] at fits
      omega
  | timeout allowed missing => omega
  | disconnected missing lost all => omega

theorem received_of_timeout {limited : Prop} {received expected : Nat} {limit' : Duration}
    (verdict : Flight.Verdict limited limit reads arrivals failed last
      (.error (.timeout received expected limit'))) :
    received = arrivals.length := by
  cases verdict with
  | timeout allowed missing => rfl

end Accounts

/-- **The law of the loop.** However the reads and the loop interleave, and whatever the clock
shows, the loop receives only while it has counted fewer values than it expects. The values it has
counted are those it has taken, it has taken nothing else, and its map has their names and no
others. No difference is below zero. The loop takes at most as many reports as there are reads, is
over with the last value or the first error that it takes, and never goes on forever. -/
theorem loopLaw_of_reaches (reached : Reaches deadline? limit reads collector) :
    LoopLaw deadline? limit reads collector ∧
      ¬ ∃ run : Nat → Collector, run 0 = collector ∧
        ∀ time, Step deadline? (reads.map Prod.fst) limit (run time) (run (time + 1)) := by
  obtain ⟨tied, flown⟩ := tied_of_reaches reached
  obtain ⟨arrivals, failed, queued, crashed, last, accounts⟩ := Flight.accounted_of_reaches flown
  have fits := length_le_of_accounts accounts
  have verdict := accounts.verdict
  rw [tied.outcome_eq] at verdict
  refine ⟨⟨tied.fetch_eq, ?turn, tied.attempt, ?whole, ?span, ?outstanding, ?bounded, ?full,
    ?faulted, ?final⟩, ?endless⟩
  case turn => exact fun received values collects => ⟨arrivals, tied.turn accounts collects⟩
  case whole =>
    intro broken
    have fits := tied.fits
    rw [broken] at fits
    exact fits
  case span =>
    intro span receives
    have fits := tied.fits
    rwa [receives] at fits
  case outstanding =>
    intro limit' outstanding told
    obtain ⟨received, settles, same, sum⟩ := tied.timeout_of_logged told
    rw [settles] at verdict
    obtain rfl := received_of_timeout verdict
    rcases tied.taken_cases accounts with only | ⟨_, _, _, _, failed⟩
    · rw [only, List.length_map]
      exact ⟨settles, same, sum⟩
    · cases settles.symm.trans failed
  case bounded =>
    rcases tied.taken_cases accounts with only | ⟨request, source, split, rfl, _⟩
    · rw [only, List.length_map]
      omega
    · rw [split, List.length_append, List.length_map]
      exact fits
  case full =>
    intro arrivals' values full
    have same := tied.eq_of_values accounts values
    rw [same] at full ⊢
    exact Progress.outcome_eq_ok.mp (ok_of_full verdict fits full)
  case faulted =>
    intro request source member
    obtain ⟨failed, split⟩ := tied.settled_of_fault accounts member
    exact ⟨failed, arrivals, split⟩
  case final =>
    intro result next settles step
    cases act_of_reaches reached step with
    | read act same => exact ⟨rfl, by simp only [Collector.taken, same], rfl⟩
    | wait collects => cases settles.symm.trans collects
    | meet collects => cases settles.symm.trans collects
  case endless => exact not_endless reached

/-- Two values for one name, and a read that does not end. -/
def repeatedReads : List (Request × Answer) :=
  [(⟨"fee", ⟨[0], [1]⟩⟩, .value [1]), (⟨"fee", ⟨[0], [2]⟩⟩, .value [2]),
    (⟨"gas", ⟨[0], [3]⟩⟩, .silent)]

/-- Both values have been taken, and 1 is left until the deadline at 10. -/
def repeatedCollector : Collector where
  flight := ⟨[(⟨"gas", ⟨[0], [3]⟩⟩, .silent)], [],
    [.value ⟨"fee", ⟨[0], [1]⟩⟩ [1], .value ⟨"fee", ⟨[0], [2]⟩⟩ [2]]⟩
  progress := .collecting 2 ((SortedMap.empty.insert "fee" [1]).insert "fee" [2])
  logs := [.fetched "fee" 1, .fetched "fee" 1]
  stage := .receiving (some 1)

theorem reaches_repeatedCollector (limit : Duration) :
    Reaches (some 10) limit repeatedReads repeatedCollector := by
  let fee : Request := ⟨"fee", ⟨[0], [1]⟩⟩
  let fee' : Request := ⟨"fee", ⟨[0], [2]⟩⟩
  let gas : Request := ⟨"gas", ⟨[0], [3]⟩⟩
  let requests := repeatedReads.map Prod.fst
  let first : Flight := ⟨[(fee', .value [2]), (gas, .silent)], [.value fee [1]], []⟩
  let second : Flight := ⟨[(gas, .silent)], [.value fee [1], .value fee' [2]], []⟩
  have reports : Flight.Step (some 10 ≠ none) requests limit (.launch repeatedReads) first :=
    @Flight.Step.report _ _ _ [] _ _ _ _ _ (.value fee [1])
  have reports' : Flight.Step (some 10 ≠ none) requests limit first second :=
    @Flight.Step.report _ _ _ [] _ _ _ _ _ (.value fee' [2])
  exact .head (.read reports rfl) (.head (.read reports' rfl) (.head (.look 3 rfl rfl)
    (.head (.receive rfl rfl rfl) (.head (.look 7 rfl rfl) (.head (.receive rfl rfl rfl)
      (.head (.look 9 rfl rfl) .refl))))))

/-- With a name repeated, the map has fewer entries than values were counted. -/
theorem loopLaw_of_reaches_repeated :
    Reaches (some 10) ⟨Duration.second⟩ repeatedReads repeatedCollector ∧
      repeatedCollector.stage = .receiving (some 1) ∧ repeatedCollector.taken.length = 2 ∧
      ((SortedMap.empty.insert "fee" [1]).insert "fee" [2] : SortedMap String Bytes).size < 2 := by
  have reached := reaches_repeatedCollector ⟨Duration.second⟩
  obtain ⟨law, _⟩ := loopLaw_of_reaches reached
  obtain ⟨arrivals, turn⟩ := law.turn 2 _ rfl
  have same : arrivals = [(⟨"fee", ⟨[0], [1]⟩⟩, [1]), (⟨"fee", ⟨[0], [2]⟩⟩, [2])] :=
    List.map_injective_iff.mpr Arrival.signal_injective turn.taken.symm
  have repeated : ¬ (arrivals.map (·.1.name)).Nodup := by
    rw [same]
    decide
  have fewer := turn.size_le.lt_of_ne fun size => repeated (turn.size_eq.mp size)
  exact ⟨reached, rfl, rfl, fewer⟩

end Collector

end ChainVariables
