import Mathlib.Data.Nat.PSub
import Mathlib.Order.WellFounded
import ChainVariables.Proofs.Fetch.Interleaving

/-! # The loop of the collector and its deadline

The collector receives reports in a loop. At each turn it compares how many values
have arrived with how many it expects, looks at the clock, and receives for what
is left until its deadline. A limit too long for the clock leaves it without a
deadline. It subtracts twice: the time from its deadline, and the values from
those expected when it gives up. `ChainVariables.Collector.Step` is one act of a
read or of the loop, whatever the clock shows; a difference below zero breaks the
loop.

The loop does what the fetch does on the signals it has met, and no difference
breaks it (`ChainVariables.Collector.tied_of_reaches`). It meets all that the fetch
can (`ChainVariables.Collector.exists_reaches_iff`), and it does not go on forever
(`ChainVariables.Collector.not_endless`).
-/

namespace ChainVariables

/-- Whether it was taken from the queue of reports. -/
def Signal.isReport : Signal → Bool
  | .value _ _ | .fault _ _ => true
  | .unstarted _ _ | .expired | .disconnected => false

namespace Progress

variable {expected received : Nat} {limit : Duration} {values : SortedMap String Bytes}
  {signals : List Signal}

theorem outcome_eq_waiting {progress : Progress} :
    progress.outcome = .waiting ↔ ∃ received values, progress = collecting received values := by
  cases progress with
  | collecting received values => simp [outcome]
  | settled result => cases result <;> simp [outcome, Outcome.ofExcept]

theorem run_concat (expected : Nat) (limit : Duration) (progress : Progress)
    (signals : List Signal) (signal : Signal) :
    run expected limit progress (signals ++ [signal]) =
      ((run expected limit progress signals).1.step expected limit signal,
        (run expected limit progress signals).2 ++
          (run expected limit progress signals).1.logged expected limit signal) := by
  rw [run_append]
  simp only [run, List.append_nil]

theorem lt_of_after {counted : Nat} {held : SortedMap String Bytes}
    (collects : after expected counted held = collecting received values) :
    received < expected := by
  unfold after at collects
  split at collects
  case isTrue missing =>
    cases collects
    exact missing
  case isFalse => cases collects

/-- Only the arrival of a value keeps a fetch from settling, and only as long as one is missing. -/
theorem lt_of_step {progress : Progress} {signal : Signal}
    (collects : progress.step expected limit signal = collecting received values) :
    received < expected := by
  cases progress with
  | settled result => cases collects
  | collecting counted held =>
      cases signal with
      | value request bytes => exact lt_of_after collects
      | unstarted request error => cases collects
      | fault request error => cases collects
      | expired => cases collects
      | disconnected => cases collects

theorem lt_of_run
    (collects : (run expected limit (start expected) signals).1 = collecting received values) :
    received < expected := by
  induction signals using List.reverseRecOn with
  | nil => exact lt_of_after collects
  | append_singleton signals signal _ =>
      rw [run_concat] at collects
      exact lt_of_step collects

/-- The reads said to be given up are those that have not been received. -/
theorem timeout_of_logged {limit' : Duration} {outstanding : Nat}
    (told : .fetchExpired limit' outstanding ∈ (run expected limit (start expected) signals).2) :
    ∃ received, (run expected limit (start expected) signals).1 =
      settled (.error (.timeout received expected limit)) ∧ limit' = limit ∧
        received + outstanding = expected := by
  induction signals using List.reverseRecOn with
  | nil => cases told
  | append_singleton signals signal ih =>
      rw [run_concat] at told ⊢
      rcases List.mem_append.mp told with earlier | new
      · obtain ⟨received, settles, sum⟩ := ih earlier
        exact ⟨received, by rw [settles]; rfl, sum⟩
      · cases stands : (run expected limit (start expected) signals).1 with
        | settled result =>
            rw [stands] at new
            cases new
        | collecting received values =>
            rw [stands] at new
            have missing := lt_of_run stands
            cases signal with
            | expired =>
                obtain ⟨rfl, rfl⟩ : limit' = limit ∧ outstanding = expected - received := by
                  simpa [logged] using new
                exact ⟨received, rfl, rfl, by omega⟩
            | unstarted request error => simp [logged] at new
            | value request bytes => simp [logged] at new
            | fault request error => simp [logged] at new
            | disconnected => simp [logged] at new

end Progress

/-- Where the collector stands in its loop. -/
inductive Stage where
  /-- At the head of the loop. -/
  | turning
  /-- Receiving, for so long at most if there is a deadline. -/
  | receiving (span? : Option Nat)
  /-- A difference was below zero. -/
  | broken

/-- The loop receives without end if it has no deadline, and until its deadline if it has one. -/
def Stage.Fits (deadline? : Option Nat) : Stage → Prop
  | turning => True
  | receiving none => deadline? = none
  | receiving (some span) =>
      ∃ deadline now, deadline? = some deadline ∧ now + span = deadline ∧ 0 < span
  | broken => False

/-- A fetch with the loop that collects its reports. -/
structure Collector where
  flight : Flight
  progress : Progress
  logs : List LogEntry
  stage : Stage

namespace Collector

/-- The loop begins once all reads are started. -/
def launch (reads : List (Request × Answer)) : Collector :=
  ⟨.launch reads, .start reads.length, [], .turning⟩

/-- What was taken from the queue of reports. -/
def taken (collector : Collector) : List Signal := collector.flight.met.filter Signal.isReport

/-- The loop meets a signal, which leaves these reports in the queue. -/
def meet (expected : Nat) (limit : Duration) (signal : Signal) (left : List Signal)
    (collector : Collector) : Collector where
  flight := ⟨collector.flight.outstanding, left, collector.flight.met ++ [signal]⟩
  progress := collector.progress.step expected limit signal
  logs := collector.logs ++ collector.progress.logged expected limit signal
  stage := .turning

@[simp] theorem meet_stage (expected : Nat) (limit : Duration) (signal : Signal)
    (left : List Signal) (collector : Collector) :
    (collector.meet expected limit signal left).stage = .turning := rfl

/-- The loop gives up, and logs how many reads it has not received. -/
def abandon (expected : Nat) (limit : Duration) (received : Nat) (collector : Collector) :
    Collector :=
  match expected.psub received with
  | some outstanding =>
      { collector.meet expected limit .expired collector.flight.reported with
        logs := collector.logs ++ [.fetchExpired limit outstanding] }
  | none => { collector with stage := .broken }

/-- The loop looks at the clock, and gives up or receives. -/
def look (expected : Nat) (limit : Duration) (deadline? : Option Nat) (received now : Nat)
    (collector : Collector) : Collector :=
  match deadline? with
  | none => { collector with stage := .receiving none }
  | some deadline =>
      if deadline ≤ now then collector.abandon expected limit received
      else
        match deadline.psub now with
        | some span => { collector with stage := .receiving (some span) }
        | none => { collector with stage := .broken }

/-- One act of a read or of the loop. -/
inductive Step (deadline? : Option Nat) (requests : List Request) (limit : Duration) :
    Collector → Collector → Prop where
  /-- A read ends. -/
  | read {collector : Collector} {flight : Flight} :
      Flight.Step (deadline? ≠ none) requests limit collector.flight flight →
      flight.met = collector.flight.met →
      Step deadline? requests limit collector { collector with flight }
  /-- A turn of the loop begins, at any time. -/
  | look {collector : Collector} {received : Nat} {values : SortedMap String Bytes} (now : Nat) :
      collector.progress = .collecting received values → collector.stage = .turning →
      Step deadline? requests limit collector
        (collector.look requests.length limit deadline? received now)
  /-- The oldest report is received. -/
  | receive {collector : Collector} {received : Nat} {values : SortedMap String Bytes}
      {span? : Option Nat} {signal : Signal} {left : List Signal} :
      collector.progress = .collecting received values → collector.stage = .receiving span? →
      collector.flight.reported = signal :: left →
      Step deadline? requests limit collector (collector.meet requests.length limit signal left)
  /-- The span passes. -/
  | expire {collector : Collector} {received span : Nat} {values : SortedMap String Bytes} :
      collector.progress = .collecting received values →
      collector.stage = .receiving (some span) →
      Step deadline? requests limit collector (collector.abandon requests.length limit received)
  /-- Every read has ended, and nothing they reported is left. -/
  | disconnect {collector : Collector} {received : Nat} {values : SortedMap String Bytes}
      {span? : Option Nat} :
      collector.progress = .collecting received values → collector.stage = .receiving span? →
      collector.flight.outstanding = [] → collector.flight.reported = [] →
      Step deadline? requests limit collector
        (collector.meet requests.length limit .disconnected [])

variable {deadline? : Option Nat} {limit : Duration} {reads : List (Request × Answer)}
  {collector next : Collector}

/-- Some interleaving of the reads with the loop leads here. -/
def Reaches (deadline? : Option Nat) (limit : Duration) (reads : List (Request × Answer))
    (collector : Collector) : Prop :=
  Relation.ReflTransGen (Step deadline? (reads.map Prod.fst) limit) (launch reads) collector

/-! ## What one act does -/

/-- The loop has run on what it has met, and receives only while a value is missing. -/
structure Tied (deadline? : Option Nat) (expected : Nat) (limit : Duration)
    (collector : Collector) : Prop where
  run : Progress.run expected limit (.start expected) collector.flight.met =
    (collector.progress, collector.logs)
  fits : collector.stage.Fits deadline?
  attempt : ∀ span?, collector.stage = .receiving span? →
    ∃ received values, collector.progress = .collecting received values

/-- The loop does what its fetch does. -/
theorem Tied.fetch_eq (tied : Tied deadline? reads.length limit collector) :
    fetch (reads.map Prod.fst) limit collector.flight.met =
      (collector.progress.outcome, collector.logs) := by
  simp only [fetch, List.length_map, tied.run]

theorem Tied.missing {expected received : Nat} {values : SortedMap String Bytes}
    (tied : Tied deadline? expected limit collector)
    (collects : collector.progress = .collecting received values) : received < expected := by
  have run : (Progress.run expected limit (.start expected) collector.flight.met).1 =
      .collecting received values := by
    rw [tied.run, collects]
  exact Progress.lt_of_run run

/-- While a value is missing, the loop gives up as a fetch does that meets its deadline. -/
theorem abandon_of_lt {expected received : Nat} {values : SortedMap String Bytes}
    (collects : collector.progress = .collecting received values)
    (missing : received < expected) :
    collector.abandon expected limit received =
      collector.meet expected limit .expired collector.flight.reported := by
  have outstanding : expected.psub received = some (expected - received) :=
    Nat.psub_eq_sub (Nat.le_of_lt missing)
  simp only [abandon, outstanding, meet, collects, Progress.logged]

/-- A look at the clock shows that the deadline has passed, or how long to receive. -/
theorem look_cases (expected : Nat) (limit : Duration) (deadline? : Option Nat)
    (received now : Nat) (collector : Collector) :
    (∃ deadline, deadline? = some deadline ∧ deadline ≤ now ∧
      collector.look expected limit deadline? received now =
        collector.abandon expected limit received) ∨
    ∃ span?, (Stage.receiving span?).Fits deadline? ∧
      collector.look expected limit deadline? received now =
        { collector with stage := .receiving span? } := by
  cases deadline? with
  | none => exact .inr ⟨none, rfl, rfl⟩
  | some deadline =>
      by_cases past : deadline ≤ now
      · exact .inl ⟨deadline, rfl, past, by simp only [look, if_pos past]⟩
      · have early : now < deadline := Nat.lt_of_not_le past
        have span : deadline.psub now = some (deadline - now) :=
          Nat.psub_eq_sub (Nat.le_of_lt early)
        refine .inr ⟨some (deadline - now), ⟨deadline, now, rfl, by omega, by omega⟩, ?_⟩
        simp only [look, if_neg past, span]

/-- What an act comes to: a read ends, the loop begins to receive, or it meets a signal. -/
inductive Act (deadline? : Option Nat) (requests : List Request) (limit : Duration)
    (collector : Collector) : Collector → Prop where
  | read {flight : Flight} :
      Flight.Step (deadline? ≠ none) requests limit collector.flight flight →
      flight.met = collector.flight.met →
      Act deadline? requests limit collector { collector with flight }
  | wait {received : Nat} {values : SortedMap String Bytes} {span? : Option Nat} :
      collector.progress = .collecting received values → collector.stage = .turning →
      (Stage.receiving span?).Fits deadline? →
      Act deadline? requests limit collector { collector with stage := .receiving span? }
  | meet {received : Nat} {values : SortedMap String Bytes} {signal : Signal}
      {left : List Signal} :
      collector.progress = .collecting received values →
      Flight.Step (deadline? ≠ none) requests limit collector.flight
        (collector.meet requests.length limit signal left).flight →
      Act deadline? requests limit collector (collector.meet requests.length limit signal left)

variable {requests : List Request}

theorem Tied.waiting {received : Nat} {values : SortedMap String Bytes}
    (tied : Tied deadline? requests.length limit collector)
    (collects : collector.progress = .collecting received values) :
    (fetch requests limit collector.flight.met).1 = .waiting := by
  simp only [fetch, tied.run, collects, Progress.outcome]

theorem Tied.limited {span : Nat} {expected : Nat}
    (tied : Tied deadline? expected limit collector)
    (receives : collector.stage = .receiving (some span)) : deadline? ≠ none := by
  have fits := tied.fits
  rw [receives] at fits
  obtain ⟨deadline, now, limited, _⟩ := fits
  rw [limited]
  nofun

theorem Tied.timeout_of_logged {expected outstanding : Nat} {limit' : Duration}
    (tied : Tied deadline? expected limit collector)
    (told : .fetchExpired limit' outstanding ∈ collector.logs) :
    ∃ received, collector.progress = .settled (.error (.timeout received expected limit)) ∧
      limit' = limit ∧ received + outstanding = expected := by
  have logs : collector.logs =
      (Progress.run expected limit (.start expected) collector.flight.met).2 := by
    rw [tied.run]
  rw [logs] at told
  have timeout := Progress.timeout_of_logged told
  rwa [tied.run] at timeout

/-- No difference of a loop that is tied to what it has met is below zero. -/
theorem act_of_step (tied : Tied deadline? requests.length limit collector)
    (step : Step deadline? requests limit collector next) :
    Act deadline? requests limit collector next := by
  cases step with
  | read act same => exact .read act same
  | @look received values now collects turning =>
      rcases look_cases requests.length limit deadline? received now collector with
        ⟨deadline, limited, _, late⟩ | ⟨span?, fits, early⟩
      · rw [late, abandon_of_lt collects (tied.missing collects)]
        exact .meet collects (.expire (tied.waiting collects) (by rw [limited]; nofun))
      · rw [early]
        exact .wait collects turning fits
  | @receive received values span? signal left collects receives reported =>
      have flight : collector.flight =
          ⟨collector.flight.outstanding, signal :: left, collector.flight.met⟩ := by
        rw [← reported]
      refine .meet collects ?_
      rw [flight]
      exact .receive (tied.waiting collects)
  | expire collects receives =>
      rw [abandon_of_lt collects (tied.missing collects)]
      exact .meet collects (.expire (tied.waiting collects) (tied.limited receives))
  | disconnect collects receives ended received =>
      have flight : collector.flight = ⟨[], [], collector.flight.met⟩ := by
        rw [← ended, ← received]
      have emptied : (collector.meet requests.length limit .disconnected []).flight =
          ⟨[], [], collector.flight.met ++ [.disconnected]⟩ := by
        simp only [meet, ended]
      refine .meet collects ?_
      rw [flight, emptied]
      exact .disconnect (tied.waiting collects)

theorem tied_launch (deadline? : Option Nat) (limit : Duration)
    (reads : List (Request × Answer)) : Tied deadline? reads.length limit (launch reads) where
  run := rfl
  fits := trivial
  attempt := nofun

theorem Tied.act (tied : Tied deadline? requests.length limit collector)
    (act : Act deadline? requests limit collector next) :
    Tied deadline? requests.length limit next := by
  cases act with
  | read step same => exact ⟨by rw [same, tied.run], tied.fits, tied.attempt⟩
  | wait collects turning fits => exact ⟨tied.run, fits, fun _ _ => ⟨_, _, collects⟩⟩
  | meet collects step =>
      refine ⟨?_, trivial, nofun⟩
      simp only [meet, Progress.run_concat, tied.run]

/-- The loop acts as the collector of a fetch does, or only begins to receive. -/
theorem Act.flight (act : Act deadline? requests limit collector next) :
    next.flight = collector.flight ∨
      Flight.Step (deadline? ≠ none) requests limit collector.flight next.flight := by
  cases act with
  | read step same => exact .inr step
  | wait collects turning fits => exact .inl rfl
  | meet collects step => exact .inr step

/-- Along every interleaving the loop is tied to what it has met, and its fetch interleaves with
its reads. -/
theorem tied_of_reaches (reached : Reaches deadline? limit reads collector) :
    Tied deadline? reads.length limit collector ∧
      Flight.Reaches (deadline? ≠ none) limit reads collector.flight := by
  induction reached with
  | refl => exact ⟨tied_launch deadline? limit reads, .refl⟩
  | @tail collector next _ step ih =>
      obtain ⟨tied, reached⟩ := ih
      have length : (reads.map Prod.fst).length = reads.length := List.length_map _
      rw [← length] at tied ⊢
      have act := act_of_step tied step
      refine ⟨tied.act act, ?_⟩
      rcases act.flight with same | step
      · rw [same]
        exact reached
      · exact reached.tail step

theorem act_of_reaches (reached : Reaches deadline? limit reads collector)
    (step : Step deadline? (reads.map Prod.fst) limit collector next) :
    Act deadline? (reads.map Prod.fst) limit collector next := by
  have tied := (tied_of_reaches reached).1
  rw [← List.length_map Prod.fst] at tied
  exact act_of_step tied step

/-! ## What the loop can meet -/

/-- A loop that has not settled can begin to receive, unless its deadline is at 0. -/
theorem exists_receiving {flight : Flight} (ahead : deadline? ≠ some 0)
    (reached : Reaches deadline? limit reads collector) (stands : collector.flight = flight)
    (waiting : (fetch (reads.map Prod.fst) limit flight.met).1 = .waiting) :
    ∃ next received values span?, Reaches deadline? limit reads next ∧
      next.flight = flight ∧ next.progress = .collecting received values ∧
        next.stage = .receiving span? := by
  subst stands
  obtain ⟨tied, _⟩ := tied_of_reaches reached
  rw [tied.fetch_eq] at waiting
  obtain ⟨received, values, collects⟩ := Progress.outcome_eq_waiting.mp waiting
  have fits := tied.fits
  cases stands : collector.stage with
  | turning =>
      have looked := reached.tail (.look 0 collects stands)
      rcases look_cases (reads.map Prod.fst).length limit deadline? received 0 collector with
        ⟨deadline, limited, past, _⟩ | ⟨span?, _, early⟩
      · rw [limited, Nat.le_zero.mp past] at ahead
        exact absurd rfl ahead
      · rw [early] at looked
        exact ⟨_, received, values, span?, looked, rfl, collects, rfl⟩
  | receiving span? => exact ⟨collector, received, values, span?, reached, rfl, collects, stands⟩
  | broken =>
      rw [stands] at fits
      exact fits.elim

/-- Each act of the fetch is one of the loop, after a look at the clock if that is due. -/
theorem exists_reaches_of_step {flight : Flight} (ahead : deadline? ≠ some 0)
    (reached : Reaches deadline? limit reads collector)
    (step : Flight.Step (deadline? ≠ none) (reads.map Prod.fst) limit collector.flight flight) :
    ∃ next, Reaches deadline? limit reads next ∧ next.flight = flight := by
  by_cases same : flight.met = collector.flight.met
  · exact ⟨_, reached.tail (.read step same), rfl⟩
  generalize stands : collector.flight = earlier at step same
  cases step with
  | report report => exact absurd rfl same
  | crash => exact absurd rfl same
  | receive waiting =>
      obtain ⟨next, received, values, span?, reached, flight, collects, receives⟩ :=
        exists_receiving ahead reached stands waiting
      refine ⟨_, reached.tail (.receive collects receives (by rw [flight])), ?_⟩
      simp only [meet, flight]
  | expire waiting allowed =>
      obtain ⟨next, received, values, span?, reached, flight, collects, receives⟩ :=
        exists_receiving ahead reached stands waiting
      obtain ⟨tied, _⟩ := tied_of_reaches reached
      have fits := tied.fits
      have missing := tied.missing collects
      rw [receives] at fits
      rw [← List.length_map Prod.fst] at missing
      cases span? with
      | none => exact absurd fits allowed
      | some span =>
          have expires := reached.tail (.expire collects receives)
          rw [abandon_of_lt collects missing] at expires
          refine ⟨_, expires, ?_⟩
          simp only [meet, flight]
  | disconnect waiting =>
      obtain ⟨next, received, values, span?, reached, flight, collects, receives⟩ :=
        exists_receiving ahead reached stands waiting
      refine ⟨_, reached.tail (.disconnect collects receives (by rw [flight]) (by rw [flight])), ?_⟩
      simp only [meet, flight]

/-- **The loop meets what its fetch can.** Unless its deadline is at 0, it interleaves with its
reads in all the ways in which the fetch does. -/
theorem exists_reaches_iff (ahead : deadline? ≠ some 0) {flight : Flight} :
    (∃ collector, Reaches deadline? limit reads collector ∧ collector.flight = flight) ↔
      Flight.Reaches (deadline? ≠ none) limit reads flight := by
  refine ⟨?_, ?_⟩
  · rintro ⟨collector, reached, rfl⟩
    exact (tied_of_reaches reached).2
  · intro flown
    induction flown with
    | refl => exact ⟨launch reads, .refl, rfl⟩
    | tail _ step ih =>
        obtain ⟨collector, reached, rfl⟩ := ih
        exact exists_reaches_of_step ahead reached step

/-! ## The loop ends -/

/-- A turn of the loop begins at most once for each signal it meets. -/
def potential (requests : List Request) (limit : Duration) (collector : Collector) : Nat :=
  2 * collector.flight.potential requests limit +
    match collector.stage with
    | .turning => 1
    | .receiving _ | .broken => 0

theorem Act.potential_lt (act : Act deadline? requests limit collector next) :
    next.potential requests limit < collector.potential requests limit := by
  cases act with
  | read step same =>
      have less := Flight.potential_lt_of_step step
      simp only [potential]
      omega
  | wait collects turning fits => simp [potential, turning]
  | meet collects step =>
      have less := Flight.potential_lt_of_step step
      simp only [potential, meet_stage]
      omega

/-- No interleaving of a loop with its reads goes on forever. -/
theorem not_endless (reached : Reaches deadline? limit reads collector) :
    ¬ ∃ run : Nat → Collector, run 0 = collector ∧
      ∀ time, Step deadline? (reads.map Prod.fst) limit (run time) (run (time + 1)) := by
  rintro ⟨run, rfl, steps⟩
  have reaches (time : Nat) : Reaches deadline? limit reads (run time) := by
    induction time with
    | zero => exact reached
    | succ time ih => exact ih.tail (steps time)
  have less (time : Nat) : (run (time + 1)).potential (reads.map Prod.fst) limit <
      (run time).potential (reads.map Prod.fst) limit :=
    (act_of_reaches (reaches time) (steps time)).potential_lt
  have ends := (measure (potential (reads.map Prod.fst) limit)).wf
  exact (wellFounded_iff_isEmpty_descending_chain.mp ends).false ⟨run, less⟩

end Collector

end ChainVariables
