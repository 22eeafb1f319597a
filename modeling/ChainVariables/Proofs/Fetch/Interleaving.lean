import Mathlib.Logic.Relation
import ChainVariables.Proofs.Fetch.Arrival

/-! # A fetch and its reads, step by step

The reads of a fetch and its collector act independently of each other. A read
that ends reports its answer, or crashes and reports nothing; a silent read never
ends. The collector receives the reports in the order in which they were made. It
may find its deadline past before any of them, and it learns that every read has
ended only when no report is left. `Flight.Step` is one such act, and an
interleaving is any sequence of them.

Along every interleaving each read is accounted for exactly once
(`ChainVariables.Flight.accounted_of_reaches`), which is where what a fetch
returns comes from. No interleaving goes on forever
(`ChainVariables.Flight.wellFounded_step`), and whatever the collector meets is
one of the possible schedules (`ChainVariables.Flight.possible_of_reaches`).
-/

namespace ChainVariables

/-- A fetch together with the reads it has started. -/
structure Flight where
  /-- The reads that have not ended, with what each of them comes to. -/
  outstanding : List (Request × Answer)
  /-- The reports not yet received, oldest first. -/
  reported : List Signal
  /-- What the collector has met. -/
  met : List Signal

namespace Flight

/-- All reads are started before anything is collected. -/
def launch (reads : List (Request × Answer)) : Flight := ⟨reads, [], []⟩

/-- What the fetch has come to. -/
def outcome (requests : List Request) (limit : Duration) (flight : Flight) :
    Outcome FetchError (SortedMap String Bytes) :=
  (fetch requests limit flight.met).1

/-- One act of a read or of the collector. Only a collector that still waits does anything, and
it has a deadline to miss only if the fetch is limited. -/
inductive Step (limited : Prop) (requests : List Request) (limit : Duration) :
    Flight → Flight → Prop where
  /-- A read ends with an answer, which joins the queue. -/
  | report {before after : List (Request × Answer)} {read : Request × Answer} {signal : Signal}
      {reported met : List Signal} : Reports read signal →
      Step limited requests limit ⟨before ++ read :: after, reported, met⟩
        ⟨before ++ after, reported ++ [signal], met⟩
  /-- A read ends without an answer. -/
  | crash {before after : List (Request × Answer)} {request : Request} {message : String}
      {reported met : List Signal} :
      Step limited requests limit ⟨before ++ (request, .crash message) :: after, reported, met⟩
        ⟨before ++ after, reported, met⟩
  /-- The oldest report is received. -/
  | receive {outstanding : List (Request × Answer)} {signal : Signal}
      {reported met : List Signal} : (fetch requests limit met).1 = .waiting →
      Step limited requests limit ⟨outstanding, signal :: reported, met⟩
        ⟨outstanding, reported, met ++ [signal]⟩
  /-- The deadline passes, whatever is under way. -/
  | expire {outstanding : List (Request × Answer)} {reported met : List Signal} :
      (fetch requests limit met).1 = .waiting → limited →
      Step limited requests limit ⟨outstanding, reported, met⟩
        ⟨outstanding, reported, met ++ [.expired]⟩
  /-- Every read has ended, and nothing they reported is left. -/
  | disconnect {met : List Signal} : (fetch requests limit met).1 = .waiting →
      Step limited requests limit ⟨[], [], met⟩ ⟨[], [], met ++ [.disconnected]⟩

variable {limited : Prop} {requests : List Request} {limit : Duration}
  {reads : List (Request × Answer)} {flight next : Flight}

/-- Some interleaving of the reads with their collector leads here. -/
def Reaches (limited : Prop) (limit : Duration) (reads : List (Request × Answer))
    (flight : Flight) : Prop :=
  Relation.ReflTransGen (Step limited (reads.map Prod.fst) limit) (launch reads) flight

/-! ## No interleaving goes on forever -/

/-- Whether a collector waits, as a number. -/
def patience : Outcome FetchError (SortedMap String Bytes) → Nat
  | .waiting => 1
  | _ => 0

/-- A read acts once, each report is received at most once, and a collector stops waiting once. -/
def potential (requests : List Request) (limit : Duration) (flight : Flight) : Nat :=
  2 * flight.outstanding.length + flight.reported.length + patience (flight.outcome requests limit)

theorem fetch_concat (requests : List Request) (limit : Duration) (met : List Signal)
    (signal : Signal) :
    (fetch requests limit (met ++ [signal])).1 =
      ((Progress.run requests.length limit (.start requests.length) met).1.step requests.length
        limit signal).outcome := by
  simp only [fetch, Progress.run_append, Progress.run]

/-- A passed deadline and an end of all reads are the last that a fetch meets. -/
theorem patience_concat {signal : Signal} (last : signal = .expired ∨ signal = .disconnected)
    (met : List Signal) : patience (fetch requests limit (met ++ [signal])).1 = 0 := by
  rw [fetch_concat]
  cases (Progress.run requests.length limit (.start requests.length) met).1 with
  | collecting received values =>
      rcases last with rfl | rfl
      · rfl
      · rfl
  | settled result =>
      cases result with
      | ok values => rfl
      | error error => rfl

theorem patience_waiting : patience .waiting = 1 := rfl

theorem patience_le_one (outcome : Outcome FetchError (SortedMap String Bytes)) :
    patience outcome ≤ 1 := by
  cases outcome with
  | waiting => exact Nat.le_refl 1
  | ok values => exact Nat.zero_le 1
  | error error => exact Nat.zero_le 1
  | crashed message => exact Nat.zero_le 1

theorem potential_lt_of_step (step : Step limited requests limit flight next) :
    next.potential requests limit < flight.potential requests limit := by
  cases step with
  | report reports =>
      simp only [potential, outcome, List.length_append, List.length_cons, List.length_nil]
      omega
  | crash =>
      simp only [potential, outcome, List.length_append, List.length_cons]
      omega
  | @receive outstanding signal reported met waiting =>
      have patient := patience_le_one (fetch requests limit (met ++ [signal])).1
      simp only [potential, outcome, List.length_cons, waiting, patience_waiting]
      omega
  | @expire outstanding reported met waiting allowed =>
      have settled : patience (fetch requests limit (met ++ [.expired])).1 = 0 :=
        patience_concat (.inl rfl) met
      simp only [potential, outcome, waiting, settled, patience_waiting]
      omega
  | @disconnect met waiting =>
      have settled : patience (fetch requests limit (met ++ [.disconnected])).1 = 0 :=
        patience_concat (.inr rfl) met
      simp only [potential, outcome, waiting, settled, patience_waiting]
      omega

/-- **Every interleaving ends.** -/
theorem wellFounded_step (limited : Prop) (requests : List Request) (limit : Duration) :
    WellFounded fun later earlier => Step limited requests limit earlier later :=
  Subrelation.wf potential_lt_of_step (measure (potential requests limit)).wf

/-! ## Every read is accounted for -/

/-- What is known of a fetch from what it has come to: the values that arrived, the read whose
error arrived if there is one, and what was met after the values. -/
inductive Verdict (limited : Prop) (limit : Duration) (reads : List (Request × Answer))
    (arrivals : List Arrival) : List (Request × Answer) → List Signal →
    Outcome FetchError (SortedMap String Bytes) → Prop where
  | waiting : arrivals.length < reads.length → Verdict limited limit reads arrivals [] [] .waiting
  | ok : arrivals.length = reads.length →
      Verdict limited limit reads arrivals [] [] (.ok (Progress.collect arrivals .empty))
  | unavailable (request : Request) (source : StoreError) :
      Verdict limited limit reads arrivals [(request, .fault source)] [.fault request source]
        (.error (.unavailable request.name request.address source))
  | timeout : limited → arrivals.length < reads.length →
      Verdict limited limit reads arrivals [] [.expired]
        (.error (.timeout arrivals.length reads.length limit))
  | disconnected {crashed : List (Request × Answer)} : arrivals.length < reads.length →
      (∀ read ∈ crashed, ∃ message, read.2 = .crash message) →
      (arrivals.map Arrival.read ++ crashed).Perm reads →
      Verdict limited limit reads arrivals [] [.disconnected]
        (.error (.disconnected arrivals.length reads.length))

/-- Where each of the reads is: its value has arrived, its error has (`failed`), its report is
under way (`queued`), it has crashed, or it has not ended. -/
structure Accounts (limited : Prop) (limit : Duration) (reads : List (Request × Answer))
    (flight : Flight) (arrivals : List Arrival) (failed queued crashed : List (Request × Answer))
    (last : List Signal) : Prop where
  met : flight.met = arrivals.map Arrival.signal ++ last
  reported : List.Forall₂ Reports queued flight.reported
  lost : ∀ read ∈ crashed, ∃ message, read.2 = .crash message
  balance : (arrivals.map Arrival.read ++
    (failed ++ (queued ++ (crashed ++ flight.outstanding)))).Perm reads
  verdict : Verdict limited limit reads arrivals failed last
    (flight.outcome (reads.map Prod.fst) limit)

/-- As long as a value is missing, what a fetch meets next decides what it comes to. -/
theorem outcome_of_missing {arrivals : List Arrival} {signal : Signal}
    (missing : arrivals.length < reads.length) :
    (fetch (reads.map Prod.fst) limit (arrivals.map Arrival.signal ++ [signal])).1 =
      ((Progress.collecting arrivals.length (Progress.collect arrivals .empty)).step
        reads.length limit signal).outcome := by
  have bounded : arrivals.length ≤ (reads.map Prod.fst).length := by
    rw [List.length_map]
    exact Nat.le_of_lt missing
  rw [fetch_arrivals_append limit _ bounded, List.length_map, Progress.after_of_lt _ missing]
  rfl

/-- As long as only values have arrived the fetch waits for the missing ones. -/
theorem Verdict.of_arrivals {arrivals : List Arrival} (fits : arrivals.length ≤ reads.length) :
    Verdict limited limit reads arrivals [] []
      (fetch (reads.map Prod.fst) limit (arrivals.map Arrival.signal)).1 := by
  have bounded : arrivals.length ≤ (reads.map Prod.fst).length := by rwa [List.length_map]
  have counted := fetch_arrivals_append limit [] bounded
  rw [List.append_nil, List.length_map] at counted
  rw [counted]
  by_cases missing : arrivals.length < reads.length
  · rw [Progress.after_of_lt _ missing]
    exact .waiting missing
  · have full : reads.length ≤ arrivals.length := Nat.le_of_not_lt missing
    rw [Progress.after_of_ge _ full]
    exact .ok (Nat.le_antisymm fits full)

theorem accounts_launch (limited : Prop) (limit : Duration) (reads : List (Request × Answer)) :
    Accounts limited limit reads (launch reads) [] [] [] [] [] where
  met := rfl
  reported := .nil
  lost := nofun
  balance := List.Perm.refl reads
  verdict := .of_arrivals (Nat.zero_le _)

theorem Verdict.of_waiting {arrivals : List Arrival} {failed : List (Request × Answer)}
    {last : List Signal} (verdict : Verdict limited limit reads arrivals failed last .waiting) :
    failed = [] ∧ last = [] ∧ arrivals.length < reads.length := by
  cases verdict with
  | waiting missing => exact ⟨rfl, rfl, missing⟩

namespace Accounts

variable {arrivals : List Arrival} {failed queued crashed : List (Request × Answer)}
  {last : List Signal} {outstanding before after : List (Request × Answer)}
  {reported met : List Signal}

/-- A read that reports is moved to the end of the queue. -/
theorem report {read : Request × Answer} {signal : Signal} (report : Reports read signal)
    (accounts : Accounts limited limit reads ⟨before ++ read :: after, reported, met⟩ arrivals
      failed queued crashed last) :
    Accounts limited limit reads ⟨before ++ after, reported ++ [signal], met⟩ arrivals failed
      (queued ++ [read]) crashed last where
  met := accounts.met
  reported := List.rel_append accounts.reported (.cons report .nil)
  lost := accounts.lost
  balance := by
    have moved : (queued ++ [read] ++ (crashed ++ (before ++ after))).Perm
        (queued ++ (crashed ++ (before ++ read :: after))) := by
      rw [List.append_assoc, List.singleton_append, ← List.append_assoc crashed,
        ← List.append_assoc crashed]
      exact List.perm_middle.symm.append_left queued
    exact ((moved.append_left failed).append_left _).trans accounts.balance
  verdict := accounts.verdict

/-- A read that crashes is counted among the crashed ones. -/
theorem crash {request : Request} {message : String}
    (accounts : Accounts limited limit reads
      ⟨before ++ (request, .crash message) :: after, reported, met⟩ arrivals failed queued crashed
      last) :
    Accounts limited limit reads ⟨before ++ after, reported, met⟩ arrivals failed queued
      (crashed ++ [(request, .crash message)]) last where
  met := accounts.met
  reported := accounts.reported
  lost := by
    intro read member
    rcases List.mem_append.mp member with inside | final
    · exact accounts.lost read inside
    · rw [List.mem_singleton.mp final]
      exact ⟨message, rfl⟩
  balance := by
    have moved : (crashed ++ [(request, Answer.crash message)] ++ (before ++ after)).Perm
        (crashed ++ (before ++ (request, .crash message) :: after)) := by
      rw [List.append_assoc, List.singleton_append]
      exact List.perm_middle.symm.append_left crashed
    exact (((moved.append_left queued).append_left failed).append_left _).trans accounts.balance
  verdict := accounts.verdict

/-- A collector that waits has met values only, and not yet all of them. -/
theorem of_waiting
    (accounts : Accounts limited limit reads flight arrivals failed queued crashed last)
    (waiting : flight.outcome (reads.map Prod.fst) limit = .waiting) :
    failed = [] ∧ last = [] ∧ flight.met = arrivals.map Arrival.signal ∧
      arrivals.length < reads.length := by
  have verdict := accounts.verdict
  have met := accounts.met
  rw [waiting] at verdict
  obtain ⟨rfl, rfl, missing⟩ := verdict.of_waiting
  rw [List.append_nil] at met
  exact ⟨rfl, rfl, met, missing⟩

theorem receive {signal : Signal}
    (waiting : (fetch (reads.map Prod.fst) limit met).1 = .waiting)
    (accounts : Accounts limited limit reads ⟨outstanding, signal :: reported, met⟩ arrivals failed
      queued crashed last) :
    ∃ arrivals failed queued last, Accounts limited limit reads
      ⟨outstanding, reported, met ++ [signal]⟩ arrivals failed queued crashed last := by
  obtain ⟨rfl, rfl, rfl, missing⟩ := accounts.of_waiting waiting
  obtain ⟨_, reports, lost, balance, _⟩ := accounts
  cases reports with
  | @cons read _ queued _ report reports =>
      -- a collector that waits has met no error, so this report decides
      cases report with
      | value request bytes =>
          have arrived : (arrivals ++ [(request, bytes)]).length ≤ reads.length := by
            rw [List.length_append]
            exact missing
          have signals : arrivals.map Arrival.signal ++ [.value request bytes] =
              (arrivals ++ [(request, bytes)]).map Arrival.signal := by
            rw [List.map_append]
            rfl
          have arrivedReads : (arrivals ++ [(request, bytes)]).map Arrival.read =
              arrivals.map Arrival.read ++ [(request, .value bytes)] := by
            rw [List.map_append]
            rfl
          refine ⟨arrivals ++ [(request, bytes)], [], queued, [], ?_, reports, lost, ?_, ?_⟩
          · rw [List.append_nil]
            exact signals
          · rw [arrivedReads, List.append_assoc]
            exact balance
          · rw [outcome, signals]
            exact .of_arrivals arrived
      | fault request source =>
          refine ⟨arrivals, [(request, .fault source)], queued, [.fault request source], rfl,
            reports, lost, balance, ?_⟩
          rw [outcome, outcome_of_missing missing]
          exact .unavailable request source

theorem expire (waiting : (fetch (reads.map Prod.fst) limit met).1 = .waiting) (allowed : limited)
    (accounts : Accounts limited limit reads ⟨outstanding, reported, met⟩ arrivals failed queued
      crashed last) :
    Accounts limited limit reads ⟨outstanding, reported, met ++ [.expired]⟩ arrivals [] queued
      crashed [.expired] := by
  obtain ⟨rfl, rfl, rfl, missing⟩ := accounts.of_waiting waiting
  refine ⟨rfl, accounts.reported, accounts.lost, accounts.balance, ?_⟩
  rw [outcome, outcome_of_missing missing]
  exact .timeout allowed missing

/-- A fetch is told that all reads have ended when only crashed ones are missing. -/
theorem disconnect (waiting : (fetch (reads.map Prod.fst) limit met).1 = .waiting)
    (accounts : Accounts limited limit reads ⟨[], [], met⟩ arrivals failed queued crashed last) :
    Accounts limited limit reads ⟨[], [], met ++ [.disconnected]⟩ arrivals [] [] crashed
      [.disconnected] := by
  obtain ⟨rfl, rfl, rfl, missing⟩ := accounts.of_waiting waiting
  obtain ⟨_, reports, lost, balance, _⟩ := accounts
  cases reports with
  | nil =>
      refine ⟨rfl, .nil, lost, balance, ?_⟩
      simp only [List.nil_append, List.append_nil] at balance
      rw [outcome, outcome_of_missing missing]
      exact .disconnected missing lost balance

end Accounts

/-- Each of the reads is somewhere. -/
def Accounted (limited : Prop) (limit : Duration) (reads : List (Request × Answer))
    (flight : Flight) : Prop :=
  ∃ arrivals failed queued crashed last,
    Accounts limited limit reads flight arrivals failed queued crashed last

theorem accounted_of_step (step : Step limited (reads.map Prod.fst) limit flight next)
    (accounted : Accounted limited limit reads flight) : Accounted limited limit reads next := by
  obtain ⟨arrivals, failed, queued, crashed, last, accounts⟩ := accounted
  cases step with
  | report report => exact ⟨_, _, _, _, _, accounts.report report⟩
  | crash => exact ⟨_, _, _, _, _, accounts.crash⟩
  | receive waiting =>
      obtain ⟨arrivals, failed, queued, last, accounts⟩ := accounts.receive waiting
      exact ⟨_, _, _, _, _, accounts⟩
  | expire waiting allowed => exact ⟨_, _, _, _, _, accounts.expire waiting allowed⟩
  | disconnect waiting => exact ⟨_, _, _, _, _, accounts.disconnect waiting⟩

/-- **Every read is accounted for**, whatever the interleaving. -/
theorem accounted_of_reaches (reached : Reaches limited limit reads flight) :
    Accounted limited limit reads flight := by
  induction reached with
  | refl => exact ⟨[], [], [], [], [], accounts_launch limited limit reads⟩
  | tail _ step ih => exact accounted_of_step step ih

/-! ## What the collector meets -/

/-- If all the others crash, the collector learns that no read is left. -/
theorem possible_of_crashed {crashed : List (Request × Answer)}
    (lost : ∀ read ∈ crashed, ∃ message, read.2 = .crash message) :
    Possible limited crashed [.disconnected] := by
  induction crashed with
  | nil => exact .disconnected
  | cons read crashed ih =>
      obtain ⟨request, answer⟩ := read
      obtain ⟨message, rfl⟩ := lost (request, answer) List.mem_cons_self
      have rest := ih fun other member => lost other (List.mem_cons_of_mem _ member)
      have crash : Possible limited ([] ++ (request, .crash message) :: crashed) [.disconnected] :=
        .crash rest
      exact crash

/-- Values may arrive before anything that is possible for the other reads. -/
theorem possible_of_arrivals {arrivals : List Arrival} {others : List (Request × Answer)}
    {later : List Signal} (possible : Possible limited others later)
    (permuted : (arrivals.map Arrival.read ++ others).Perm reads) :
    Possible limited reads (arrivals.map Arrival.signal ++ later) := by
  induction arrivals generalizing reads with
  | nil => exact possible.perm permuted
  | cons arrival arrivals ih =>
      obtain ⟨before, after, rfl, remaining⟩ := exists_split_of_perm [] permuted
      exact .value (ih remaining)

/-- **A fetch meets what its schedules allow.** -/
theorem possible_of_reaches (reached : Reaches limited limit reads flight) :
    Possible limited reads flight.met := by
  obtain ⟨arrivals, failed, queued, crashed, last, accounts⟩ := accounted_of_reaches reached
  rw [accounts.met]
  have verdict := accounts.verdict
  have balance := accounts.balance
  generalize flight.outcome (reads.map Prod.fst) limit = outcome at verdict
  cases verdict with
  | waiting missing => exact possible_of_arrivals (.pause _) balance
  | ok full => exact possible_of_arrivals (.pause _) balance
  | unavailable request source =>
      have fault : Possible limited ([] ++ (request, .fault source) :: (queued ++
          (crashed ++ flight.outstanding))) [.fault request source] := .fault (.pause _)
      exact possible_of_arrivals fault balance
  | timeout allowed missing => exact possible_of_arrivals (.expired _ allowed) balance
  | disconnected missing lost all => exact possible_of_arrivals (possible_of_crashed lost) all

/-! ## Where an interleaving ends -/

/-- Neither a read nor the collector can act. -/
def Stuck (limited : Prop) (requests : List Request) (limit : Duration) (flight : Flight) : Prop :=
  ∀ next, ¬ Step limited requests limit flight next

/-- In the end only silent reads have not ended. -/
theorem Stuck.silent (stuck : Stuck limited requests limit flight) :
    ∀ read ∈ flight.outstanding, read.2 = .silent := by
  intro read member
  obtain ⟨outstanding, reported, met⟩ := flight
  obtain ⟨before, after, rfl⟩ := List.append_of_mem member
  obtain ⟨request, answer⟩ := read
  cases answer with
  | value bytes => exact absurd (Step.report (.value request bytes)) (stuck _)
  | fault source => exact absurd (Step.report (.fault request source)) (stuck _)
  | crash message => exact absurd Step.crash (stuck _)
  | silent => rfl

/-- A fetch that waits in the end has no deadline and waits for a silent read. -/
theorem Stuck.of_waiting (stuck : Stuck limited requests limit flight)
    (waiting : flight.outcome requests limit = .waiting) :
    ¬ limited ∧ flight.reported = [] ∧ flight.outstanding ≠ [] := by
  obtain ⟨outstanding, reported, met⟩ := flight
  have unlimited : ¬ limited := fun allowed => stuck _ (.expire waiting allowed)
  have received : reported = [] := by
    cases reported with
    | nil => rfl
    | cons signal reported => exact absurd (Step.receive waiting) (stuck _)
  refine ⟨unlimited, received, ?_⟩
  intro ended
  simp only at ended
  subst received ended
  exact stuck _ (.disconnect waiting)

/-- Once a fetch has returned and all its reads have ended, nothing is left to happen. -/
theorem stuck_of_returned (ended : flight.outstanding = [])
    (returned : flight.outcome requests limit ≠ .waiting) :
    flight.Stuck limited requests limit := by
  intro next step
  cases step with
  | report report => simp at ended
  | crash => simp at ended
  | receive waiting => exact returned waiting
  | expire waiting allowed => exact returned waiting
  | disconnect waiting => exact returned waiting

end Flight

/-- A world in which every fetch interleaves with its reads is a steady one. -/
theorem World.steady_of_reaches {limited : Prop} {limit : Duration} {world : World}
    (interleaved : ∀ requests, ∃ flight,
      Flight.Reaches limited limit (readsOf world.read requests) flight ∧
        flight.met = world.signals requests) : world.Steady := by
  intro requests
  obtain ⟨flight, reached, met⟩ := interleaved requests
  rw [← met]
  exact (Flight.possible_of_reaches reached).mono fun _ => trivial

end ChainVariables
