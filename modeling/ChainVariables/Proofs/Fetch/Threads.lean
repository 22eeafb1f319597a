import ChainVariables.Proofs.Fetch.Interleaving

/-! # The threads of a fetch

A fetch starts one thread for each request. A thread asks the store once, for the
value of its request, and then reports the answer or crashes. A `Move` is one act
of a thread or of the collector, so a schedule is a list of moves. The store may
change from move to move.

Whatever the schedule and the store, the requests that the store was asked for
and those that threads have yet to ask for are together the requests of the fetch
(`ChainVariables.Crew.asked_owed_perm`). No answer but those to these requests
matters (`ChainVariables.Crew.run_eq_of_alike`). If the store does not change, the
schedules are the interleavings of the fetch with its reads
(`ChainVariables.Crew.exists_schedule_iff_reaches`).
-/

namespace ChainVariables

/-- A thread of a fetch that has not ended. -/
structure Thread where
  request : Request
  /-- Whether it has asked the store. -/
  asked : Bool

/-- The read of a thread, with what it comes to. -/
def Thread.reading (read : Address → Answer) (thread : Thread) : Request × Answer :=
  (thread.request, read thread.request.address)

@[simp] theorem Thread.reading_mk (read : Address → Answer) (request : Request) (asked : Bool) :
    Thread.reading read ⟨request, asked⟩ = (request, read request.address) := rfl

/-- One act of a thread or of the collector. Threads are given by their places among those that
have not ended. -/
inductive Move where
  | ask (place : Nat)
  | finish (place : Nat)
  | receive
  | expire
  | disconnect

/-- A fetch with its threads. -/
structure Crew where
  /-- The threads that have not ended. -/
  threads : List Thread
  /-- The requests that the store was asked for, in order. -/
  asked : List Request
  /-- The reports not yet received, oldest first. -/
  reported : List Signal
  /-- What the collector has met. -/
  met : List Signal

namespace Crew

variable {read read' : Address → Answer} {store store' : Nat → Address → Answer}
  {requests : List Request} {limit : Duration} {crew next : Crew}

/-- All threads are started before anything is collected. -/
def launch (requests : List Request) : Crew := ⟨requests.map (⟨·, false⟩), [], [], []⟩

/-- The requests that threads have yet to ask for. -/
def owed (crew : Crew) : List Request := (crew.threads.filter (!·.asked)).map (·.request)

/-- The fetch with its reads, whether they were begun or not. -/
def flight (read : Address → Answer) (crew : Crew) : Flight where
  outstanding := crew.threads.map (·.reading read)
  reported := crew.reported
  met := crew.met

def ask (crew : Crew) (place : Nat) : Crew :=
  match crew.threads[place]? with
  | some ⟨request, false⟩ =>
      { crew with
        threads := crew.threads.set place ⟨request, true⟩
        asked := crew.asked ++ [request] }
  | _ => crew

/-- A thread that has asked ends by what its read comes to. -/
def finish (read : Address → Answer) (crew : Crew) (place : Nat) : Crew :=
  match crew.threads[place]? with
  | some ⟨request, true⟩ =>
      let rest := { crew with threads := crew.threads.eraseIdx place }
      match read request.address with
      | .value bytes => { rest with reported := crew.reported ++ [.value request bytes] }
      | .fault error => { rest with reported := crew.reported ++ [.fault request error] }
      | .crash _ => rest
      | .silent => crew
  | _ => crew

/-- A collector that still waits meets a signal. -/
def meet (requests : List Request) (limit : Duration) (crew : Crew) (signal : Signal)
    (left : List Signal) : Crew :=
  match (fetch requests limit crew.met).1 with
  | .waiting => { crew with reported := left, met := crew.met ++ [signal] }
  | _ => crew

/-- Makes a move. A move that is not possible changes nothing. -/
def move (read : Address → Answer) (requests : List Request) (limit : Duration) (crew : Crew) :
    Move → Crew
  | .ask place => crew.ask place
  | .finish place => crew.finish read place
  | .receive =>
      match crew.reported with
      | [] => crew
      | signal :: left => crew.meet requests limit signal left
  | .expire => crew.meet requests limit .expired crew.reported
  | .disconnect =>
      match crew.threads, crew.reported with
      | [], [] => crew.meet requests limit .disconnected []
      | _, _ => crew

/-- Makes moves in order. The store is given by what it answers after each number of moves. -/
def run (store : Nat → Address → Answer) (requests : List Request) (limit : Duration) (crew : Crew) :
    List Move → Crew
  | [] => crew
  | move :: rest =>
      run (fun time => store (time + 1)) requests limit (crew.move (store 0) requests limit move) rest

theorem run_append (store : Nat → Address → Answer) (crew : Crew) (first second : List Move) :
    crew.run store requests limit (first ++ second) =
      (crew.run store requests limit first).run (fun time => store (time + first.length)) requests
        limit second := by
  induction first generalizing crew store with
  | nil => rfl
  | cons move rest ih => exact ih _ _

/-! ## What a move does -/

/-- What a move does if it is possible. -/
inductive Act (read : Address → Answer) (requests : List Request) (limit : Duration) :
    Crew → Crew → Prop where
  /-- A thread asks the store. -/
  | ask {before after : List Thread} {request : Request} {asked : List Request}
      {reported met : List Signal} :
      Act read requests limit ⟨before ++ ⟨request, false⟩ :: after, asked, reported, met⟩
        ⟨before ++ ⟨request, true⟩ :: after, asked ++ [request], reported, met⟩
  /-- A thread ends with a report. -/
  | report {before after : List Thread} {request : Request} {signal : Signal}
      {asked : List Request} {reported met : List Signal} :
      Reports (request, read request.address) signal →
        Act read requests limit ⟨before ++ ⟨request, true⟩ :: after, asked, reported, met⟩
          ⟨before ++ after, asked, reported ++ [signal], met⟩
  /-- A thread ends without a report. -/
  | crash {before after : List Thread} {request : Request} {message : String}
      {asked : List Request} {reported met : List Signal} :
      read request.address = .crash message →
        Act read requests limit ⟨before ++ ⟨request, true⟩ :: after, asked, reported, met⟩
          ⟨before ++ after, asked, reported, met⟩
  | receive {threads : List Thread} {signal : Signal} {asked : List Request}
      {reported met : List Signal} : (fetch requests limit met).1 = .waiting →
        Act read requests limit ⟨threads, asked, signal :: reported, met⟩
          ⟨threads, asked, reported, met ++ [signal]⟩
  | expire {threads : List Thread} {asked : List Request} {reported met : List Signal} :
      (fetch requests limit met).1 = .waiting →
        Act read requests limit ⟨threads, asked, reported, met⟩
          ⟨threads, asked, reported, met ++ [.expired]⟩
  | disconnect {asked : List Request} {met : List Signal} :
      (fetch requests limit met).1 = .waiting →
        Act read requests limit ⟨[], asked, [], met⟩ ⟨[], asked, [], met ++ [.disconnected]⟩

theorem ask_eq (before after : List Thread) (request : Request) (asked : List Request)
    (reported met : List Signal) :
    (Crew.mk (before ++ ⟨request, false⟩ :: after) asked reported met).ask before.length =
      ⟨before ++ ⟨request, true⟩ :: after, asked ++ [request], reported, met⟩ := by
  simp [ask]

theorem finish_eq (read : Address → Answer) (before after : List Thread) (request : Request)
    (asked : List Request) (reported met : List Signal) :
    (Crew.mk (before ++ ⟨request, true⟩ :: after) asked reported met).finish read before.length =
      match read request.address with
      | .value bytes => ⟨before ++ after, asked, reported ++ [.value request bytes], met⟩
      | .fault error => ⟨before ++ after, asked, reported ++ [.fault request error], met⟩
      | .crash _ => ⟨before ++ after, asked, reported, met⟩
      | .silent => ⟨before ++ ⟨request, true⟩ :: after, asked, reported, met⟩ := by
  simp [finish, List.eraseIdx_append_of_length_le (Nat.le_refl before.length)]

theorem act_of_ask (crew : Crew) (place : Nat) :
    crew.ask place = crew ∨ Act read requests limit crew (crew.ask place) := by
  obtain ⟨threads, asked, reported, met⟩ := crew
  cases found : threads[place]? with
  | none => exact .inl (by simp only [ask, found])
  | some thread =>
      obtain ⟨request, _ | _⟩ := thread
      · obtain ⟨before, after, rfl, rfl⟩ := split_of_getElem? found
        rw [ask_eq]
        exact .inr .ask
      · exact .inl (by simp only [ask, found])

theorem act_of_finish (read : Address → Answer) (crew : Crew) (place : Nat) :
    crew.finish read place = crew ∨ Act read requests limit crew (crew.finish read place) := by
  obtain ⟨threads, asked, reported, met⟩ := crew
  cases found : threads[place]? with
  | none => exact .inl (by simp only [finish, found])
  | some thread =>
      obtain ⟨request, _ | _⟩ := thread
      · exact .inl (by simp only [finish, found])
      · obtain ⟨before, after, rfl, rfl⟩ := split_of_getElem? found
        rw [finish_eq]
        cases answer : read request.address with
        | value bytes => exact .inr (.report (answer ▸ .value request bytes))
        | fault error => exact .inr (.report (answer ▸ .fault request error))
        | crash message => exact .inr (.crash answer)
        | silent => exact .inl rfl

theorem act_of_meet {signal : Signal} {left : List Signal}
    (act : (fetch requests limit crew.met).1 = .waiting →
      Act read requests limit crew { crew with reported := left, met := crew.met ++ [signal] }) :
    crew.meet requests limit signal left = crew ∨
      Act read requests limit crew (crew.meet requests limit signal left) := by
  unfold meet
  split
  next waiting => exact .inr (act waiting)
  next => exact .inl rfl

/-- A move changes nothing, or does what it does if it is possible. -/
theorem act_of_move (read : Address → Answer) (requests : List Request) (limit : Duration)
    (crew : Crew) (move : Move) : crew.move read requests limit move = crew ∨
      Act read requests limit crew (crew.move read requests limit move) := by
  cases move with
  | ask place => exact act_of_ask crew place
  | finish place => exact act_of_finish read crew place
  | expire => exact act_of_meet .expire
  | receive =>
      obtain ⟨threads, asked, _ | ⟨signal, left⟩, met⟩ := crew
      · exact .inl rfl
      · exact act_of_meet .receive
  | disconnect =>
      obtain ⟨_ | ⟨thread, threads⟩, asked, _ | ⟨signal, left⟩, met⟩ := crew
      · exact act_of_meet .disconnect
      · exact .inl rfl
      · exact .inl rfl
      · exact .inl rfl

/-- What is so at first and stays so with every act is so after all moves. -/
theorem run_induction (holds : Crew → Prop) (schedule : List Move)
    (preserved : ∀ time crew next, Act (store time) requests limit crew next → holds crew →
      holds next) (start : holds crew) : holds (crew.run store requests limit schedule) := by
  induction schedule generalizing crew store with
  | nil => exact start
  | cons move rest ih =>
      apply ih (fun time => preserved (time + 1))
      rcases act_of_move (store 0) requests limit crew move with same | act
      · rwa [same]
      · exact preserved 0 _ _ act start

/-! ## What the store is asked -/

/-- An act moves at most one request, from those owed to those asked. -/
theorem Act.balance (act : Act read requests limit crew next) :
    (next.asked ++ next.owed).Perm (crew.asked ++ crew.owed) := by
  cases act with
  | @ask before after request asked =>
      simp only [owed, List.filter_append, List.filter_cons, Bool.not_false, Bool.not_true,
        ↓reduceIte, Bool.false_eq_true, List.map_append, List.map_cons, List.append_assoc,
        List.singleton_append]
      exact List.perm_middle.symm.append_left asked
  | report => simp [owed]
  | crash => simp [owed]
  | receive => exact .refl _
  | expire => exact .refl _
  | disconnect => exact .refl _

theorem owed_launch (requests : List Request) : (launch requests).owed = requests := by
  simp [owed, launch, List.filter_map, Function.comp_def]

/-- **The store is asked once for each request.** What it was asked for and what threads have yet
to ask for are together the requests of the fetch, whatever the schedule and the store. -/
theorem asked_owed_perm (store : Nat → Address → Answer) (requests : List Request)
    (limit : Duration) (schedule : List Move) :
    (((launch requests).run store requests limit schedule).asked ++
      ((launch requests).run store requests limit schedule).owed).Perm requests := by
  refine run_induction (fun crew => (crew.asked ++ crew.owed).Perm requests) schedule ?_ ?_
  · exact fun time crew next act balance => act.balance.trans balance
  · rw [owed_launch]
    exact .refl _

/-- Nobody reports that a thread could not be started. -/
theorem Act.started (act : Act read requests limit crew next)
    (begun : ∀ request error, .unstarted request error ∉ crew.reported ++ crew.met) :
    ∀ request error, .unstarted request error ∉ next.reported ++ next.met := by
  intro request error
  have absent := begun request error
  cases act with
  | ask => exact absent
  | @report before after asking signal asked reported met reports =>
      have other : .unstarted request error ≠ signal := by
        rintro rfl
        generalize read asking.address = answer at reports
        cases reports
      simpa [other] using absent
  | crash => exact absent
  | @receive threads signal asked reported met =>
      have moved : (reported ++ (met ++ [signal])).Perm (signal :: reported ++ met) := by
        rw [← List.append_assoc]
        exact List.perm_append_singleton ..
      exact fun member => absent (moved.subset member)
  | expire => simpa using absent
  | disconnect => simpa using absent

theorem started_run (store : Nat → Address → Answer) (requests : List Request) (limit : Duration)
    (schedule : List Move) :
    started requests ((launch requests).run store requests limit schedule).met = requests := by
  have absent : ∀ request error, .unstarted request error ∉
      ((launch requests).run store requests limit schedule).reported ++
        ((launch requests).run store requests limit schedule).met :=
    run_induction
      (fun crew => ∀ request error, .unstarted request error ∉ crew.reported ++ crew.met)
      schedule (fun _ _ _ act => act.started) (fun _ _ => List.not_mem_nil)
  cases met : ((launch requests).run store requests limit schedule).met with
  | nil => rfl
  | cons signal later =>
      cases signal with
      | unstarted request error =>
          exact absurd (List.mem_append_right _ (met ▸ List.mem_cons_self)) (absent request error)
      | _ => rfl

/-- A thread that has not asked can ask at any time. Nobody notices before it ends. -/
theorem exists_ask (owing : crew.owed ≠ []) : ∃ place,
    (crew.ask place).owed.length < crew.owed.length ∧
      ∀ read, (crew.ask place).flight read = crew.flight read := by
  obtain ⟨threads, asked, reported, met⟩ := crew
  obtain ⟨_, member⟩ := List.exists_mem_of_ne_nil _ owing
  obtain ⟨⟨request, _ | _⟩, listed, rfl⟩ := List.mem_map.mp member
  · obtain ⟨before, after, rfl⟩ := List.append_of_mem (List.mem_filter.mp listed).1
    refine ⟨before.length, ?_, ?_⟩
    · rw [ask_eq]
      simp [owed]
    · intro read
      rw [ask_eq]
      simp [flight]
  · cases (List.mem_filter.mp listed).2

/-- The threads that have not asked can all still do so, even after the fetch has returned. -/
theorem exists_asks (store : Nat → Address → Answer) (crew : Crew) : ∃ schedule,
    (crew.run store requests limit schedule).owed = [] ∧
      ∀ read, (crew.run store requests limit schedule).flight read = crew.flight read := by
  by_cases owing : crew.owed = []
  · exact ⟨[], owing, fun _ => rfl⟩
  · obtain ⟨place, fewer, same⟩ := exists_ask owing
    obtain ⟨rest, none, same'⟩ := exists_asks (fun time => store (time + 1)) (crew.ask place)
    exact ⟨.ask place :: rest, none, fun read => (same' read).trans (same read)⟩
  termination_by crew.owed.length

/-! ## What answers matter -/

/-- The requests of the threads that have not ended. -/
def running (crew : Crew) : List Request := crew.threads.map (·.request)

theorem Act.running_sublist (act : Act read requests limit crew next) :
    next.running.Sublist crew.running := by
  cases act with
  | ask => simp [running]
  | report => simp [running]
  | crash => simp [running]
  | receive => exact .refl _
  | expire => exact .refl _
  | disconnect => exact .refl _

/-- A move looks at the answers to threads that have not ended. -/
theorem move_congr
    (same : ∀ request ∈ crew.running, read request.address = read' request.address) (move : Move) :
    crew.move read requests limit move = crew.move read' requests limit move := by
  cases move with
  | finish place =>
      simp only [Crew.move, finish]
      split
      next request found =>
        have running : request ∈ crew.running :=
          List.mem_map_of_mem (List.mem_of_getElem? found)
        rw [same request running]
      next => rfl
  | _ => rfl

/-- **Only the answers to the requests matter.** -/
theorem run_eq_of_alike
    (same : ∀ time, ∀ request ∈ crew.running,
      store time request.address = store' time request.address)
    (schedule : List Move) :
    crew.run store requests limit schedule = crew.run store' requests limit schedule := by
  induction schedule generalizing crew store store' with
  | nil => rfl
  | cons move rest ih =>
      have alike : crew.move (store 0) requests limit move =
          crew.move (store' 0) requests limit move := move_congr (same 0) move
      rw [run, run, alike]
      refine ih fun time request member => same (time + 1) request ?_
      rcases act_of_move (store' 0) requests limit crew move with idle | act
      · rwa [idle] at member
      · exact act.running_sublist.subset member

/-! ## Schedules and interleavings -/

/-- What an act is for the reads and the collector. -/
theorem Act.flight (act : Act read requests limit crew next) :
    next.flight read = crew.flight read ∨
      Flight.Step True requests limit (crew.flight read) (next.flight read) := by
  cases act with
  | ask => exact .inl (by simp [Crew.flight])
  | report reports =>
      simp only [Crew.flight, List.map_append, List.map_cons]
      exact .inr (.report reports)
  | crash crash =>
      simp only [Crew.flight, List.map_append, List.map_cons, Thread.reading_mk, crash]
      exact .inr .crash
  | receive waiting => exact .inr (.receive waiting)
  | expire waiting => exact .inr (.expire waiting trivial)
  | disconnect waiting => exact .inr (.disconnect waiting)

theorem flight_launch (read : Address → Answer) (requests : List Request) :
    (launch requests).flight read = .launch (readsOf read requests) := by
  simp [flight, launch, Flight.launch, readsOf, Function.comp_def]

/-- A schedule leads through an interleaving if the store does not change. -/
theorem reaches_run (read : Address → Answer) (requests : List Request) (limit : Duration)
    (schedule : List Move) : Flight.Reaches True limit (readsOf read requests)
      (((launch requests).run (fun _ => read) requests limit schedule).flight read) := by
  refine run_induction (fun crew =>
    Flight.Reaches True limit (readsOf read requests) (crew.flight read)) schedule ?_ ?_
  · intro time crew next act reached
    rcases act.flight with same | step
    · rwa [same]
    · rw [← map_fst_readsOf read requests] at step
      exact reached.tail step
  · rw [flight_launch]
    exact .refl

/-- When all threads have asked, each outstanding read is that of a thread that can end. -/
theorem exists_thread {before after : List (Request × Answer)} {pair : Request × Answer}
    (ready : crew.owed = []) (split : (crew.flight read).outstanding = before ++ pair :: after) :
    ∃ first request last, crew.threads = first ++ ⟨request, true⟩ :: last ∧
      pair = (request, read request.address) ∧ before = first.map (·.reading read) ∧
        after = last.map (·.reading read) := by
  obtain ⟨first, others, threads, rfl, rest⟩ := List.map_eq_append_iff.mp split
  obtain ⟨⟨request, begun⟩, last, rfl, rfl, rfl⟩ := List.map_eq_cons_iff.mp rest
  refine ⟨first, request, last, ?_, rfl, rfl, rfl⟩
  cases begun with
  | true => exact threads
  | false =>
      rw [owed, threads] at ready
      simp at ready

theorem finish_of_reports {before after : List Thread} {request : Request} {signal : Signal}
    {asked : List Request} {reported met : List Signal}
    (reports : Reports (request, read request.address) signal) :
    (Crew.mk (before ++ ⟨request, true⟩ :: after) asked reported met).finish read before.length =
      ⟨before ++ after, asked, reported ++ [signal], met⟩ := by
  rw [finish_eq]
  generalize read request.address = answer at reports
  cases reports <;> rfl

/-- When all threads have asked, each step of an interleaving is a move. -/
theorem exists_move {flight : Flight} (ready : crew.owed = [])
    (step : Flight.Step True requests limit (crew.flight read) flight) : ∃ move,
      (crew.move read requests limit move).owed = [] ∧
        (crew.move read requests limit move).flight read = flight := by
  obtain ⟨threads, asked, reported, met⟩ := crew
  generalize equal : (Crew.mk threads asked reported met).flight read = earlier at step
  obtain ⟨outstanding, reported', met'⟩ := earlier
  obtain rfl : reported = reported' := congrArg Flight.reported equal
  obtain rfl : met = met' := congrArg Flight.met equal
  cases step with
  | report reports =>
      obtain ⟨first, request, last, rfl, rfl, rfl, rfl⟩ :=
        exists_thread ready (congrArg Flight.outstanding equal)
      refine ⟨.finish first.length, ?_⟩
      rw [Crew.move, finish_of_reports reports]
      exact ⟨by simpa [owed] using ready, by simp [Crew.flight]⟩
  | crash =>
      obtain ⟨first, request, last, rfl, crash, rfl, rfl⟩ :=
        exists_thread ready (congrArg Flight.outstanding equal)
      obtain ⟨rfl, crash⟩ := Prod.mk.inj crash
      refine ⟨.finish first.length, ?_⟩
      rw [Crew.move, finish_eq, ← crash]
      exact ⟨by simpa [owed] using ready, by simp [Crew.flight]⟩
  | receive waiting =>
      obtain rfl : threads.map (·.reading read) = outstanding := congrArg Flight.outstanding equal
      refine ⟨.receive, ?_⟩
      simp only [Crew.move, meet, waiting]
      exact ⟨ready, rfl⟩
  | expire waiting =>
      obtain rfl : threads.map (·.reading read) = outstanding := congrArg Flight.outstanding equal
      refine ⟨.expire, ?_⟩
      simp only [Crew.move, meet, waiting]
      exact ⟨ready, rfl⟩
  | disconnect waiting =>
      obtain rfl : threads = [] := List.map_eq_nil_iff.mp (congrArg Flight.outstanding equal)
      refine ⟨.disconnect, ?_⟩
      simp only [Crew.move, meet, waiting]
      exact ⟨ready, rfl⟩

/-- **The schedules are the interleavings** of a fetch with its reads if the store does not
change. -/
theorem exists_schedule_iff_reaches (read : Address → Answer) (requests : List Request)
    (limit : Duration) (flight : Flight) :
    (∃ schedule, ((launch requests).run (fun _ => read) requests limit schedule).flight read =
      flight) ↔ Flight.Reaches True limit (readsOf read requests) flight := by
  refine ⟨?_, ?_⟩
  · rintro ⟨schedule, rfl⟩
    exact reaches_run read requests limit schedule
  · intro reached
    -- all threads ask at once, and then each step is a move
    suffices ready : ∃ schedule,
        ((launch requests).run (fun _ => read) requests limit schedule).owed = [] ∧
          ((launch requests).run (fun _ => read) requests limit schedule).flight read = flight by
      obtain ⟨schedule, _, same⟩ := ready
      exact ⟨schedule, same⟩
    induction reached with
    | refl =>
        obtain ⟨schedule, ready, same⟩ := exists_asks (fun _ => read) (launch requests)
        exact ⟨schedule, ready, (same read).trans (flight_launch read requests)⟩
    | tail _ step ih =>
        obtain ⟨schedule, ready, rfl⟩ := ih
        rw [map_fst_readsOf] at step
        obtain ⟨move, ready', same⟩ := exists_move ready step
        refine ⟨schedule ++ [move], ?_⟩
        rw [run_append]
        exact ⟨ready', same⟩

end Crew

end ChainVariables
