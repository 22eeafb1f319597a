import ChainVariables.Proofs.Cache.Events
import ChainVariables.Proofs.Cache.Fingerprint
import ChainVariables.Proofs.Fetch.Threads

/-! # What a cache reads

A refresh reads the directory once. If it gets one, the threads of its fetch read
each variable once, where the directory resolves it, and nothing else; no other
call reads anything. So what a refresh comes to is decided by what the store
holds at these addresses, and by the schedule of the threads
(`ChainVariables.Cache.footprint_of_update`).
-/

namespace ChainVariables

/-- The world of a call whose fetch follows a schedule. The store is given by what it answers after
each number of moves; the directory is read before the first one. -/
def World.scheduled (store : Nat → Address → Answer) (limit : Duration) (schedule : List Move)
    (now : Timestamp) : World where
  read := store 0
  signals := fun requests => ((Crew.launch requests).run store requests limit schedule).met
  now := now

/-- If the store does not change, what a schedule leads to can be met. -/
theorem World.steady_scheduled (read : Address → Answer) (limit : Duration) (schedule : List Move)
    (now : Timestamp) : (World.scheduled (fun _ => read) limit schedule now).Steady :=
  steady_of_reaches fun requests =>
    ⟨_, Crew.reaches_run read requests limit schedule, rfl⟩

variable {ν : Type}

namespace Cache

variable {config : Config} {world other : World} {height : Height}

/-! ## The reads of a call -/

theorem reads_of_update (cache : Cache ν) (world : World) (height : Height) :
    (cache.update world height).2.2.reads = (fetchVariables cache.config world height).2.1 := by
  cases ended : prepared cache.config world height with
  | ok ready => rw [update_of_prepared ended]; rfl
  | error error => rw [update_of_error ended]; rfl
  | crashed message => rw [update_of_crashed ended]
  | waiting => rw [update_of_waiting ended]

theorem reads_of_directory {directory : Directory} (holds : world.HoldsDirectory config directory) :
    (fetchVariables config world height).2.1 = config.directoryAddress ::
      (started (directory.requests height) (world.signals (directory.requests height))).map
        (·.address) := by
  obtain ⟨bytes, found, decoded⟩ := holds
  simp only [fetchVariables, found, decoded, List.singleton_append]

theorem reads_of_no_directory (none : ∀ directory, ¬ world.HoldsDirectory config directory) :
    (fetchVariables config world height).2.1 = [config.directoryAddress] := by
  cases found : world.read config.directoryAddress with
  | value bytes =>
      cases decoded : Directory.ofBytes bytes with
      | ok directory => exact absurd ⟨bytes, found, decoded⟩ (none directory)
      | error error => simp only [fetchVariables, found, decoded]
  | fault error => simp only [fetchVariables, found]
  | crash message => simp only [fetchVariables, found]
  | silent => simp only [fetchVariables, found]

/-- Only a refresh reads. -/
theorem reads_of_effects (node : Node ν) {call : Call}
    (other : ∀ signals now height, call ≠ .update signals now height) :
    (node.effects call).reads = [] := by
  cases call with
  | update signals now height => exact absurd rfl (other signals now height)
  | override now name format value =>
      simp only [Node.effects, override]
      cases format.encode value <;> rfl
  | _ => rfl

/-! ## What a refresh depends on -/

/-- A fetch of variables depends on the read of the directory, and on what is met when the
requests of that directory are fetched. -/
theorem fetchVariables_congr
    (read : other.read config.directoryAddress = world.read config.directoryAddress)
    (signals : ∀ directory, world.HoldsDirectory config directory →
      other.signals (directory.requests height) = world.signals (directory.requests height)) :
    fetchVariables config other height = fetchVariables config world height := by
  cases found : world.read config.directoryAddress with
  | value bytes =>
      rw [found] at read
      cases decoded : Directory.ofBytes bytes with
      | ok directory =>
          have same := signals directory ⟨bytes, found, decoded⟩
          simp only [fetchVariables, found, read, decoded, same]
      | error error => simp only [fetchVariables, found, read, decoded]
  | fault error => simp only [fetchVariables, found, read]
  | crash message => simp only [fetchVariables, found, read]
  | silent => simp only [fetchVariables, found, read]

theorem update_congr (cache : Cache ν) (now : other.now = world.now)
    (read : other.read cache.config.directoryAddress = world.read cache.config.directoryAddress)
    (signals : ∀ directory, world.HoldsDirectory cache.config directory →
      other.signals (directory.requests height) = world.signals (directory.requests height)) :
    cache.update other height = cache.update world height := by
  simp only [update, fetchVariables_congr read signals, now]

/-- A schedule leads to the same in two stores that answer alike to the requests. -/
theorem met_congr {store store' : Nat → Address → Answer} {requests : List Request}
    (same : ∀ request ∈ requests, ∀ time, store' time request.address = store time request.address)
    (limit : Duration) (schedule : List Move) :
    ((Crew.launch requests).run store' requests limit schedule).met =
      ((Crew.launch requests).run store requests limit schedule).met := by
  have running : (Crew.launch requests).running = requests := by
    simp [Crew.running, Crew.launch, Function.comp_def]
  rw [Crew.run_eq_of_alike (fun time request member => same request (running ▸ member) time)]

/-- **What a cache reads.** Whatever the state of the cache, the store, the height and the schedule
of the threads, a refresh reads the directory once, and if and only if it gets one, each variable
of the directory once, where the directory resolves it. At every moment the requests that the
threads have asked the store for, and those that they have yet to ask for, are together these
requests. The threads can ask for the rest whenever they run, whether or not the fetch still waits
for them, and that changes nothing for the fetch. No other call reads anything. Therefore a refresh
by the same schedule comes to the same, and does the same, over any other store that answers alike
at these addresses. -/
theorem footprint_of_update (cache : Cache ν) (store : Nat → Address → Answer)
    (schedule : List Move) (now : Timestamp) (height : Height) :
    let limit := cache.config.timeout
    let world := World.scheduled store limit schedule now
    (∀ directory, world.HoldsDirectory cache.config directory →
      let requests := directory.requests height
      let crew := (Crew.launch requests).run store requests limit schedule
      (cache.update world height).2.2.reads =
        cache.config.directoryAddress :: requests.map (·.address) ∧
      (requests.map (·.name)).Nodup ∧
      (∀ name address,
        ⟨name, address⟩ ∈ requests ↔ directory.resolve name height = .ok address) ∧
      (crew.asked ++ crew.owed).Perm requests ∧
      ∃ more,
        let later := (Crew.launch requests).run store requests limit (schedule ++ more)
        later.asked.Perm requests ∧ later.met = crew.met) ∧
    ((∀ directory, ¬ world.HoldsDirectory cache.config directory) →
      (cache.update world height).2.2.reads = [cache.config.directoryAddress]) ∧
    (∀ (read : Address → Answer) (call : Call),
      (∀ signals now height, call ≠ .update signals now height) →
        ((Node.mk read cache).effects call).reads = []) ∧
    ∀ store' : Nat → Address → Answer,
      store' 0 cache.config.directoryAddress = store 0 cache.config.directoryAddress →
      (∀ directory name address, world.HoldsDirectory cache.config directory →
        directory.resolve name height = .ok address →
          ∀ time, store' time address = store time address) →
      cache.update (World.scheduled store' limit schedule now) height =
        cache.update world height := by
  intro limit world
  refine ⟨?_, ?_, ?_, ?_⟩
  · intro directory holds requests crew
    have balance (schedule : List Move) := Crew.asked_owed_perm store requests limit schedule
    have begun : started requests (world.signals requests) = requests :=
      Crew.started_run store requests limit schedule
    refine ⟨?_, directory.requests_nodup height, fun _ _ => Directory.mem_requests,
      balance schedule, ?_⟩
    · rw [reads_of_update, reads_of_directory holds, begun]
    · obtain ⟨more, none, same⟩ :=
        Crew.exists_asks (fun time => store (time + schedule.length)) crew
      refine ⟨more, ?_⟩
      have all := balance (schedule ++ more)
      rw [Crew.run_append] at all ⊢
      rw [none, List.append_nil] at all
      exact ⟨all, congrArg Flight.met (same (store 0))⟩
  · intro none
    rw [reads_of_update, reads_of_no_directory none]
  · exact fun read call other => reads_of_effects ⟨read, cache⟩ other
  · intro store' directoryAlike alike
    refine cache.update_congr rfl directoryAlike fun directory holds => ?_
    refine met_congr (fun request member => ?_) limit schedule
    exact alike directory request.name request.address holds (Directory.mem_requests.mp member)

/-- One value arrives before the deadline. Both variables are read, but nothing that the store
holds where a variable is to be found only later. -/
theorem footprint_of_update_expired :
    let schedule : List Move := [.ask 1, .finish 1, .receive, .expire]
    let store := fun _ : Nat => World.orderly.answer
    let store' := fun _ : Nat => (World.orderly.set ⟨[1], [2]⟩ [99]).answer
    let world := World.scheduled store ⟨1000⟩ schedule ⟨0⟩
    let world' := World.scheduled store' ⟨1000⟩ schedule ⟨0⟩
    world'.read ⟨[1], [2]⟩ ≠ world.read ⟨[1], [2]⟩ ∧
      (Node.online.cache.update world (.mk 6)).1 =
        .error (.fetch (.timeout 1 2 ⟨1000⟩)) ∧
      (Node.online.cache.update world (.mk 6)).2.2.reads =
        [defaultDirectoryAddress, ⟨[1], [1]⟩, ⟨[1], [3]⟩] ∧
      Node.online.cache.update world' (.mk 6) = Node.online.cache.update world (.mk 6) := by
  intro schedule store store' world world'
  let directory : Directory := .ofList [
    ("fee", ⟨⟨[1], [1]⟩, ⟨[1], [2]⟩, .mk 7⟩), ("gas", ⟨⟨[1], [3]⟩, ⟨[1], [3]⟩, .mk 1⟩)]
  have holds : world.HoldsDirectory Node.online.cache.config directory := ⟨_, rfl, rfl⟩
  have footprint := footprint_of_update Node.online.cache store schedule ⟨0⟩ (.mk 6)
  obtain ⟨reads, _, listed, _⟩ := footprint.1 directory holds
  have alike : ∀ request ∈ directory.requests (.mk 6), ∀ time,
      store' time request.address = store time request.address :=
    List.forall_mem_cons.mpr ⟨fun _ => rfl, List.forall_mem_cons.mpr ⟨fun _ => rfl, nofun⟩⟩
  refine ⟨nofun, rfl, reads, footprint.2.2.2 store' rfl ?_⟩
  intro other name address holds' resolved
  obtain rfl := holds'.unique holds
  exact alike _ ((listed name address).mpr resolved)

end Cache

end ChainVariables
