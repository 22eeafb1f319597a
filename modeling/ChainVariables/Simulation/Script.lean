import ChainVariables.Fetch.Schedule
import ChainVariables.Store.Memory

/-! # Scripted stores

A scripted store serves reads from memory except where a rule says otherwise: a
read may fail, crash or never return, and may wait until some values of the same
fetch have arrived. From the rules follows, for any requests, what the collector
of a fetch meets, so fetches with slow and failing reads can be replayed without
a clock. What is replayed is one of the possible orders
(`ScriptedStore.possible_signals`).
-/

namespace ChainVariables

/-- What a rule makes of a read. -/
inductive Behaviour where
  | serve
  | fail (error : StoreError)
  | crash (message : String)
  | hang

structure Rule where
  address : Address
  behaviour : Behaviour
  /-- How many values of the fetch have to arrive before the read acts. -/
  threshold : Nat := 0

/-- A store in memory with rules for reading it. -/
structure ScriptedStore where
  memory : MemoryStore := .empty
  rules : List Rule := []

/-- A read of a fetch that has not acted yet. -/
structure PendingRead where
  request : Request
  answer : Answer
  threshold : Nat

namespace ScriptedStore

def addRule (store : ScriptedStore) (rule : Rule) : ScriptedStore :=
  { store with rules := rule :: store.rules }

def mapMemory (store : ScriptedStore) (change : MemoryStore → MemoryStore) : ScriptedStore :=
  { store with memory := change store.memory }

def rule (store : ScriptedStore) (address : Address) : Rule :=
  (store.rules.find? (·.address == address)).getD ⟨address, .serve, 0⟩

def served (store : ScriptedStore) (address : Address) : Answer := store.memory.answer address

/-- What a read at an address comes to under its rule. -/
def answer (store : ScriptedStore) (address : Address) : Answer :=
  match (store.rule address).behaviour with
  | .serve => store.served address
  | .fail error => .fault error
  | .crash message => .crash message
  | .hang => .silent

/-- What a read outside any fetch comes to: it never waits or hangs. -/
def directAnswer (store : ScriptedStore) (address : Address) : Answer :=
  match store.answer address with
  | .silent => store.served address
  | acted => acted

def pend (store : ScriptedStore) (request : Request) : PendingRead :=
  ⟨request, store.answer request.address, (store.rule request.address).threshold⟩

end ScriptedStore

namespace PendingRead

/-- Whether a read does not act when so many values have arrived. -/
def waits (received : Nat) (pending : PendingRead) : Bool :=
  match pending.answer with
  | .silent => true
  | _ => received < pending.threshold

end PendingRead

/-- Time limits below this pass before any read can act. -/
def instantLimit : Duration := ⟨Duration.microsecond⟩

/-- Time limits from this on never pass. -/
def endlessLimit : Duration := ⟨10 * Duration.second⟩

/-- What the collector meets when these reads act as soon as they can, earlier requests first. A
crashed read only goes away. When none can act, either some wait until the limit passes, or all
have ended. -/
def replay (limit : Duration) (received : Nat) (pending : List PendingRead) : List Signal :=
  match ready : pending.dropWhile (·.waits received) with
  | [] =>
      if pending.isEmpty then [.disconnected]
      else if limit.nanos < endlessLimit.nanos then [.expired]
      else []
  | acting :: later =>
      have shorter : (pending.takeWhile (·.waits received)).length + later.length <
          pending.length := by
        have split := congrArg List.length
          (List.takeWhile_append_dropWhile (p := (·.waits received)) (l := pending))
        rw [ready] at split
        simp only [List.length_append, List.length_cons] at split ⊢
        omega
      let others := pending.takeWhile (·.waits received) ++ later
      match acting.answer with
      | .value bytes => .value acting.request bytes :: replay limit (received + 1) others
      | .fault error => [.fault acting.request error]
      | .crash _ => replay limit received others
      | .silent => []
  termination_by pending.length

/-- What the collector meets when requests are fetched from a scripted store. -/
def ScriptedStore.signals (store : ScriptedStore) (limit : Duration) (requests : List Request) :
    List Signal :=
  if limit.nanos < instantLimit.nanos ∧ requests ≠ [] then [.expired]
  else replay limit 0 (requests.map store.pend)

/-- Fetches requests from a scripted store; also tells the addresses read. -/
def ScriptedStore.fetch (store : ScriptedStore) (requests : List Request) (limit : Duration) :
    Outcome FetchError (SortedMap String Bytes) × List Address × List LogEntry :=
  let (outcome, logs) := ChainVariables.fetch requests limit (store.signals limit requests)
  (outcome, requests.map (·.address), logs)

def PendingRead.outstanding (pending : PendingRead) : Request × Answer :=
  (pending.request, pending.answer)

/-- A replay follows one of the possible orders of the reads. -/
theorem possible_replay (limit : Duration) (received : Nat) (pending : List PendingRead) :
    Possible True (pending.map (·.outstanding)) (replay limit received pending) := by
  fun_induction replay limit received pending with
  | case1 received pending blocked ended =>
      obtain rfl := List.isEmpty_iff.mp ended
      exact .disconnected
  | case2 received pending blocked waiting short => exact .expired _ trivial
  | case3 received pending blocked waiting long => exact .pause _
  | case4 received pending acting later ready shorter others bytes served ih =>
      have order := List.takeWhile_append_dropWhile (p := (·.waits received)) (l := pending)
      rw [ready] at order
      rw [← order, List.map_append, List.map_cons, PendingRead.outstanding, served]
      refine .value ?_
      rw [← List.map_append]
      exact ih
  | case5 received pending acting later ready shorter error failed =>
      have order := List.takeWhile_append_dropWhile (p := (·.waits received)) (l := pending)
      rw [ready] at order
      rw [← order, List.map_append, List.map_cons, PendingRead.outstanding, failed]
      exact .fault (.pause _)
  | case6 received pending acting later ready shorter others message crashed ih =>
      have order := List.takeWhile_append_dropWhile (p := (·.waits received)) (l := pending)
      rw [ready] at order
      rw [← order, List.map_append, List.map_cons, PendingRead.outstanding, crashed]
      refine .crash ?_
      rw [← List.map_append]
      exact ih
  | case7 => exact .pause _

/-- A scripted store replays a possible order of its reads. -/
theorem ScriptedStore.possible_signals (store : ScriptedStore) (limit : Duration)
    (requests : List Request) :
    Possible True (requests.map fun request => (request, store.answer request.address))
      (store.signals limit requests) := by
  unfold signals
  split
  · exact .expired _ trivial
  · have replayed := possible_replay limit 0 (requests.map store.pend)
    rw [List.map_map] at replayed
    exact replayed

end ChainVariables
