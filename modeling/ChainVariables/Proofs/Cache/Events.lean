import ChainVariables.Failure
import ChainVariables.Proofs.Cache.Agreement
import ChainVariables.Proofs.Cache.Run

/-! # The events of a run

Every refresh that comes to a result fires one event, and so does every override
that succeeds; nothing else does. The event tells the snapshot as it is after the
call (`ChainVariables.Call.Announces`). It is given to the handlers of its kind
one after another, the logger last, until one of them crashes, and to no other
handler (`ChainVariables.Delivered`). The events of a run are those of its calls
in order (`ChainVariables.Node.events_run`).
-/

namespace ChainVariables

/-- A call that neither refreshes the cache nor overrides a value. -/
def Call.Quiet : Call → Prop
  | .update .. | .override .. => False
  | .write _ | .get .. | .getRaw _ | .snapshot | .state | .digest => True

/-- Which event a call fires, by what it comes to before any handler is called and by the snapshots
before and after it. -/
inductive Call.Announces :
    Call → Outcome Failure Unit → Snapshot → Snapshot → Option Event → Prop where
  | updated {signals : List Request → List Signal} {now : Timestamp} {height : Height}
      {before after : Snapshot} {digest : Digest} :
      after.height? = some height → after.digest = .ok digest →
        Announces (.update signals now height) (.ok ()) before after
          (some (.updated now height after.size digest))
  | updateFailed {signals : List Request → List Signal} {now : Timestamp} {height : Height}
      {before : Snapshot} (failure : Failure) :
      Announces (.update signals now height) (.error failure) before before
        (some (.updateFailed now height failure.message))
  | overridden {α : Type} {now : Timestamp} {name : String} {format : Format α} {value : α}
      {before after : Snapshot} {bytes : Bytes} :
      after.getRaw? name = some bytes →
        Announces (.override now name format value) (.ok ()) before after
          (some (.overridden now name bytes.length))
  | overrideFailed {α : Type} {now : Timestamp} {name : String} {format : Format α} {value : α}
      {before : Snapshot} (failure : Failure) :
      Announces (.override now name format value) (.error failure) before before none
  /-- In the read of the directory, or in the encoder (`ChainVariables.Node.Crashes`). -/
  | crashed {call : Call} {before : Snapshot} (message : String) :
      Announces call (.crashed message) before before none
  | waiting {call : Call} {before : Snapshot} : Announces call .waiting before before none
  | quiet {call : Call} {before : Snapshot} :
      call.Quiet → Announces call (.ok ()) before before none

variable {ν : Type}

/-- The handlers that are told of events of a kind: those registered for it in order, and the logger
after them if events are to be logged. -/
def Handler.told (config : Config) (handlers : List (Handler ν)) (kind : EventKind) :
    List (Handler ν) :=
  handlers.filter (·.kind == kind) ++ if config.logEvents then [.logger kind] else []

/-- How an event reaches the handlers that are told of it: what they do with it, and the message of
the crash if one of them crashes. -/
inductive Delivered (event : Event) (snapshot : Snapshot) :
    List (Handler ν) → List (Reaction ν) → Option String → Prop where
  /-- Nobody crashes, and all are told. -/
  | whole {told : List (Handler ν)} :
      (∀ handler ∈ told, (handler.react event snapshot).crash? = none) →
        Delivered event snapshot told (told.map (·.react event snapshot)) none
  /-- The first one that crashes is the last one to be told. -/
  | broken {before after : List (Handler ν)} {handler : Handler ν} {message : String} :
      (∀ earlier ∈ before, (earlier.react event snapshot).crash? = none) →
        (handler.react event snapshot).crash? = some message →
          Delivered event snapshot (before ++ handler :: after)
            ((before ++ [handler]).map (·.react event snapshot)) (some message)

/-- What the handlers do in a call that fires an event or none. -/
def Event.Reaches (snapshot : Snapshot) (told : EventKind → List (Handler ν)) :
    Option Event → List (Reaction ν) → Option String → Prop
  | none, reactions, crash? => reactions = [] ∧ crash? = none
  | some event, reactions, crash? =>
      Delivered event snapshot (told event.kind) reactions crash?

/-! ## Telling the handlers -/

/-- One more handler is told first, and the others after it unless it crashes. -/
theorem Delivered.cons {event : Event} {snapshot : Snapshot} {told : List (Handler ν)}
    {reactions : List (Reaction ν)} {crash? : Option String}
    (delivered : Delivered event snapshot told reactions crash?) {handler : Handler ν}
    (calm : (handler.react event snapshot).crash? = none) :
    Delivered event snapshot (handler :: told) (handler.react event snapshot :: reactions)
      crash? := by
  cases delivered with
  | whole others => exact .whole (List.forall_mem_cons.mpr ⟨calm, others⟩)
  | @broken before after crasher message others crash =>
      have calm' : ∀ earlier ∈ handler :: before, (earlier.react event snapshot).crash? = none :=
        List.forall_mem_cons.mpr ⟨calm, others⟩
      exact .broken calm' crash

namespace Handler

/-- Handlers are called up to the first one that crashes. -/
theorem delivered_callAll (event : Event) (snapshot : Snapshot) (handlers : List (Handler ν)) :
    ∃ reactions, Delivered event snapshot handlers reactions
        (callAll event snapshot handlers).crash? ∧
      (callAll event snapshot handlers).logs = reactions.flatMap Reaction.logs ∧
      (callAll event snapshot handlers).notes = reactions.flatMap Reaction.notes := by
  induction handlers with
  | nil => exact ⟨[], .whole nofun, rfl, rfl⟩
  | cons handler rest ih =>
      simp only [callAll]
      cases crash : (handler.react event snapshot).crash? with
      | some message =>
          refine ⟨[handler.react event snapshot], ?_, ?_, ?_⟩
          · have nobody : ∀ earlier ∈ ([] : List (Handler ν)),
                (earlier.react event snapshot).crash? = none := nofun
            have reached : Delivered event snapshot (handler :: rest)
                [handler.react event snapshot] (some message) := .broken nobody crash
            rw [← crash] at reached
            exact reached
          · exact (List.append_nil _).symm
          · exact (List.append_nil _).symm
      | none =>
          obtain ⟨reactions, delivered, logs, notes⟩ := ih
          refine ⟨handler.react event snapshot :: reactions, delivered.cons crash, ?_, ?_⟩
          · rw [List.flatMap_cons, ← logs]
          · rw [List.flatMap_cons, ← notes]

end Handler

namespace Cache

/-- The same cache without handlers. -/
def hushed (cache : Cache ν) : Cache ν := { cache with handlers := [] }

theorem announce_hushed {ε : Type} (cache : Cache ν) (event : Event) (ending : Outcome ε Unit)
    (effects : Effects ν) :
    cache.hushed.announce event ending effects = (ending, cache.hushed, effects) := by
  simp [announce, hushed, Handler.fire, Handler.callAll]

/-- What handlers add to a call that tells them of an event. -/
theorem announce_of_hushed {ε : Type} (cache : Cache ν) (event : Event) (ending : Outcome ε Unit)
    (reads : List Address) (logs : List LogEntry) (failure : ε → Failure) :
    ((cache.announce event ending { reads, logs }).1.mapError failure =
      match (Handler.fire cache.handlers event cache.snapshot).crash? with
      | some message => .crashed message
      | none => (cache.hushed.announce event ending { reads, logs }).1.mapError failure) ∧
    (cache.announce event ending { reads, logs }).2.2 =
      { reads := (cache.hushed.announce event ending { reads, logs }).2.2.reads
        logs := (cache.hushed.announce event ending { reads, logs }).2.2.logs ++
          (Handler.fire cache.handlers event cache.snapshot).logs
        notes := (Handler.fire cache.handlers event cache.snapshot).notes } := by
  rw [announce_hushed]
  refine ⟨?_, rfl⟩
  simp only [announce]
  cases (Handler.fire cache.handlers event cache.snapshot).crash? <;> rfl

theorem handlers_create (config : Config) (handlers : List (Handler ν)) (kind : EventKind) :
    (create config handlers).handlers.filter (·.kind == kind) =
      Handler.told config handlers kind := by
  simp only [create, Handler.told]
  split
  · rw [List.filter_append]
    cases kind <;> rfl
  · exact (List.append_nil _).symm

end Cache

namespace Node

/-! ## One call -/

/-- The call crashes before any handler is called: in the read of the directory, or in the
encoder. -/
inductive Crashes (node : Node ν) : Call → String → Prop where
  | reading {signals : List Request → List Signal} {now : Timestamp} {height : Height}
      {message : String} :
      node.store node.cache.config.directoryAddress = .crash message →
        Crashes node (.update signals now height) message
  | encoding {α : Type} {now : Timestamp} {name : String} {format : Format α} {value : α}
      {message : String} :
      format.encode value = .crashed message →
        Crashes node (.override now name format value) message

/-- How a call ends for its caller. -/
def outcome (node : Node ν) : Call → Outcome Failure Unit
  | .update signals now height =>
      (node.cache.update (node.world signals now) height).1.mapError .update
  | .override now name format value =>
      (node.cache.override now name format value).1.mapError .set
  | .write _ | .get .. | .getRaw _ | .snapshot | .state | .digest => .ok ()

/-- What a call does outside the cache. -/
def effects (node : Node ν) : Call → Effects ν
  | .update signals now height => (node.cache.update (node.world signals now) height).2.2
  | .override now name format value => (node.cache.override now name format value).2.2
  | .write _ | .get .. | .getRaw _ | .snapshot | .state | .digest => {}

/-- What the handlers note during calls, in order. -/
def notes (node : Node ν) : List Call → List ν
  | [] => []
  | call :: rest => (node.effects call).notes ++ (node.step call).notes rest

/-- The same node without handlers. -/
def hushed (node : Node ν) : Node ν := ⟨node.store, node.cache.hushed⟩

/-- The same node with handlers that note the events of every kind. -/
def observed (node : Node ν) : Node Event := ⟨node.store, node.cache.observed⟩

/-- The events that calls fire, in order. -/
def events (node : Node ν) (calls : List Call) : List Event := node.observed.notes calls

/-- The event that a call fires. -/
def event? (node : Node ν) : Call → Option Event
  | .update signals now height =>
      match Cache.prepared node.cache.config (node.world signals now) height with
      | .ok (snapshot, digest) => some (.updated now height snapshot.size digest)
      | .error error => some (.updateFailed now height error.message)
      | .crashed _ | .waiting => none
  | .override now name format value =>
      match format.encode value with
      | .ok bytes => some (.overridden now name bytes.length)
      | .error _ | .crashed _ | .waiting => none
  | .write _ | .get .. | .getRaw _ | .snapshot | .state | .digest => none

/-- What the handlers do in a call. -/
def reaction (node : Node ν) (call : Call) : Reaction ν :=
  match node.event? call with
  | some event => Handler.fire node.cache.handlers event (node.step call).cache.snapshot
  | none => {}

theorem prepared_hushed (node : Node ν) (signals : List Request → List Signal) (now : Timestamp)
    (height : Height) :
    Cache.prepared node.hushed.cache.config (node.hushed.world signals now) height =
      Cache.prepared node.cache.config (node.world signals now) height := rfl

theorem prepared_observed (node : Node ν) (signals : List Request → List Signal) (now : Timestamp)
    (height : Height) :
    Cache.prepared node.observed.cache.config (node.observed.world signals now) height =
      Cache.prepared node.cache.config (node.world signals now) height := rfl

/-- The handlers add to a call what they do, and may end it by a crash. -/
theorem outcome_effects (node : Node ν) (call : Call) :
    (node.outcome call =
      match (node.reaction call).crash? with
      | some message => .crashed message
      | none => node.hushed.outcome call) ∧
    node.effects call =
      { reads := (node.hushed.effects call).reads
        logs := (node.hushed.effects call).logs ++ (node.reaction call).logs
        notes := (node.reaction call).notes } := by
  cases call with
  | update signals now height =>
      cases ended : Cache.prepared node.cache.config (node.world signals now) height with
      | ok ready =>
          have ended' := (node.prepared_hushed signals now height).trans ended
          simp only [outcome, effects, reaction, event?, step, ended,
            Cache.update_of_prepared ended, Cache.update_of_prepared ended']
          exact Cache.announce_of_hushed { node.cache with snapshot := ready.1 } ..
      | error error =>
          have ended' := (node.prepared_hushed signals now height).trans ended
          simp only [outcome, effects, reaction, event?, step, ended,
            Cache.update_of_error ended, Cache.update_of_error ended']
          exact Cache.announce_of_hushed node.cache ..
      | crashed message =>
          have ended' := (node.prepared_hushed signals now height).trans ended
          simp only [outcome, effects, reaction, event?, ended, Cache.update_of_crashed ended,
            Cache.update_of_crashed ended', List.append_nil]
          exact ⟨trivial, rfl⟩
      | waiting =>
          have ended' := (node.prepared_hushed signals now height).trans ended
          simp only [outcome, effects, reaction, event?, ended, Cache.update_of_waiting ended,
            Cache.update_of_waiting ended', List.append_nil]
          exact ⟨trivial, rfl⟩
  | override now name format value =>
      cases encoded : format.encode value with
      | ok bytes =>
          simp only [outcome, effects, reaction, event?, step, Cache.override, encoded]
          exact Cache.announce_of_hushed
            { node.cache with snapshot := node.cache.snapshot.override name bytes } ..
      | error source =>
          simp only [outcome, effects, reaction, event?, Cache.override, encoded]
          exact ⟨trivial, rfl⟩
      | crashed message =>
          simp only [outcome, effects, reaction, event?, Cache.override, encoded]
          exact ⟨trivial, rfl⟩
      | waiting =>
          simp only [outcome, effects, reaction, event?, Cache.override, encoded]
          exact ⟨trivial, rfl⟩
  | write change => exact ⟨rfl, rfl⟩
  | get format name => exact ⟨rfl, rfl⟩
  | getRaw name => exact ⟨rfl, rfl⟩
  | snapshot => exact ⟨rfl, rfl⟩
  | state => exact ⟨rfl, rfl⟩
  | digest => exact ⟨rfl, rfl⟩

theorem outcome_hushed_update (node : Node ν) (signals : List Request → List Signal)
    (now : Timestamp) (height : Height) :
    node.hushed.outcome (.update signals now height) =
      match Cache.prepared node.cache.config (node.world signals now) height with
      | .ok _ => .ok ()
      | .error error => .error (.update error)
      | .crashed message => .crashed message
      | .waiting => .waiting := by
  cases ended : Cache.prepared node.cache.config (node.world signals now) height with
  | ok ready =>
      simp only [outcome, Cache.update_of_prepared ((node.prepared_hushed ..).trans ended)]
      rfl
  | error error =>
      simp only [outcome, Cache.update_of_error ((node.prepared_hushed ..).trans ended)]
      rfl
  | crashed message =>
      simp only [outcome, Cache.update_of_crashed ((node.prepared_hushed ..).trans ended)]
      rfl
  | waiting =>
      simp only [outcome, Cache.update_of_waiting ((node.prepared_hushed ..).trans ended)]
      rfl

theorem outcome_hushed_override {α : Type} (node : Node ν) (now : Timestamp) (name : String)
    (format : Format α) (value : α) :
    node.hushed.outcome (.override now name format value) =
      match format.encode value with
      | .ok _ => .ok ()
      | .error source => .error (.set (.encode name source))
      | .crashed message => .crashed message
      | .waiting => .waiting := by
  simp only [outcome, Cache.override]
  cases format.encode value <;> rfl

/-- What the handlers do in a call, by the handlers that are told of each kind of event. -/
theorem reaches_reaction {node : Node ν} {told : EventKind → List (Handler ν)}
    (registered : ∀ kind, node.cache.handlers.filter (·.kind == kind) = told kind) (call : Call) :
    ∃ reactions, Event.Reaches (node.step call).cache.snapshot told (node.event? call) reactions
        (node.reaction call).crash? ∧
      (node.reaction call).logs = reactions.flatMap Reaction.logs ∧
      (node.reaction call).notes = reactions.flatMap Reaction.notes := by
  unfold reaction
  cases node.event? call with
  | none => exact ⟨[], ⟨rfl, rfl⟩, rfl, rfl⟩
  | some event =>
      simp only [Handler.fire, registered, Event.Reaches]
      exact Handler.delivered_callAll event _ _

/-- What a call comes to before its handlers are called tells its event. -/
theorem announces (node : Node ν) (call : Call) :
    call.Announces (node.hushed.outcome call) node.cache.snapshot (node.step call).cache.snapshot
      (node.event? call) := by
  cases call with
  | update signals now height =>
      rw [outcome_hushed_update]
      simp only [event?, step, Cache.cache_of_update]
      cases ended : Cache.prepared node.cache.config (node.world signals now) height with
      | ok ready =>
          obtain ⟨snapshot, digest⟩ := ready
          obtain ⟨values, _, rfl, hashed⟩ := Cache.prepared_eq_ok_iff.mp ended
          exact .updated rfl hashed
      | error error => exact .updateFailed (.update error)
      | crashed message => exact .crashed message
      | waiting => exact .waiting
  | override now name format value =>
      rw [outcome_hushed_override]
      simp only [event?, step, Cache.override]
      cases format.encode value with
      | ok bytes => exact .overridden (SortedMap.get?_insert_self ..)
      | error source => exact .overrideFailed _
      | crashed message => exact .crashed message
      | waiting => exact .waiting
  | write change => exact .quiet trivial
  | get format name => exact .quiet trivial
  | getRaw name => exact .quiet trivial
  | snapshot => exact .quiet trivial
  | state => exact .quiet trivial
  | digest => exact .quiet trivial

theorem outcome_hushed_eq_crashed_iff {node : Node ν} {call : Call} {message : String} :
    node.hushed.outcome call = .crashed message ↔ node.Crashes call message := by
  refine ⟨?_, ?_⟩
  · intro crashed
    cases call with
    | update signals now height =>
        rw [outcome_hushed_update] at crashed
        cases ended : Cache.prepared node.cache.config (node.world signals now) height with
        | crashed text =>
            rw [ended] at crashed
            cases crashed
            exact .reading (Cache.prepared_eq_crashed_iff.mp ended)
        | _ => rw [ended] at crashed; cases crashed
    | override now name format value =>
        rw [outcome_hushed_override] at crashed
        cases encoded : format.encode value with
        | crashed text =>
            rw [encoded] at crashed
            cases crashed
            exact .encoding encoded
        | _ => rw [encoded] at crashed; cases crashed
    | _ => cases crashed
  · intro crashes
    cases crashes with
    | reading crash =>
        rw [outcome_hushed_update, Cache.prepared_eq_crashed_iff.mpr crash]
    | encoding crash => rw [outcome_hushed_override, crash]

/-! ## Whole runs -/

theorem handlers_step (node : Node ν) (call : Call) :
    (node.step call).cache.handlers = node.cache.handlers := by
  cases call with
  | update signals now height =>
      simp only [step, Cache.cache_of_update]
      split <;> rfl
  | override now name format value =>
      simp only [step, cache_of_override]
      split <;> rfl
  | _ => rfl

theorem handlers_run (node : Node ν) (calls : List Call) :
    (node.run calls).cache.handlers = node.cache.handlers := by
  induction calls using List.reverseRecOn with
  | nil => rfl
  | append_singleton calls call ih => rw [run_concat, handlers_step, ih]

theorem observed_step (node : Node ν) (call : Call) :
    (node.step call).observed = node.observed.step call := by
  cases call with
  | update signals now height =>
      simp only [step, Cache.cache_of_update, prepared_observed]
      simp only [observed]
      split <;> rfl
  | override now name format value =>
      simp only [step, observed, cache_of_override]
      split <;> rfl
  | _ => rfl

/-- Handlers make no difference to what calls leave behind. -/
theorem observed_run (node : Node ν) (calls : List Call) :
    (node.run calls).observed = node.observed.run calls := by
  induction calls using List.reverseRecOn with
  | nil => rfl
  | append_singleton calls call ih => rw [run_concat, run_concat, observed_step, ih]

theorem notes_concat (node : Node ν) (calls : List Call) (call : Call) :
    node.notes (calls ++ [call]) = node.notes calls ++ ((node.run calls).effects call).notes := by
  induction calls generalizing node with
  | nil => exact List.append_nil _
  | cons first rest ih =>
      rw [List.cons_append, notes, ih, ← List.append_assoc]
      rfl

theorem notes_observed (node : Node ν) (call : Call) :
    (node.observed.effects call).notes = (node.event? call).toList := by
  have same : node.observed.event? call = node.event? call := by cases call <;> rfl
  rw [(node.observed.outcome_effects call).2]
  simp only [reaction, same]
  cases node.event? call with
  | none => rfl
  | some event => cases event <;> rfl

theorem events_concat (node : Node ν) (calls : List Call) (call : Call) :
    node.events (calls ++ [call]) = node.events calls ++ ((node.run calls).event? call).toList := by
  rw [events, notes_concat, ← observed_run, notes_observed]
  rfl

/-- **The law of events.** Make calls on a cache that was never refreshed, while other code changes
the store, and then one more. It adds one event to those fired so far, or none, by what it comes to
before any handler is called. A refresh that succeeds fires one that tells its height and the size
and the digest of the snapshot as it is after the call; a refresh that fails fires one that tells
its height and the error, and leaves the snapshot as it was. An override that succeeds fires one
that tells the length of the value as it is read after the call. No other call fires one, and no
call that crashes in the read of the directory or in the encoder. The event is given once to each
handler of its kind, in the order of registration and the logger last, until one of them crashes.
That handler's crash then ends the call; otherwise it ends as it came to. Handlers add nothing else
to what the call does. -/
theorem events_run (store : Address → Answer) (config : Config) (handlers : List (Handler ν))
    (calls : List Call) (call : Call) :
    let start : Node ν := ⟨store, .create config handlers⟩
    let node := start.run calls
    let result := node.hushed.outcome call
    let after := (node.step call).cache.snapshot
    start.events [] = [] ∧
    (∀ message, result = .crashed message ↔ node.Crashes call message) ∧
    ∃ event? reactions crash?,
      start.events (calls ++ [call]) = start.events calls ++ event?.toList ∧
      call.Announces result node.cache.snapshot after event? ∧
      Event.Reaches after (Handler.told config handlers) event? reactions crash? ∧
      node.outcome call = (match crash? with | some message => .crashed message | none => result) ∧
      node.effects call =
        { reads := (node.hushed.effects call).reads
          logs := (node.hushed.effects call).logs ++ reactions.flatMap Reaction.logs
          notes := reactions.flatMap Reaction.notes } := by
  intro start node result after
  refine ⟨rfl, fun _ => outcome_hushed_eq_crashed_iff, ?_⟩
  have registered (kind : EventKind) :
      node.cache.handlers.filter (·.kind == kind) = Handler.told config handlers kind := by
    rw [handlers_run]
    exact Cache.handlers_create config handlers kind
  obtain ⟨reactions, reached, logs, notes⟩ := reaches_reaction registered call
  obtain ⟨ended, effects⟩ := node.outcome_effects call
  refine ⟨node.event? call, reactions, (node.reaction call).crash?, ?_, ?_, reached, ended, ?_⟩
  · exact start.events_concat calls call
  · exact node.announces call
  · rw [effects, logs, notes]

/-- Of two handlers of one kind the first one crashes. The event was fired, but the second one is
not told of it, and the call does not return. -/
theorem untold_after_crash :
    let first : Handler String :=
      ⟨.overridden, fun _ _ => { notes := ["first"], crash? := some "boom" }⟩
    let second : Handler String := ⟨.overridden, fun _ _ => { notes := ["second"] }⟩
    let config : Config := { timeout := ⟨10 * Duration.second⟩, logEvents := false }
    let start : Node String := ⟨fun _ => .silent, .create config [first, second]⟩
    let call : Call := .override ⟨0⟩ "fee" .bool true
    start.events [call] = [.overridden ⟨0⟩ "fee" 1] ∧
      start.outcome call = .crashed "boom" ∧ (start.effects call).notes = ["first"] :=
  ⟨rfl, rfl, rfl⟩

end Node

end ChainVariables
