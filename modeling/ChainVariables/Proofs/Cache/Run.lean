import Mathlib.Data.List.Induction
import ChainVariables.Proofs.Cache.Refresh
import ChainVariables.Proofs.Splits

/-! # Runs of a cache

A cache is called again and again while other code changes the store under it.
Whatever the calls come to, its snapshot is at every moment that of the last
refresh that came through all its stages, with the values of the later overrides
put over it in the order they were made (`ChainVariables.Node.snapshot_run`).
Calls that fail or crash on the way, and calls that only read, leave no trace.
-/

namespace ChainVariables

/-- A cache, and what the reads of its store come to. -/
structure Node (ν : Type) where
  store : Address → Answer
  cache : Cache ν

/-- A call on a cache, or a change that other code makes to the store. -/
inductive Call : Type 1 where
  | write (change : (Address → Answer) → Address → Answer)
  | update (signals : List Request → List Signal) (now : Timestamp) (height : Height)
  | override {α : Type} (now : Timestamp) (name : String) (format : Format α) (value : α)
  | get {α : Type} (format : Format α) (name : String)
  | getRaw (name : String)
  | snapshot
  | state
  | digest

/-- The variable that a call overrides and its bytes, if the value can be encoded. -/
def Call.sets? : Call → Option (String × Bytes)
  | override _ name format value =>
      match format.encode value with
      | .ok bytes => some (name, bytes)
      | _ => none
  | _ => none

/-- The overrides among some calls put over values, in order. -/
def overwrite (values : SortedMap String Bytes) (calls : List Call) : SortedMap String Bytes :=
  (calls.filterMap Call.sets?).foldl (fun values entry => values.insert entry.1 entry.2) values

theorem overwrite_append (values : SortedMap String Bytes) (first second : List Call) :
    overwrite values (first ++ second) = overwrite (overwrite values first) second := by
  unfold overwrite
  rw [List.filterMap_append, List.foldl_append]

theorem overwrite_of_none (values : SortedMap String Bytes) {call : Call}
    (idle : call.sets? = none) : overwrite values [call] = values := by
  simp [overwrite, idle]

theorem overwrite_of_some (values : SortedMap String Bytes) {call : Call} {name : String}
    {bytes : Bytes} (set : call.sets? = some (name, bytes)) :
    overwrite values [call] = values.insert name bytes := by
  simp [overwrite, set]

namespace Node

variable {ν : Type}

/-- What a call meets outside the cache. -/
def world (node : Node ν) (signals : List Request → List Signal) (now : Timestamp) : World :=
  ⟨node.store, signals, now⟩

/-- Makes a call. -/
def step (node : Node ν) : Call → Node ν
  | .write change => { node with store := change node.store }
  | .update signals now height =>
      { node with cache := (node.cache.update (node.world signals now) height).2.1 }
  | .override now name format value =>
      { node with cache := (node.cache.override now name format value).2.1 }
  | .get .. | .getRaw _ | .snapshot | .state | .digest => node

/-- Makes calls in order. -/
def run (node : Node ν) (calls : List Call) : Node ν := calls.foldl step node

/-- How a call ends for its caller. -/
def ending (node : Node ν) : Call → Outcome Unit Unit
  | .update signals now height =>
      (node.cache.update (node.world signals now) height).1.mapError fun _ => ()
  | .override now name format value =>
      (node.cache.override now name format value).1.mapError fun _ => ()
  | .write _ | .get .. | .getRaw _ | .snapshot | .state | .digest => .ok ()

/-- A call is a refresh that comes through all its stages: the directory is read and decoded, the
fetch of its requests succeeds with these values, and they can be encoded. -/
def Installs (node : Node ν) (call : Call) (values : SortedMap String Bytes) (height : Height) :
    Prop :=
  ∃ signals now directory digest, call = .update signals now height ∧
    (node.world signals now).HoldsDirectory node.cache.config directory ∧
    (fetch (directory.requests height) node.cache.config.timeout
      (signals (directory.requests height))).1 = .ok values ∧
    (Snapshot.mk values (some height)).digest = .ok digest

/-- None of some calls is a refresh that comes through. -/
def Unrefreshed (node : Node ν) (calls : List Call) : Prop :=
  ∀ before call after, calls = before ++ call :: after →
    ∀ values height, ¬ (node.run before).Installs call values height

theorem run_append (node : Node ν) (first second : List Call) :
    node.run (first ++ second) = (node.run first).run second := by
  unfold run
  rw [List.foldl_append]

theorem run_concat (node : Node ν) (calls : List Call) (call : Call) :
    node.run (calls ++ [call]) = (node.run calls).step call :=
  node.run_append calls [call]

theorem unrefreshed_nil (node : Node ν) : node.Unrefreshed [] := by
  intro before call after split
  cases before <;> cases split

theorem unrefreshed_concat {node : Node ν} {calls : List Call} {call : Call}
    (earlier : node.Unrefreshed calls)
    (last : ∀ values height, ¬ (node.run calls).Installs call values height) :
    node.Unrefreshed (calls ++ [call]) := by
  intro before other after split
  rcases split_concat split with ⟨rfl, rfl, rfl⟩ | ⟨middle, rfl, rfl⟩
  · exact last
  · exact earlier before other middle rfl

/-! ## One call -/

theorem installs_iff {node : Node ν} {signals : List Request → List Signal} {now : Timestamp}
    {height known : Height} {values : SortedMap String Bytes} :
    node.Installs (.update signals now height) values known ↔
      known = height ∧ ∃ digest, Cache.prepared node.cache.config (node.world signals now) height =
        .ok (⟨values, some height⟩, digest) := by
  refine ⟨?_, ?_⟩
  · intro installs
    obtain ⟨_, _, directory, digest, same, holds, fetched, hashed⟩ := installs
    cases same
    refine ⟨rfl, digest, Cache.prepared_eq_ok_iff.mpr ⟨values, ?_, rfl, hashed⟩⟩
    exact Cache.fetchVariables_eq_ok_iff.mpr ⟨directory, holds, fetched⟩
  · intro reached
    obtain ⟨rfl, digest, ready⟩ := reached
    obtain ⟨_, fetched, same, hashed⟩ := Cache.prepared_eq_ok_iff.mp ready
    cases same
    obtain ⟨directory, holds, fetched⟩ := Cache.fetchVariables_eq_ok_iff.mp fetched
    exact ⟨signals, now, directory, digest, rfl, holds, fetched, hashed⟩

/-- A refresh that comes through replaces the whole snapshot. -/
theorem snapshot_step_of_installs {node : Node ν} {call : Call} {values : SortedMap String Bytes}
    {height : Height} (installs : node.Installs call values height) :
    (node.step call).cache.snapshot = ⟨values, some height⟩ := by
  obtain ⟨signals, now, _, _, rfl, _⟩ := id installs
  obtain ⟨_, digest, ready⟩ := installs_iff.mp installs
  simp only [step, Cache.cache_of_update, ready]

theorem cache_of_override {α : Type} (cache : Cache ν) (now : Timestamp) (name : String)
    (format : Format α) (value : α) :
    (cache.override now name format value).2.1 =
      match (Call.override now name format value).sets? with
      | some (name, bytes) => { cache with snapshot := cache.snapshot.override name bytes }
      | none => cache := by
  simp only [Cache.override, Call.sets?]
  cases format.encode value <;> rfl

/-- A call that neither refreshes nor overrides leaves the cache as it is. -/
theorem cache_step_of_idle {node : Node ν} {call : Call}
    (idle : ∀ values height, ¬ node.Installs call values height) (silent : call.sets? = none) :
    (node.step call).cache = node.cache := by
  cases call with
  | update signals now height =>
      simp only [step, Cache.cache_of_update]
      split
      next snapshot digest ready =>
        obtain ⟨values, _, rfl, _⟩ := Cache.prepared_eq_ok_iff.mp ready
        exact absurd (installs_iff.mpr ⟨rfl, digest, ready⟩) (idle values height)
      · rfl
  | override now name format value =>
      simp only [step, cache_of_override, silent]
  | write change => rfl
  | get format name => rfl
  | getRaw name => rfl
  | snapshot => rfl
  | state => rfl
  | digest => rfl

/-- Any other call only puts its override over the snapshot. -/
theorem snapshot_step_of_not_installs {node : Node ν} {call : Call}
    (idle : ∀ values height, ¬ node.Installs call values height) :
    (node.step call).cache.snapshot =
      ⟨overwrite node.cache.snapshot.values [call], node.cache.snapshot.height?⟩ := by
  cases set : call.sets? with
  | none =>
      rw [cache_step_of_idle idle set, overwrite_of_none _ set]
  | some entry =>
      obtain ⟨name, bytes⟩ := entry
      rw [overwrite_of_some _ set]
      cases call with
      | override now name' format value =>
          simp only [step, cache_of_override, set, Snapshot.override]
      | _ => cases set

/-! ## What the caller sees -/

theorem mapError_eq_ok {ε : Type} {outcome : Outcome ε Unit}
    (ok : outcome.mapError (fun _ => ()) = .ok ()) : outcome = .ok () := by
  cases outcome <;> cases ok
  rfl

theorem installs_of_ending {node : Node ν} {signals : List Request → List Signal}
    {now : Timestamp} {height : Height} (ok : node.ending (.update signals now height) = .ok ()) :
    ∃ values, node.Installs (.update signals now height) values height := by
  obtain ⟨values, digest, _, ready⟩ := Cache.prepared_of_update_eq_ok (mapError_eq_ok ok)
  exact ⟨values, installs_iff.mpr ⟨rfl, digest, ready⟩⟩

theorem sets_of_ending {α : Type} {node : Node ν} {now : Timestamp} {name : String}
    {format : Format α} {value : α} (ok : node.ending (.override now name format value) = .ok ()) :
    ∃ bytes, format.encode value = .ok bytes ∧
      (Call.override now name format value).sets? = some (name, bytes) := by
  have returned := mapError_eq_ok ok
  simp only [Cache.override] at returned
  cases encoded : format.encode value with
  | ok bytes => exact ⟨bytes, rfl, by simp only [Call.sets?, encoded]⟩
  | error reason => rw [encoded] at returned; cases returned
  | crashed message => rw [encoded] at returned; cases returned
  | waiting => rw [encoded] at returned; cases returned

theorem ending_announce_ne_error {ε : Type} (cache : Cache ν) (event : Event)
    (effects : Effects ν) :
    (cache.announce event (.ok () : Outcome ε Unit) effects).1.mapError (fun _ => ()) ≠
      .error () := by
  simp only [Cache.announce]
  split
  · intro same
    cases same
  · intro same
    cases same

theorem idle_of_ending_error {node : Node ν} {call : Call} (failed : node.ending call = .error ()) :
    (∀ values height, ¬ node.Installs call values height) ∧ call.sets? = none := by
  cases call with
  | update signals now height =>
      refine ⟨?_, rfl⟩
      intro values known installs
      obtain ⟨_, digest, ready⟩ := installs_iff.mp installs
      simp only [ending, Cache.update_of_prepared ready] at failed
      exact ending_announce_ne_error _ _ _ failed
  | override now name format value =>
      refine ⟨?_, ?_⟩
      · rintro values height ⟨_, _, _, _, same, _⟩
        cases same
      · simp only [Call.sets?]
        split
        next bytes encoded =>
          simp only [ending, Cache.override, encoded] at failed
          exact absurd failed (ending_announce_ne_error _ _ _)
        · rfl
  | _ => cases failed

theorem not_installs_of_crash {node : Node ν} {message : String}
    (crash : node.store node.cache.config.directoryAddress = .crash message) (call : Call)
    (values : SortedMap String Bytes) (height : Height) : ¬ node.Installs call values height := by
  intro installs
  obtain ⟨signals, now, directory, _, _, ⟨bytes, found, _⟩, _⟩ := installs
  cases crash.symm.trans found

/-! ## Whole runs -/

/-- The snapshot of a node after calls during which no refresh came through. -/
theorem snapshot_run_of_unrefreshed {node : Node ν} {calls : List Call}
    (unrefreshed : node.Unrefreshed calls) :
    (node.run calls).cache.snapshot =
      ⟨overwrite node.cache.snapshot.values calls, node.cache.snapshot.height?⟩ := by
  induction calls using List.reverseRecOn with
  | nil => rfl
  | append_singleton calls call ih =>
      have earlier : node.Unrefreshed calls := by
        intro before other after split
        exact unrefreshed before other (after ++ [call]) (by rw [split]; simp)
      have idle := unrefreshed calls call [] rfl
      rw [run_concat, snapshot_step_of_not_installs idle, ih earlier, overwrite_append]

/-- In every run either no refresh comes through, or there is a last one that does. -/
theorem unrefreshed_or_last_refresh (node : Node ν) (calls : List Call) :
    node.Unrefreshed calls ∨ ∃ before call after values height,
      calls = before ++ call :: after ∧ (node.run before).Installs call values height ∧
        ((node.run before).step call).Unrefreshed after := by
  induction calls using List.reverseRecOn with
  | nil => exact .inl node.unrefreshed_nil
  | append_singleton calls call ih =>
      by_cases installs : ∃ values height, (node.run calls).Installs call values height
      · obtain ⟨values, height, installs⟩ := installs
        exact .inr ⟨calls, call, [], values, height, rfl, installs, unrefreshed_nil _⟩
      · have idle : ∀ values height, ¬ (node.run calls).Installs call values height :=
          fun values height found => installs ⟨values, height, found⟩
        rcases ih with earlier | ⟨before, last, after, values, height, rfl, came, later⟩
        · exact .inl (unrefreshed_concat earlier idle)
        · refine .inr ⟨before, last, after ++ [call], values, height, by simp, came, ?_⟩
          apply unrefreshed_concat later
          rw [← List.singleton_append, run_append, run_append] at idle
          exact idle

/-- **The law of whole runs.** Start with a cache that was never refreshed, and make any calls on
it while other code changes the store. If no refresh came through all its stages, the snapshot is
made of the overrides alone and has no height. Otherwise it is the map that the last such refresh
fetched, at its height, with the later overrides put over it in order. A call that is neither such
a refresh nor an override that can be encoded leaves the cache as it is. Calls that return an
error, and refreshes whose read of the directory crashes, are of this kind; calls that return
without error are not. -/
theorem snapshot_run (store : Address → Answer) (config : Config) (handlers : List (Handler ν))
    (calls : List Call) :
    let start : Node ν := ⟨store, .create config handlers⟩
    ((start.Unrefreshed calls ∧
        (start.run calls).cache.snapshot = ⟨overwrite .empty calls, none⟩ ∧
        (start.run calls).cache.state = .empty) ∨
      ∃ before call after values height, calls = before ++ call :: after ∧
        (start.run before).Installs call values height ∧
        ((start.run before).step call).Unrefreshed after ∧
        (start.run calls).cache.snapshot = ⟨overwrite values after, some height⟩ ∧
        (start.run calls).cache.state = .ready height) ∧
    ∀ before call after, calls = before ++ call :: after →
      ((∀ values height, ¬ (start.run before).Installs call values height) → call.sets? = none →
        ((start.run before).step call).cache = (start.run before).cache) ∧
      ((start.run before).ending call = .error () →
        (∀ values height, ¬ (start.run before).Installs call values height) ∧ call.sets? = none) ∧
      (∀ message,
        (start.run before).store (start.run before).cache.config.directoryAddress =
            .crash message →
          ∀ values height, ¬ (start.run before).Installs call values height) ∧
      ((start.run before).ending call = .ok () →
        (∀ signals now height, call = .update signals now height →
          ∃ values, (start.run before).Installs call values height) ∧
        ∀ {α : Type} now name (format : Format α) value,
          call = .override now name format value →
            ∃ bytes, format.encode value = .ok bytes ∧ call.sets? = some (name, bytes)) := by
  intro start
  refine ⟨?_, ?_⟩
  · rcases start.unrefreshed_or_last_refresh calls with
      unrefreshed | ⟨before, call, after, values, height, rfl, installs, later⟩
    · have snapshot := snapshot_run_of_unrefreshed unrefreshed
      refine .inl ⟨unrefreshed, snapshot, ?_⟩
      rw [Cache.state, snapshot]
      rfl
    · have snapshot : (start.run (before ++ call :: after)).cache.snapshot =
          ⟨overwrite values after, some height⟩ := by
        rw [← List.singleton_append, run_append, run_append]
        have final := snapshot_run_of_unrefreshed later
        rw [snapshot_step_of_installs installs] at final
        exact final
      refine .inr ⟨before, call, after, values, height, rfl, installs, later, snapshot, ?_⟩
      rw [Cache.state, snapshot]
  · intro before call after _
    refine ⟨cache_step_of_idle, idle_of_ending_error, ?_, fun ok => ⟨?_, ?_⟩⟩
    · intro message crash
      exact not_installs_of_crash crash call
    · rintro signals now height rfl
      exact installs_of_ending ok
    · rintro α now name format value rfl
      exact sets_of_ending ok

end Node

end ChainVariables
