import ChainVariables.Proofs.Cache.World
import ChainVariables.Proofs.Codec.Writable

/-! # The stages of a refresh

A refresh reads and decodes a directory, fetches what it requests, and makes a
snapshot of the values. It replaces the snapshot of its cache if it comes through
all stages and leaves the cache as it was otherwise
(`ChainVariables.Cache.cache_of_update`).
If the store does not change meanwhile, the snapshot maps every name of the
directory to the bytes at the address it resolves to
(`ChainVariables.Cache.get?_of_fetchVariables`).
-/

namespace ChainVariables

namespace Snapshot

/-- A snapshot has a digest unless it is too large to be encoded. -/
theorem digest_ok_iff {snapshot : Snapshot} :
    (∃ digest, snapshot.digest = .ok digest) ↔
      (Format.map .text .bytes).Writable snapshot.values := by
  rw [← Format.encode_ok_iff]
  unfold digest canonicalBytes
  cases (Format.map .text .bytes).encode snapshot.values with
  | ok written => exact ⟨fun _ => ⟨written, rfl⟩, fun _ => ⟨_, rfl⟩⟩
  | error reason => exact ⟨nofun, nofun⟩
  | crashed message => exact ⟨nofun, nofun⟩
  | waiting => exact ⟨nofun, nofun⟩

theorem digest_ne_crashed (snapshot : Snapshot) (message : String) :
    snapshot.digest ≠ .crashed message := by
  have limited := Format.sizeLimited_map Format.sizeLimited_text Format.sizeLimited_bytes
  unfold digest canonicalBytes
  rcases limited.encode_cases snapshot.values with ⟨written, encoded⟩ | refused
  · rw [encoded]
    exact nofun
  · rw [refused]
    exact nofun

end Snapshot

/-- What crashes in the course of a fetch never crashes the fetch. -/
theorem fetch_ne_crashed (requests : List Request) (limit : Duration) (signals : List Signal)
    (message : String) : (fetch requests limit signals).1 ≠ .crashed message := by
  intro crashed
  simp only [fetch] at crashed
  cases ended : (Progress.run requests.length limit (.start requests.length) signals).1 with
  | collecting received values =>
      rw [ended] at crashed
      cases crashed
  | settled result =>
      rw [ended] at crashed
      cases result <;> cases crashed

namespace Handler

variable {ν : Type}

/-- The message of the crash, if the handler is told of the event and crashes. -/
def crashOn? (handler : Handler ν) (event : Event) (snapshot : Snapshot) : Option String :=
  if handler.kind = event.kind then (handler.react event snapshot).crash? else none

/-- The first handler to crash ends the delivery of an event. -/
theorem crash?_fire (handlers : List (Handler ν)) (event : Event) (snapshot : Snapshot) :
    (fire handlers event snapshot).crash? = handlers.findSome? (·.crashOn? event snapshot) := by
  induction handlers with
  | nil => rfl
  | cons handler rest ih =>
      unfold fire at ih ⊢
      rw [List.filter_cons, List.findSome?_cons, ← ih, crashOn?]
      simp only [beq_iff_eq]
      by_cases told : handler.kind = event.kind
      · rw [if_pos told, if_pos told, callAll]
        cases crash : (handler.react event snapshot).crash? with
        | some message => exact crash
        | none => rfl
      · rw [if_neg told, if_neg told]

end Handler

namespace Cache

variable {ν : Type} {config : Config} {world : World} {height : Height}

/-! ## Fetching the variables -/

theorem fetchVariables_of_fault {error : StoreError}
    (failed : world.read config.directoryAddress = .fault error) :
    (fetchVariables config world height).1 = .error (.fetchDirectory error) := by
  simp only [fetchVariables, failed]

theorem fetchVariables_of_malformed {bytes : Bytes} {error : DecodeError}
    (found : world.read config.directoryAddress = .value bytes)
    (malformed : Directory.ofBytes bytes = .error error) :
    (fetchVariables config world height).1 = .error (.decodeDirectory error) := by
  simp only [fetchVariables, found, malformed]

theorem fetchVariables_of_directory {directory : Directory}
    (holds : world.HoldsDirectory config directory) :
    (fetchVariables config world height).1 =
      (fetch (directory.requests height) config.timeout
        (world.signals (directory.requests height))).1.mapError .fetch := by
  obtain ⟨bytes, found, decoded⟩ := holds
  simp only [fetchVariables, found, decoded]

/-- Values are fetched only if the directory is there and the fetch of its requests succeeds. -/
theorem fetchVariables_eq_ok_iff {values : SortedMap String Bytes} :
    (fetchVariables config world height).1 = .ok values ↔
      ∃ directory, world.HoldsDirectory config directory ∧
        (fetch (directory.requests height) config.timeout
          (world.signals (directory.requests height))).1 = .ok values := by
  refine ⟨?_, ?_⟩
  · intro fetched
    cases found : world.read config.directoryAddress with
    | value bytes =>
        cases decoded : Directory.ofBytes bytes with
        | ok directory =>
            have holds : world.HoldsDirectory config directory := ⟨bytes, found, decoded⟩
            rw [fetchVariables_of_directory holds] at fetched
            refine ⟨directory, holds, ?_⟩
            cases ended : (fetch (directory.requests height) config.timeout
              (world.signals (directory.requests height))).1 <;> rw [ended] at fetched <;>
              simp_all [Outcome.mapError]
        | error error => simp [fetchVariables_of_malformed found decoded] at fetched
    | fault error => simp [fetchVariables_of_fault found] at fetched
    | crash message => simp [fetchVariables, found] at fetched
    | silent => simp [fetchVariables, found] at fetched
  · intro fetched
    obtain ⟨directory, holds, fetched⟩ := fetched
    rw [fetchVariables_of_directory holds, fetched]
    rfl

theorem fetchVariables_eq_crashed_iff {message : String} :
    (fetchVariables config world height).1 = .crashed message ↔
      world.read config.directoryAddress = .crash message := by
  refine ⟨?_, ?_⟩
  · intro crashed
    cases found : world.read config.directoryAddress with
    | value bytes =>
        cases decoded : Directory.ofBytes bytes with
        | ok directory =>
            rw [fetchVariables_of_directory ⟨bytes, found, decoded⟩] at crashed
            cases ended : (fetch (directory.requests height) config.timeout
              (world.signals (directory.requests height))).1 with
            | crashed text => exact absurd ended (fetch_ne_crashed _ _ _ _)
            | _ => rw [ended] at crashed; cases crashed
        | error error =>
            rw [fetchVariables_of_malformed found decoded] at crashed
            cases crashed
    | fault error =>
        rw [fetchVariables_of_fault found] at crashed
        cases crashed
    | crash text =>
        simp only [fetchVariables, found] at crashed
        cases crashed
        rfl
    | silent =>
        simp only [fetchVariables, found] at crashed
        cases crashed
  · intro crash
    simp only [fetchVariables, crash]

/-- **What a refresh fetches.** If the store does not change meanwhile, every variable of the
directory is there and has the bytes at the address it resolves to. -/
theorem get?_of_fetchVariables {limited : Prop} {directory : Directory}
    {values : SortedMap String Bytes} (holds : world.HoldsDirectory config directory)
    (possible : Possible limited (readsOf world.read (directory.requests height))
      (world.signals (directory.requests height)))
    (fetched : (fetchVariables config world height).1 = .ok values) :
    world.Serves directory height ∧ world.Shows directory height values := by
  obtain ⟨other, holds', fetched⟩ := fetchVariables_eq_ok_iff.mp fetched
  obtain rfl := holds.unique holds'
  obtain ⟨served, held⟩ := get?_of_fetch_ok (directory.requests_nodup height) possible fetched
  refine ⟨?_, ?_⟩
  · intro name address resolved
    exact served ⟨name, address⟩ (Directory.mem_requests.mpr resolved)
  · intro name bytes
    rw [held]
    refine ⟨?_, ?_⟩
    · intro answered
      obtain ⟨request, requested, rfl, found⟩ := answered
      exact ⟨request.address, Directory.mem_requests.mp requested, found⟩
    · intro answered
      obtain ⟨address, resolved, found⟩ := answered
      exact ⟨⟨name, address⟩, Directory.mem_requests.mpr resolved, rfl, found⟩

/-! ## Making the snapshot -/

/-- What a refresh would put in place of the snapshot of its cache. -/
def prepared (config : Config) (world : World) (height : Height) :
    Outcome UpdateError (Snapshot × Digest) :=
  assemble height (fetchVariables config world height).1

theorem prepared_of_error {error : UpdateError}
    (failed : (fetchVariables config world height).1 = .error error) :
    prepared config world height = .error error := by
  unfold prepared
  rw [failed]
  rfl

theorem assemble_ok (height : Height) (values : SortedMap String Bytes) :
    assemble height (.ok values) =
      ((Snapshot.mk values (some height)).digest.mapError UpdateError.encodeSnapshot).bind
        fun digest => .ok (⟨values, some height⟩, digest) := rfl

/-- A refresh gets as far as a new snapshot if values are fetched and can be encoded. -/
theorem prepared_eq_ok_iff {snapshot : Snapshot} {digest : Digest} :
    prepared config world height = .ok (snapshot, digest) ↔
      ∃ values, (fetchVariables config world height).1 = .ok values ∧
        snapshot = ⟨values, some height⟩ ∧ snapshot.digest = .ok digest := by
  unfold prepared
  cases (fetchVariables config world height).1 with
  | ok values =>
      rw [assemble_ok]
      refine ⟨?_, ?_⟩
      · intro ended
        cases hashed : (Snapshot.mk values (some height)).digest <;> rw [hashed] at ended <;>
          cases ended
        exact ⟨values, rfl, rfl, hashed⟩
      · intro assembled
        obtain ⟨_, ⟨⟩, rfl, hashed⟩ := assembled
        rw [hashed]
        rfl
  | error error => exact ⟨nofun, nofun⟩
  | crashed message => exact ⟨nofun, nofun⟩
  | waiting => exact ⟨nofun, nofun⟩

/-- A refresh crashes by itself only in the read of the directory. -/
theorem prepared_eq_crashed_iff {message : String} :
    prepared config world height = .crashed message ↔
      world.read config.directoryAddress = .crash message := by
  rw [← @fetchVariables_eq_crashed_iff config world height]
  unfold prepared
  cases (fetchVariables config world height).1 with
  | ok values =>
      rw [assemble_ok]
      refine ⟨?_, nofun⟩
      intro crashed
      cases hashed : (Snapshot.mk values (some height)).digest with
      | crashed text => exact absurd hashed (Snapshot.digest_ne_crashed _ _)
      | _ => rw [hashed] at crashed; cases crashed
  | error error => exact ⟨nofun, nofun⟩
  | crashed text => exact ⟨fun same => by cases same; rfl, fun same => by cases same; rfl⟩
  | waiting => exact ⟨nofun, nofun⟩

/-! ## Replacing the snapshot -/

variable {cache : Cache ν}

/-- A refresh that comes through all stages replaces the snapshot and announces it. -/
theorem update_of_prepared {snapshot : Snapshot} {digest : Digest}
    (ready : prepared cache.config world height = .ok (snapshot, digest)) :
    cache.update world height = { cache with snapshot := snapshot }.announce
      (.updated world.now height snapshot.size digest) (.ok ())
      { reads := (fetchVariables cache.config world height).2.1
        logs := (fetchVariables cache.config world height).2.2 } := by
  unfold prepared at ready
  simp only [update, ready]

/-- A refresh that fails announces the failure and leaves the cache as it is. -/
theorem update_of_error {error : UpdateError}
    (failed : prepared cache.config world height = .error error) :
    cache.update world height = cache.announce
      (.updateFailed world.now height error.message) (.error error)
      { reads := (fetchVariables cache.config world height).2.1
        logs := (fetchVariables cache.config world height).2.2 } := by
  unfold prepared at failed
  simp only [update, failed]

theorem update_of_crashed {message : String}
    (crashed : prepared cache.config world height = .crashed message) :
    cache.update world height = (.crashed message, cache,
      { reads := (fetchVariables cache.config world height).2.1
        logs := (fetchVariables cache.config world height).2.2 }) := by
  unfold prepared at crashed
  simp only [update, crashed]

theorem update_of_waiting
    (waiting : prepared cache.config world height = .waiting) :
    cache.update world height = (.waiting, cache,
      { reads := (fetchVariables cache.config world height).2.1
        logs := (fetchVariables cache.config world height).2.2 }) := by
  unfold prepared at waiting
  simp only [update, waiting]

/-- The cache after a refresh has the new snapshot if there is one, and is the old one if not. -/
theorem cache_of_update (cache : Cache ν) (world : World) (height : Height) :
    (cache.update world height).2.1 =
      match prepared cache.config world height with
      | .ok (snapshot, _) => { cache with snapshot := snapshot }
      | _ => cache := by
  cases ended : prepared cache.config world height with
  | ok ready => rw [update_of_prepared ended]; rfl
  | error error => rw [update_of_error ended]; rfl
  | crashed message => rw [update_of_crashed ended]
  | waiting => rw [update_of_waiting ended]

theorem announce_eq_ok {ε : Type} {event : Event} {ending : Outcome ε Unit} {effects : Effects ν}
    (ok : (cache.announce event ending effects).1 = .ok ()) : ending = .ok () := by
  simp only [announce] at ok
  split at ok
  · cases ok
  · exact ok

/-- A refresh that returns without error has come through all stages. -/
theorem prepared_of_update_eq_ok (ok : (cache.update world height).1 = .ok ()) :
    ∃ values digest, (fetchVariables cache.config world height).1 = .ok values ∧
      prepared cache.config world height = .ok (⟨values, some height⟩, digest) := by
  cases ended : prepared cache.config world height with
  | ok ready =>
      obtain ⟨snapshot, digest⟩ := ready
      obtain ⟨values, fetched, rfl, _⟩ := prepared_eq_ok_iff.mp ended
      exact ⟨values, digest, fetched, rfl⟩
  | error error =>
      rw [update_of_error ended] at ok
      cases announce_eq_ok ok
  | crashed message =>
      rw [update_of_crashed ended] at ok
      cases ok
  | waiting =>
      rw [update_of_waiting ended] at ok
      cases ok

/-! ## Ending the call -/

/-- A call comes to a result and announces it by an event: it returns the result, unless a handler
that is told of the event crashes. It ends with the crash of the first one that does. -/
def ComesTo {ε : Type} (cache : Cache ν) (event : Event) (outcome : Outcome ε Unit)
    (result : Except ε Unit) : Prop :=
  outcome = (cache.handlers.findSome? (·.crashOn? event cache.snapshot)).elim
    (.ofExcept result) .crashed

theorem ComesTo.eq_ok {ε : Type} {cache : Cache ν} {event : Event} {outcome : Outcome ε Unit}
    {result : Except ε Unit} (comes : cache.ComesTo event outcome result)
    (ok : outcome = .ok ()) : result = .ok () := by
  rw [ComesTo, ok] at comes
  cases crash : cache.handlers.findSome? (·.crashOn? event cache.snapshot) with
  | some message =>
      rw [crash] at comes
      cases comes
  | none =>
      rw [crash] at comes
      cases result with
      | ok _ => rfl
      | error _ => cases comes

/-- Only a handler keeps a call from returning the result that it announces. -/
theorem announce_comesTo {ε : Type} (cache : Cache ν) (event : Event) (result : Except ε Unit)
    (effects : Effects ν) :
    cache.ComesTo event (cache.announce event (.ofExcept result) effects).1 result := by
  rw [ComesTo, ← Handler.crash?_fire]
  simp only [announce]
  cases (Handler.fire cache.handlers event cache.snapshot).crash? with
  | some message => rfl
  | none => rfl

end Cache

end ChainVariables
