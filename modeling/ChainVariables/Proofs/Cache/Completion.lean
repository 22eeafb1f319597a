import ChainVariables.Proofs.Cache.Refresh

/-! # What a refresh comes to

When all reads answer in time a refresh comes to a result. It succeeds exactly if
the directory is there and every variable of it has a value, and then the snapshot
consists of these values; otherwise its error is that of the first stage that
failed, with what the store answered there
(`ChainVariables.Cache.update_verdict`). The result is announced by an event, and
only a handler of this event can keep the refresh from returning it
(`ChainVariables.Cache.Concludes`). That names and counts are short enough to be
encoded need not be assumed: they were read from the directory.
-/

namespace ChainVariables

namespace Directory

/-- The names and the number of records of a directory that was read fit into its layout. -/
theorem fits_of_ofBytes {bytes : Bytes} {directory : Directory}
    (decoded : Directory.ofBytes bytes = .ok directory) :
    directory.size < UInt32.size ∧ ∀ name relocation, directory.get? name = some relocation →
      (Utf8.encode name).length < UInt32.size := by
  have whole : Directory.format.Writable directory := Format.writable_of_decode decoded
  have records : (Format.map .text Relocation.format).Writable directory.records := whole
  obtain ⟨small, entries⟩ := Format.writable_map_iff.mp records
  refine ⟨small, ?_⟩
  intro name relocation found
  have member := (directory.records.get?_eq_some_iff).mp found
  exact Format.writable_text_iff.mp (entries _ member).1

end Directory

namespace Cache

variable {ν : Type} {config : Config} {world : World} {height : Height}

/-- The values of a directory's variables make a snapshot that has a digest. -/
theorem digest_of_values {directory : Directory} {values : SortedMap String Bytes}
    (holds : world.HoldsDirectory config directory) (short : world.Encodable config height)
    (held : world.Shows directory height values) :
    ∃ digest, (Snapshot.mk values (some height)).digest = .ok digest := by
  obtain ⟨blob, _, decoded⟩ := id holds
  obtain ⟨small, names⟩ := Directory.fits_of_ofBytes decoded
  have recorded (name : String) (bytes : Bytes) (found : values.get? name = some bytes) :
      ∃ relocation, directory.get? name = some relocation := by
    obtain ⟨address, resolved, _⟩ := (held name bytes).mp found
    have present := (Directory.contains_iff_resolve height).mpr ⟨address, resolved⟩
    exact Option.isSome_iff_exists.mp present
  rw [Snapshot.digest_ok_iff, Format.writable_map_iff]
  refine ⟨?_, ?_⟩
  · exact Nat.lt_of_le_of_lt (SortedMap.size_le_of_keys recorded) small
  · rintro ⟨name, bytes⟩ member
    have found := (values.get?_eq_some_iff).mpr member
    obtain ⟨relocation, present⟩ := recorded name bytes found
    obtain ⟨address, resolved, read⟩ := (held name bytes).mp found
    refine ⟨?_, ?_⟩
    · exact Format.writable_text_iff.mpr (names name relocation present)
    · exact Format.writable_bytes_iff.mpr (short directory name address bytes holds resolved read)

/-- With a directory, all of whose reads answer in time, a refresh makes a snapshot of the values
or fails with the answer to one of the reads. -/
theorem prepared_of_directory {directory : Directory}
    (holds : world.HoldsDirectory config directory) (prompt : world.Prompt config height)
    (short : world.Encodable config height) :
    (∃ values digest, prepared config world height = .ok (⟨values, some height⟩, digest) ∧
      world.Serves directory height ∧ world.Shows directory height values) ∨
    ∃ name address source, directory.resolve name height = .ok address ∧
      world.read address = .fault source ∧
      prepared config world height = .error (.fetch (.unavailable name address source)) := by
  have reported := prompt.arrivals directory holds
  have fetching : (fetchVariables config world height).1 = _ := fetchVariables_of_directory holds
  rcases fetch_of_allReport config.timeout reported with
    ⟨values, fetched⟩ | ⟨request, source, requested, found, failed⟩
  · rw [fetched] at fetching
    have possible : Possible True _ _ := reported.possible
    obtain ⟨served, held⟩ := get?_of_fetchVariables holds possible fetching
    obtain ⟨digest, hashed⟩ := digest_of_values holds short held
    refine .inl ⟨values, digest, ?_, served, held⟩
    exact prepared_eq_ok_iff.mpr ⟨values, fetching, rfl, hashed⟩
  · rw [failed] at fetching
    refine .inr ⟨request.name, request.address, source, Directory.mem_requests.mp requested,
      found, prepared_of_error fetching⟩

/-- The event by which a refresh announces what it has come to, and the snapshot it leaves. -/
inductive Announces (world : World) (height : Height) (after : Snapshot) :
    Except UpdateError Unit → Event → Prop where
  | updated {digest : Digest} : after.digest = .ok digest →
      Announces world height after (.ok ()) (.updated world.now height after.size digest)
  | updateFailed (error : UpdateError) :
      Announces world height after (.error error)
        (.updateFailed world.now height error.message)

/-- A refresh announces a result by an event, and returns it exactly if no handler that is told of
the event crashes. -/
def Concludes (cache : Cache ν) (world : World) (height : Height)
    (result : Except UpdateError Unit) : Prop :=
  ∃ event, Announces world height (cache.update world height).2.1.snapshot result event ∧
    (cache.update world height).2.1.ComesTo event (cache.update world height).1 result

/-- What a refresh has to come to: success exactly if the directory can be read and decoded and
every variable of it has a value, and otherwise the error of the stage that failed, which leaves
the cache as it was. -/
structure Verdict (cache : Cache ν) (world : World) (height : Height)
    (result : Except UpdateError Unit) : Prop where
  ends : cache.Concludes world height result
  succeeds_iff : result = .ok () ↔
    ∃ directory, world.HoldsDirectory cache.config directory ∧ world.Serves directory height
  installed : result = .ok () → ∀ directory, world.HoldsDirectory cache.config directory →
    (cache.update world height).2.1.snapshot.height? = some height ∧
      (∀ name, (cache.update world height).2.1.snapshot.values.contains name =
        directory.contains name) ∧
      world.Shows directory height (cache.update world height).2.1.snapshot.values
  unreadable : ∀ error, world.read cache.config.directoryAddress = .fault error →
    result = .error (.fetchDirectory error)
  malformed : ∀ bytes error, world.read cache.config.directoryAddress = .value bytes →
    Directory.ofBytes bytes = .error error → result = .error (.decodeDirectory error)
  unserved : ∀ directory, world.HoldsDirectory cache.config directory →
    ¬ world.Serves directory height →
      ∃ name address source, directory.resolve name height = .ok address ∧
        world.read address = .fault source ∧
        result = .error (.fetch (.unavailable name address source))
  kept : result ≠ .ok () → (cache.update world height).2.1 = cache

section Stages

variable {cache : Cache ν}

theorem concludes_of_error {error : UpdateError}
    (failed : prepared cache.config world height = .error error) :
    cache.Concludes world height (.error error) := by
  rw [Concludes, update_of_error failed]
  exact ⟨_, .updateFailed error, announce_comesTo _ _ (.error error) _⟩

theorem concludes_of_prepared {snapshot : Snapshot} {digest : Digest}
    (ready : prepared cache.config world height = .ok (snapshot, digest)) :
    cache.Concludes world height (.ok ()) := by
  obtain ⟨_, _, _, hashed⟩ := prepared_eq_ok_iff.mp ready
  rw [Concludes, update_of_prepared ready]
  exact ⟨_, .updated hashed, announce_comesTo _ _ (.ok ()) _⟩

theorem kept_of_error {error : UpdateError}
    (failed : prepared cache.config world height = .error error) :
    (cache.update world height).2.1 = cache := by
  rw [cache_of_update, failed]

theorem verdict_of_fault {error : StoreError}
    (refused : world.read cache.config.directoryAddress = .fault error) :
    Verdict cache world height (.error (.fetchDirectory error)) := by
  have failed : prepared cache.config world height = .error (.fetchDirectory error) :=
    prepared_of_error (fetchVariables_of_fault refused)
  refine ⟨concludes_of_error failed, ⟨nofun, ?_⟩, nofun, ?_, ?_, ?_, fun _ => kept_of_error failed⟩
  · intro claimed
    obtain ⟨directory, holds, _⟩ := claimed
    exact absurd refused (holds.read_ne_fault error)
  · intro other refused'
    cases refused.symm.trans refused'
    rfl
  · intro bytes other found
    rw [refused] at found
    cases found
  · intro directory holds _
    exact absurd refused (holds.read_ne_fault error)

theorem verdict_of_malformed {bytes : Bytes} {error : DecodeError}
    (found : world.read cache.config.directoryAddress = .value bytes)
    (malformed : Directory.ofBytes bytes = .error error) :
    Verdict cache world height (.error (.decodeDirectory error)) := by
  have failed : prepared cache.config world height = .error (.decodeDirectory error) :=
    prepared_of_error (fetchVariables_of_malformed found malformed)
  refine ⟨concludes_of_error failed, ⟨nofun, ?_⟩, nofun, ?_, ?_, ?_, fun _ => kept_of_error failed⟩
  · intro claimed
    obtain ⟨directory, holds, _⟩ := claimed
    exact absurd malformed (holds.ofBytes_ne_error found error)
  · intro other refused
    rw [found] at refused
    cases refused
  · intro bytes' other found' malformed'
    cases found.symm.trans found'
    cases malformed.symm.trans malformed'
    rfl
  · intro directory holds _
    exact absurd malformed (holds.ofBytes_ne_error found error)

theorem verdict_of_served {directory : Directory} {values : SortedMap String Bytes}
    {digest : Digest} (holds : world.HoldsDirectory cache.config directory)
    (ready : prepared cache.config world height = .ok (⟨values, some height⟩, digest))
    (served : world.Serves directory height) (held : world.Shows directory height values) :
    Verdict cache world height (.ok ()) := by
  refine ⟨concludes_of_prepared ready, ⟨fun _ => ⟨directory, holds, served⟩, fun _ => rfl⟩,
    ?_, ?_, ?_, ?_, ?_⟩
  · intro _ other holds'
    have same : directory = other := holds.unique holds'
    subst same
    rw [cache_of_update, ready]
    exact ⟨rfl, held.contains_eq served, held⟩
  · intro error refused
    exact absurd refused (holds.read_ne_fault error)
  · intro bytes error found malformed
    exact absurd malformed (holds.ofBytes_ne_error found error)
  · intro other holds' unserved
    have same : directory = other := holds.unique holds'
    subst same
    exact absurd served unserved
  · intro failed
    exact absurd rfl failed

theorem verdict_of_unserved {directory : Directory} {name : String} {address : Address}
    {source : StoreError} (holds : world.HoldsDirectory cache.config directory)
    (resolved : directory.resolve name height = .ok address)
    (lost : world.read address = .fault source)
    (failed : prepared cache.config world height =
      .error (.fetch (.unavailable name address source))) :
    Verdict cache world height (.error (.fetch (.unavailable name address source))) := by
  refine ⟨concludes_of_error failed, ⟨nofun, ?_⟩, nofun, ?_, ?_, ?_, fun _ => kept_of_error failed⟩
  · intro claimed
    obtain ⟨other, holds', served⟩ := claimed
    have same : directory = other := holds.unique holds'
    subst same
    obtain ⟨value, read⟩ := served name address resolved
    rw [lost] at read
    cases read
  · intro error refused
    exact absurd refused (holds.read_ne_fault error)
  · intro bytes error found malformed
    exact absurd malformed (holds.ofBytes_ne_error found error)
  · intro other holds' _
    have same : directory = other := holds.unique holds'
    subst same
    exact ⟨name, address, source, resolved, lost, rfl⟩

end Stages

/-- **The meaning of a refresh.** When all reads answer in time, a refresh comes to a result, and
that is what the directory and the values at the addresses it resolves make of it. The refresh
returns the result exactly if no handler that is told of it crashes. -/
theorem update_verdict (cache : Cache ν) (world : World) (height : Height)
    (prompt : world.Prompt cache.config height) (short : world.Encodable cache.config height) :
    ∃ result, Verdict cache world height result := by
  rcases prompt.directory with found | refused
  · obtain ⟨bytes, found⟩ := found
    cases decoded : Directory.ofBytes bytes with
    | ok directory =>
        have holds : world.HoldsDirectory cache.config directory := ⟨bytes, found, decoded⟩
        rcases prepared_of_directory holds prompt short with success | failure
        · obtain ⟨values, digest, ready, served, held⟩ := success
          exact ⟨_, verdict_of_served holds ready served held⟩
        · obtain ⟨name, address, source, resolved, lost, failed⟩ := failure
          exact ⟨_, verdict_of_unserved holds resolved lost failed⟩
    | error error => exact ⟨_, verdict_of_malformed found decoded⟩
  · obtain ⟨error, refused⟩ := refused
    exact ⟨_, verdict_of_fault refused⟩

/-- A directory out of order, a variable named twice, a move that has taken effect, values that
arrive in reverse, and a handler that would crash if the refresh failed. -/
theorem update_verdict_disorderly :
    let cache : Cache Unit :=
      { config := { directoryAddress := ⟨[9], []⟩, timeout := ⟨5⟩ }
        handlers := [⟨.updateFailed, fun _ _ => { crash? := some "boom" }⟩]
        snapshot := Snapshot.empty.override "tax" [1] }
    let world := World.ofMemory World.disorderly List.reverse ⟨1⟩
    let next := (cache.update world (.mk 6)).2.1
    world.Prompt cache.config (.mk 6) ∧ world.Encodable cache.config (.mk 6) ∧
      (cache.update world (.mk 6)).1 = .ok () ∧ next.snapshot.height? = some (.mk 6) ∧
      next.getRaw? "fee" = some [10, 0] ∧ next.getRaw? "gas" = some [20] ∧
      next.getRaw? "tax" = none := by
  intro cache world next
  have prompt : world.Prompt cache.config (.mk 6) :=
    World.prompt_ofMemory (fun _ => List.reverse_perm _) _ _
  have short : world.Encodable cache.config (.mk 6) := World.encodable_ofMemory (by decide) _ _
  let directory : Directory := .ofList [
    ("fee", ⟨⟨[2], [4]⟩, ⟨[2], [7]⟩, .mk 5⟩), ("gas", ⟨⟨[2], [5]⟩, ⟨[2], [6]⟩, .mk 3⟩)]
  have holds : world.HoldsDirectory cache.config directory := ⟨_, rfl, rfl⟩
  obtain ⟨result, verdict⟩ := update_verdict cache world (.mk 6) prompt short
  obtain ⟨event, _, comes⟩ := verdict.ends
  obtain ⟨reached, _, shown⟩ := verdict.installed (comes.eq_ok rfl) directory holds
  refine ⟨prompt, short, rfl, reached, ?_, ?_, ?_⟩
  · exact (shown "fee" [10, 0]).mpr ⟨⟨[2], [7]⟩, rfl, rfl⟩
  · exact (shown "gas" [20]).mpr ⟨⟨[2], [6]⟩, rfl, rfl⟩
  · apply Option.eq_none_iff_forall_ne_some.mpr
    intro bytes found
    obtain ⟨address, resolved, _⟩ := (shown "tax" bytes).mp found
    cases resolved

end Cache

end ChainVariables
