import ChainVariables.Proofs.Cache.Refresh

/-! # Agreement of independent caches

Two caches that refresh at the same height, each over a store of its own, end
with the same snapshot exactly if their directories name the same variables and
the stores hold the same bytes at the addresses that each directory resolves
(`ChainVariables.Cache.snapshot_eq_iff_of_update`). Nothing else enters: not what
the caches held before, nor the order in which values arrived, nor the bytes of
the directories. Equal snapshots are announced alike.
-/

namespace ChainVariables

/-- A handler that notes the events of a kind. -/
def Handler.recorder (kind : EventKind) : Handler Event :=
  ⟨kind, fun event _ => { notes := [event] }⟩

namespace Cache

variable {ν μ : Type}

/-- The same cache with handlers that note the events of every kind. -/
def observed (cache : Cache ν) : Cache Event where
  config := cache.config
  handlers := [.recorder .updated, .recorder .updateFailed, .recorder .overridden]
  snapshot := cache.snapshot

/-- The events that a refresh announces. -/
def announced (cache : Cache ν) (world : World) (height : Height) : List Event :=
  (cache.observed.update world height).2.2.notes

theorem announced_of_prepared {cache : Cache ν} {world : World} {height : Height}
    {snapshot : Snapshot} {digest : Digest}
    (ready : prepared cache.config world height = .ok (snapshot, digest)) :
    cache.announced world height = [.updated world.now height snapshot.size digest] := by
  have observing : prepared cache.observed.config world height = .ok (snapshot, digest) := ready
  rw [announced, update_of_prepared observing]
  rfl

/-- What a refresh that returned without error leaves behind. -/
theorem snapshot_of_update_eq_ok {cache : Cache ν} {world : World} {height : Height}
    (steady : world.Steady) (ok : (cache.update world height).1 = .ok ()) :
    ∃ directory values digest, world.HoldsDirectory cache.config directory ∧
      (cache.update world height).2.1.snapshot = ⟨values, some height⟩ ∧
      (Snapshot.mk values (some height)).digest = .ok digest ∧
      cache.announced world height =
        [.updated world.now height (Snapshot.mk values (some height)).size digest] ∧
      world.Serves directory height ∧ world.Shows directory height values := by
  obtain ⟨values, digest, fetched, ready⟩ := prepared_of_update_eq_ok ok
  obtain ⟨_, _, _, hashed⟩ := prepared_eq_ok_iff.mp ready
  obtain ⟨directory, holds, _⟩ := fetchVariables_eq_ok_iff.mp fetched
  obtain ⟨served, held⟩ := get?_of_fetchVariables holds (steady _) fetched
  refine ⟨directory, values, digest, holds, ?_, hashed, announced_of_prepared ready, served, held⟩
  rw [cache_of_update, ready]

/-- Directories that name the same variables, at addresses with the same bytes, show the same. -/
theorem get?_of_same {world world' : World} {height : Height} {directory directory' : Directory}
    {values values' : SortedMap String Bytes}
    (held : world.Shows directory height values)
    (held' : world'.Shows directory' height values')
    (names : ∀ name, directory.contains name = directory'.contains name)
    (same : ∀ name address address', directory.resolve name height = .ok address →
      directory'.resolve name height = .ok address' →
        ∃ bytes, world.read address = .value bytes ∧ world'.read address' = .value bytes)
    {name : String} {bytes : Bytes} (found : values.get? name = some bytes) :
    values'.get? name = some bytes := by
  obtain ⟨address, resolved, read⟩ := (held name bytes).mp found
  have present : directory'.contains name = true := by
    rw [← names]
    exact (Directory.contains_iff_resolve height).mpr ⟨address, resolved⟩
  obtain ⟨address', resolved'⟩ := (Directory.contains_iff_resolve height).mp present
  obtain ⟨common, read₁, read₂⟩ := same name address address' resolved resolved'
  cases read.symm.trans read₁
  exact (held' name bytes).mpr ⟨address', resolved', read₂⟩

/-- **Agreement.** Two refreshes at one height, of any two caches over any two steady stores, make
the same snapshot exactly if the two directories name the same variables and every variable has
the same bytes at the addresses they resolve. Equal snapshots have the same digest, and the
events that announce them tell the same size and digest. -/
theorem snapshot_eq_iff_of_update (first : Cache ν) (second : Cache μ) (world world' : World)
    (height : Height) (steady : world.Steady) (steady' : world'.Steady)
    (ok : (first.update world height).1 = .ok ()) (ok' : (second.update world' height).1 = .ok ()) :
    ∃ directory directory',
      world.HoldsDirectory first.config directory ∧
      world'.HoldsDirectory second.config directory' ∧
      ((first.update world height).2.1.snapshot = (second.update world' height).2.1.snapshot ↔
        (∀ name, directory.contains name = directory'.contains name) ∧
        ∀ name address address', directory.resolve name height = .ok address →
          directory'.resolve name height = .ok address' →
            ∃ bytes, world.read address = .value bytes ∧ world'.read address' = .value bytes) ∧
      ((first.update world height).2.1.snapshot = (second.update world' height).2.1.snapshot →
        ∃ size digest,
          (first.update world height).2.1.digest = .ok digest ∧
          (second.update world' height).2.1.digest = .ok digest ∧
          first.announced world height = [.updated world.now height size digest] ∧
          second.announced world' height = [.updated world'.now height size digest]) := by
  obtain ⟨directory, values, digest, holds, installed, hashed, fired, served, held⟩ :=
    snapshot_of_update_eq_ok steady ok
  obtain ⟨directory', values', digest', holds', installed', hashed', fired', served', held'⟩ :=
    snapshot_of_update_eq_ok steady' ok'
  refine ⟨directory, directory', holds, holds', ?_, ?_⟩
  · rw [installed, installed', Snapshot.mk.injEq, and_iff_left rfl]
    refine ⟨?_, ?_⟩
    · intro equal
      subst equal
      refine ⟨?_, ?_⟩
      · intro name
        rw [← held.contains_eq served, ← held'.contains_eq served']
      · intro name address address' resolved resolved'
        obtain ⟨bytes, found⟩ := served name address resolved
        have value := (held name bytes).mpr ⟨address, resolved, found⟩
        obtain ⟨other, resolved'', found'⟩ := (held' name bytes).mp value
        cases resolved'.symm.trans resolved''
        exact ⟨bytes, found, found'⟩
    · intro alike
      obtain ⟨names, same⟩ := alike
      apply SortedMap.ext_get?
      intro name
      apply Option.ext
      intro bytes
      refine ⟨?_, ?_⟩
      · exact get?_of_same held held' names same
      · apply get?_of_same held' held fun name => (names name).symm
        intro name address' address resolved' resolved
        obtain ⟨bytes, found, found'⟩ := same name address address' resolved resolved'
        exact ⟨bytes, found', found⟩
  · intro equal
    rw [installed, installed'] at equal
    cases equal
    cases hashed.symm.trans hashed'
    refine ⟨_, digest, ?_, ?_, fired, fired'⟩
    · rw [Cache.digest, installed, hashed]
    · rw [Cache.digest, installed', hashed]

/-- Two caches that agree although one held an override, their values arrive in opposite orders,
and their directories differ in every byte but the names. -/
theorem announced_alike_two_stores :
    let first : Cache Unit := .create { timeout := ⟨1000⟩ } []
    let second : Cache Unit :=
      { config := { directoryAddress := ⟨[9], []⟩, timeout := ⟨5⟩ }
        handlers := []
        snapshot := Snapshot.empty.override "tax" [1] }
    let world := World.ofMemory World.orderly id ⟨0⟩
    let world' := World.ofMemory World.disorderly List.reverse ⟨1⟩
    world.Steady ∧ world'.Steady ∧
      (first.update world (.mk 6)).1 = .ok () ∧ (second.update world' (.mk 6)).1 = .ok () ∧
      ∃ size digest, first.announced world (.mk 6) = [.updated ⟨0⟩ (.mk 6) size digest] ∧
        second.announced world' (.mk 6) = [.updated ⟨1⟩ (.mk 6) size digest] := by
  intro first second world world'
  have steady : world.Steady := World.steady_ofMemory fun _ => List.Perm.refl _
  have steady' : world'.Steady := World.steady_ofMemory fun _ => List.reverse_perm _
  have ok : (first.update world (.mk 6)).1 = .ok () := rfl
  have ok' : (second.update world' (.mk 6)).1 = .ok () := rfl
  obtain ⟨_, _, _, _, _, alike⟩ :=
    snapshot_eq_iff_of_update first second world world' (.mk 6) steady steady' ok ok'
  obtain ⟨size, digest, _, _, fired, fired'⟩ := alike rfl
  exact ⟨steady, steady', ok, ok', size, digest, fired, fired'⟩

end Cache

end ChainVariables
