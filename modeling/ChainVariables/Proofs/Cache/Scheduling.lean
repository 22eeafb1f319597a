import ChainVariables.Proofs.Cache.Agreement
import ChainVariables.Proofs.Codec.RoundTrip
import ChainVariables.Proofs.Directory.Announcement

/-! # Scheduling does not fork a height

Nodes may refresh at a height before or after moves were scheduled at that very
height. The directory they read is then not the same, but every variable that
was in it already has the same bytes in both snapshots
(`ChainVariables.Cache.getRaw?_eq_of_rescheduled`): the moves only concern
heights above.
-/

namespace ChainVariables

namespace World

/-- The store is the same before and after, except that the directory at an address is replaced by
another one. -/
structure Rescheduled (before after : World) (address : Address) (directory next : Directory) :
    Prop where
  held : ∃ bytes, directory.toBytes = .ok bytes ∧ before.read address = .value bytes
  written : ∃ bytes, next.toBytes = .ok bytes ∧ after.read address = .value bytes
  elsewhere : ∀ other, other ≠ address → after.read other = before.read other

/-- A store that holds the encoding of a directory holds the directory. -/
theorem HoldsDirectory.of_toBytes {world : World} {config : Config} {directory : Directory}
    (held : ∃ bytes, directory.toBytes = .ok bytes ∧
      world.read config.directoryAddress = .value bytes) :
    world.HoldsDirectory config directory := by
  obtain ⟨bytes, encoded, found⟩ := held
  exact ⟨bytes, found, Format.decode_of_encode encoded⟩

/-- Writing a directory to a store in memory replaces the directory and nothing else. -/
theorem rescheduled_ofMemory {store : MemoryStore} {arrange arrange' : List Request → List Request}
    {now now' : Timestamp} {address : Address} {directory next : Directory} {bytes written : Bytes}
    (encoded : directory.toBytes = .ok bytes) (found : store.get? address = some bytes)
    (encoded' : next.toBytes = .ok written) :
    Rescheduled (ofMemory store arrange now) (ofMemory (store.set address written) arrange' now')
      address directory next where
  held := by
    refine ⟨bytes, encoded, ?_⟩
    simp only [ofMemory, MemoryStore.answer, MemoryStore.get, found]
  written := by
    have set : (store.set address written).get? address = some written :=
      store.get?_set_self address written
    refine ⟨written, encoded', ?_⟩
    simp only [ofMemory, MemoryStore.answer, MemoryStore.get, set]
  elsewhere := by
    intro other different
    have same := store.get?_set_of_ne written different
    simp only [ofMemory, MemoryStore.answer, MemoryStore.get, same]

end World

namespace Cache

variable {ν μ : Type}

/-- Refreshes that resolve a variable to the same address, where both stores answer alike, give it
the same bytes. -/
theorem getRaw?_eq_of_resolve {first : Cache ν} {second : Cache μ} {world world' : World}
    {height : Height} {directory directory' : Directory} (steady : world.Steady)
    (steady' : world'.Steady) (holds : world.HoldsDirectory first.config directory)
    (holds' : world'.HoldsDirectory second.config directory')
    (ok : (first.update world height).1 = .ok ()) (ok' : (second.update world' height).1 = .ok ())
    {name : String} {address : Address} (resolved : directory.resolve name height = .ok address)
    (resolved' : directory'.resolve name height = .ok address)
    (same : world'.read address = world.read address) :
    ∃ bytes, (first.update world height).2.1.getRaw? name = some bytes ∧
      (second.update world' height).2.1.getRaw? name = some bytes := by
  obtain ⟨_, values, _, read, installed, _, _, served, held⟩ := snapshot_of_update_eq_ok steady ok
  obtain ⟨_, values', _, read', installed', _, _, _, held'⟩ :=
    snapshot_of_update_eq_ok steady' ok'
  obtain rfl := holds.unique read
  obtain rfl := holds'.unique read'
  obtain ⟨bytes, found⟩ := served name address resolved
  have value : values.get? name = some bytes := (held name bytes).mpr ⟨address, resolved, found⟩
  have value' : values'.get? name = some bytes :=
    (held' name bytes).mpr ⟨address, resolved', same.trans found⟩
  refine ⟨bytes, ?_, ?_⟩
  · rw [getRaw?, installed]
    exact value
  · rw [getRaw?, installed']
    exact value'

/-- **Scheduling does not fork a height.** Let any moves be proposed at a height. Every variable of
the directory resolves at that height as before. And if one cache refreshes at the height from a
store with the directory, another from the same store with the resulting directory written back,
and both succeed, then both have the same bytes for every variable of the directory. The variables
must not be kept at the address of the directory itself. -/
theorem getRaw?_eq_of_rescheduled (directory : Directory) (height : Height)
    (proposals : List Directory.Proposal) :
    (∀ name, directory.contains name = true →
      (directory.propose height proposals).resolve name height = directory.resolve name height) ∧
    ∀ (first : Cache ν) (second : Cache μ) (world world' : World),
      second.config.directoryAddress = first.config.directoryAddress →
      world.Rescheduled world' first.config.directoryAddress directory
        (directory.propose height proposals) →
      (∀ name, directory.resolve name height ≠ .ok first.config.directoryAddress) →
      world.Steady → world'.Steady →
      (first.update world height).1 = .ok () → (second.update world' height).1 = .ok () →
      ∀ name, directory.contains name = true →
        ∃ bytes, (first.update world height).2.1.getRaw? name = some bytes ∧
          (second.update world' height).2.1.getRaw? name = some bytes := by
  refine ⟨?_, ?_⟩
  · intro name present
    obtain ⟨address, resolved⟩ := (Directory.contains_iff_resolve height).mp present
    rw [resolved]
    exact Directory.resolve_propose proposals resolved
  · intro first second world world' shared rescheduled apart steady steady' ok ok' name present
    obtain ⟨address, resolved⟩ := (Directory.contains_iff_resolve height).mp present
    have resolved' : (directory.propose height proposals).resolve name height = .ok address :=
      Directory.resolve_propose proposals resolved
    have outside : address ≠ first.config.directoryAddress :=
      fun same => apart name (same ▸ resolved)
    have holds : world.HoldsDirectory first.config directory := .of_toBytes rescheduled.held
    have holds' : world'.HoldsDirectory second.config (directory.propose height proposals) :=
      .of_toBytes (shared ▸ rescheduled.written)
    exact getRaw?_eq_of_resolve steady steady' holds holds' ok ok' resolved resolved'
      (rescheduled.elsewhere address outside)

/-- Two variables, one of which is to move at height 7. -/
def twoVariables : Directory := .ofList [
  ("fee", ⟨⟨[1], [1]⟩, ⟨[1], [2]⟩, .ofUInt64 7⟩), ("gas", ⟨⟨[1], [3]⟩, ⟨[1], [3]⟩, .ofUInt64 1⟩)]

/-- At height 6 the pending move is replaced twice, with one proposal refused in between, the
variable that has moved is to move again, and one is new. -/
def crowdedProposals : List Directory.Proposal := [
  ⟨"fee", ⟨[1], [9]⟩, .ofUInt64 7⟩, ⟨"fee", ⟨[1], [8]⟩, .ofUInt64 6⟩,
  ⟨"gas", ⟨[1], [5]⟩, .ofUInt64 9⟩, ⟨"tax", ⟨[1], [3]⟩, .ofUInt64 8⟩,
  ⟨"fee", ⟨[1], [2]⟩, .ofUInt64 12⟩]

/-- The store of the two variables with the directory that the proposals lead to. -/
def crowdedStore : MemoryStore :=
  World.orderly.set defaultDirectoryAddress (World.layOut [
    ("fee", ⟨⟨[1], [1]⟩, ⟨[1], [2]⟩, .ofUInt64 12⟩),
    ("gas", ⟨⟨[1], [3]⟩, ⟨[1], [5]⟩, .ofUInt64 9⟩),
    ("tax", ⟨⟨[1], [3]⟩, ⟨[1], [3]⟩, .ofUInt64 8⟩)])

theorem getRaw?_eq_of_crowdedProposals :
    let first : Cache Unit := .create { timeout := ⟨1000⟩ } []
    let second : Cache Unit :=
      { config := { timeout := ⟨5⟩, logEvents := false }
        handlers := []
        snapshot := Snapshot.empty.override "fee" [1] }
    let world := World.ofMemory World.orderly id ⟨0⟩
    let world' := World.ofMemory crowdedStore List.reverse ⟨1⟩
    world.Rescheduled world' defaultDirectoryAddress twoVariables
        (twoVariables.propose (.mk 6) crowdedProposals) ∧
      (first.update world (.mk 6)).1 = .ok () ∧ (second.update world' (.mk 6)).1 = .ok () ∧
      ∃ bytes, (first.update world (.mk 6)).2.1.getRaw? "fee" = some bytes ∧
        (second.update world' (.mk 6)).2.1.getRaw? "fee" = some bytes := by
  intro first second world world'
  have rescheduled : world.Rescheduled world' defaultDirectoryAddress twoVariables
      (twoVariables.propose (.mk 6) crowdedProposals) := World.rescheduled_ofMemory rfl rfl rfl
  have steady : world.Steady := World.steady_ofMemory fun _ => List.Perm.refl _
  have steady' : world'.Steady := World.steady_ofMemory fun _ => List.reverse_perm _
  have ok : (first.update world (.mk 6)).1 = .ok () := rfl
  have ok' : (second.update world' (.mk 6)).1 = .ok () := rfl
  have requests : ∀ request ∈ twoVariables.requests (.mk 6),
      request.address ≠ defaultDirectoryAddress := by decide
  have apart (name : String) : twoVariables.resolve name (.mk 6) ≠ .ok defaultDirectoryAddress := by
    intro resolved
    have listed : Request.mk name defaultDirectoryAddress ∈ twoVariables.requests (.mk 6) :=
      Directory.mem_requests.mpr resolved
    exact requests _ listed rfl
  refine ⟨rescheduled, ok, ok', ?_⟩
  exact (getRaw?_eq_of_rescheduled twoVariables (.mk 6) crowdedProposals).2 first second world
    world' rfl rescheduled apart steady steady' ok ok' "fee" rfl

end Cache

end ChainVariables
