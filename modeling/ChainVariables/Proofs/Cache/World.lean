import ChainVariables.Cache
import ChainVariables.Proofs.Fetch.Collection
import ChainVariables.Store.Memory

/-! # What a refresh can meet

A refresh reads a directory and then fetches what the directory requests. These
are the conditions on its world under which its laws hold: the store does not
change meanwhile (`ChainVariables.World.Steady`), or, beyond that, all reads
answer and all answers arrive in time (`ChainVariables.World.Prompt`). A store in
memory meets both, in whatever order its answers arrive.
-/

namespace ChainVariables

namespace Directory

theorem map_name_requests (directory : Directory) (height : Height) :
    (directory.requests height).map (·.name) = directory.records.keys := by
  simp [requests, resolveAll, toList, SortedMap.keys, Function.comp_def]

theorem requests_nodup (directory : Directory) (height : Height) :
    ((directory.requests height).map (·.name)).Nodup := by
  rw [map_name_requests]
  exact directory.records.keys_nodup

/-- A directory resolves exactly the names it contains. -/
theorem contains_iff_resolve {directory : Directory} {name : String} (height : Height) :
    directory.contains name = true ↔ ∃ address, directory.resolve name height = .ok address := by
  change (directory.get? name).isSome = true ↔ _
  unfold resolve
  cases directory.get? name <;> simp

/-- What is requested is what resolves. -/
theorem mem_requests {directory : Directory} {height : Height} {request : Request} :
    request ∈ directory.requests height ↔
      directory.resolve request.name height = .ok request.address := by
  obtain ⟨wanted, target⟩ := request
  simp only [requests, resolveAll, List.map_map, List.mem_map, Function.comp_apply]
  refine ⟨?_, ?_⟩
  · intro listed
    obtain ⟨⟨name, relocation⟩, member, same⟩ := listed
    cases same
    have found : directory.get? name = some relocation :=
      (directory.records.get?_eq_some_iff).mpr member
    simp [resolve, found]
  · intro resolved
    unfold resolve at resolved
    split at resolved
    next relocation found =>
      cases resolved
      exact ⟨(wanted, relocation), (directory.records.get?_eq_some_iff).mp found, rfl⟩
    · cases resolved

end Directory

namespace World

/-- During a call the store does not change. The reads of a fetch come to what the store answers
to them, in any order, and some may not have come to anything yet. -/
def Steady (world : World) : Prop :=
  ∀ requests, Possible True (readsOf world.read requests) (world.signals requests)

/-- The store holds a directory at the address where a cache of this configuration looks. -/
def HoldsDirectory (world : World) (config : Config) (directory : Directory) : Prop :=
  ∃ bytes, world.read config.directoryAddress = .value bytes ∧
    Directory.ofBytes bytes = .ok directory

theorem HoldsDirectory.unique {world : World} {config : Config} {first second : Directory}
    (one : world.HoldsDirectory config first) (other : world.HoldsDirectory config second) :
    first = second := by
  obtain ⟨bytes, found, decoded⟩ := one
  obtain ⟨bytes', found', decoded'⟩ := other
  cases found.symm.trans found'
  cases decoded.symm.trans decoded'
  rfl

theorem HoldsDirectory.read_ne_fault {world : World} {config : Config} {directory : Directory}
    (holds : world.HoldsDirectory config directory) (error : StoreError) :
    world.read config.directoryAddress ≠ .fault error := by
  intro refused
  obtain ⟨bytes, found, _⟩ := holds
  rw [found] at refused
  cases refused

theorem HoldsDirectory.ofBytes_ne_error {world : World} {config : Config} {directory : Directory}
    (holds : world.HoldsDirectory config directory) {bytes : Bytes}
    (found : world.read config.directoryAddress = .value bytes) (error : DecodeError) :
    Directory.ofBytes bytes ≠ .error error := by
  intro malformed
  obtain ⟨other, found', decoded⟩ := holds
  cases found.symm.trans found'
  rw [decoded] at malformed
  cases malformed

/-- Every variable of a directory has a value at the address it resolves to. -/
def Serves (world : World) (directory : Directory) (height : Height) : Prop :=
  ∀ name address, directory.resolve name height = .ok address →
    ∃ bytes, world.read address = .value bytes

/-- Values are those of a directory: its variables, each with the bytes at the address it
resolves to. -/
def Shows (world : World) (directory : Directory) (height : Height)
    (values : SortedMap String Bytes) : Prop :=
  ∀ name bytes, values.get? name = some bytes ↔
    ∃ address, directory.resolve name height = .ok address ∧ world.read address = .value bytes

/-- Values of a directory that is served have its names. -/
theorem Shows.contains_eq {world : World} {directory : Directory} {height : Height}
    {values : SortedMap String Bytes} (held : world.Shows directory height values)
    (served : world.Serves directory height) (name : String) :
    values.contains name = directory.contains name := by
  apply Bool.eq_iff_iff.mpr
  rw [Directory.contains_iff_resolve height, SortedMap.contains, Option.isSome_iff_exists]
  refine ⟨?_, ?_⟩
  · intro present
    obtain ⟨bytes, found⟩ := present
    obtain ⟨address, resolved, _⟩ := (held name bytes).mp found
    exact ⟨address, resolved⟩
  · intro present
    obtain ⟨address, resolved⟩ := present
    obtain ⟨bytes, found⟩ := served name address resolved
    exact ⟨bytes, (held name bytes).mpr ⟨address, resolved, found⟩⟩

/-- The reads of a refresh answer, and all answers arrive in time, in some order. -/
structure Prompt (world : World) (config : Config) (height : Height) : Prop where
  directory : (∃ bytes, world.read config.directoryAddress = .value bytes) ∨
    ∃ error, world.read config.directoryAddress = .fault error
  arrivals : ∀ directory, world.HoldsDirectory config directory →
    AllReport (readsOf world.read (directory.requests height))
      (world.signals (directory.requests height))

/-- The values of the variables at a height are short enough to be encoded. -/
def Encodable (world : World) (config : Config) (height : Height) : Prop :=
  ∀ directory name address bytes, world.HoldsDirectory config directory →
    directory.resolve name height = .ok address → world.read address = .value bytes →
      bytes.length < UInt32.size

/-- The signal by which a store in memory answers a request. -/
def report (store : MemoryStore) (request : Request) : Signal :=
  match store.get request.address with
  | .ok bytes => .value request bytes
  | .error error => .fault request error

/-- The world of a store in memory whose answers arrive in a given order. -/
def ofMemory (store : MemoryStore) (arrange : List Request → List Request) (now : Timestamp) :
    World where
  read := store.answer
  signals := fun requests => (arrange requests).map (report store)
  now := now

variable {store : MemoryStore} {arrange : List Request → List Request} {now : Timestamp}

theorem reports_report (request : Request) :
    Reports (request, store.answer request.address) (report store request) := by
  unfold MemoryStore.answer report
  cases store.get request.address with
  | ok bytes => exact .value request bytes
  | error error => exact .fault request error

theorem allReport_ofMemory {requests : List Request}
    (permuted : (arrange requests).Perm requests) :
    AllReport (readsOf (ofMemory store arrange now).read requests)
      ((ofMemory store arrange now).signals requests) := by
  refine ⟨readsOf store.answer (arrange requests), permuted.map _, ?_⟩
  unfold readsOf ofMemory
  rw [List.forall₂_map_left_iff, List.forall₂_map_right_iff, List.forall₂_same]
  exact fun request _ => reports_report request

theorem steady_ofMemory (permuted : ∀ requests, (arrange requests).Perm requests) :
    (ofMemory store arrange now).Steady :=
  fun requests => (allReport_ofMemory (permuted requests)).possible

theorem prompt_ofMemory (permuted : ∀ requests, (arrange requests).Perm requests)
    (config : Config) (height : Height) : (ofMemory store arrange now).Prompt config height where
  directory := by
    change (∃ bytes, store.answer _ = _) ∨ ∃ error, store.answer _ = _
    unfold MemoryStore.answer
    split
    · exact .inl ⟨_, rfl⟩
    · exact .inr ⟨_, rfl⟩
  arrivals := fun _ _ => allReport_ofMemory (permuted _)

/-- All values of a store in memory can be encoded if each of them is short enough. -/
theorem encodable_ofMemory
    (small : ∀ space ∈ store.spaces.toList, ∀ entry ∈ space.2.toList, entry.2.length < UInt32.size)
    (config : Config) (height : Height) : (ofMemory store arrange now).Encodable config height := by
  intro directory name address bytes _ _ read
  have found : store.get? address = some bytes := by
    change store.answer address = .value bytes at read
    unfold MemoryStore.answer MemoryStore.get at read
    cases held : store.get? address with
    | none => rw [held] at read; cases read
    | some value => rw [held] at read; cases read; rfl
  obtain ⟨values, space, key⟩ := Option.bind_eq_some_iff.mp found
  exact small _ ((SortedMap.get?_eq_some_iff _).mp space) _ ((SortedMap.get?_eq_some_iff _).mp key)

/-- Records in the layout of a directory, in any order. -/
def layOut (records : List (String × Relocation)) : Bytes :=
  Word.toBytes 4 records.length ++ records.flatMap fun record =>
    ((Format.pair .text Relocation.format).write record).toOption.getD []

/-- A store with two variables, one of which moves at height 7. -/
def orderly : MemoryStore :=
  MemoryStore.empty
    |>.set defaultDirectoryAddress (layOut [
      ("fee", ⟨⟨[1], [1]⟩, ⟨[1], [2]⟩, .mk 7⟩),
      ("gas", ⟨⟨[1], [3]⟩, ⟨[1], [3]⟩, .mk 1⟩)])
    |>.set ⟨[1], [1]⟩ [10, 0]
    |>.set ⟨[1], [3]⟩ [20]

/-- The same variables at other addresses, in a directory out of order that names one twice. -/
def disorderly : MemoryStore :=
  MemoryStore.empty
    |>.set ⟨[9], []⟩ (layOut [
      ("gas", ⟨⟨[2], [5]⟩, ⟨[2], [6]⟩, .mk 3⟩),
      ("fee", ⟨⟨[2], [8]⟩, ⟨[2], [8]⟩, .mk 2⟩),
      ("fee", ⟨⟨[2], [4]⟩, ⟨[2], [7]⟩, .mk 5⟩)])
    |>.set ⟨[2], [6]⟩ [20]
    |>.set ⟨[2], [7]⟩ [10, 0]

end World

end ChainVariables
