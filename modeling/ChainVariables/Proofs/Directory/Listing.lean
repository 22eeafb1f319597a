import ChainVariables.Proofs.Cache.World
import ChainVariables.Proofs.Codec.NormalForm
import ChainVariables.Proofs.Directory.Equivalence

/-! # Listing and resolving

A directory is asked for the address of one name, or for those of all names at
once. Both tell the same (`ChainVariables.Directory.resolveAll_lists`), whether
the directory was collected from records in any order, read from bytes that list
them in any order, or changed since: the list has one entry for each name that
resolves, in the order of the bytes of the names. Which record answers for a name
is told from the way the directory came to be
(`ChainVariables.Directory.Origin.record?`).
-/

namespace ChainVariables

namespace ByteKey

theorem compare_eq_lt_iff {first second : Bytes} :
    Ord.compare first second = .lt ↔ first < second := by
  induction first generalizing second with
  | nil => cases second <;> simp [List.compare_nil_cons]
  | cons byte rest ih =>
      cases second with
      | nil => simp [List.compare_cons_nil]
      | cons byte' rest' =>
          rw [List.compare_cons_cons, Ordering.then_eq_lt, List.cons_lt_cons_iff, ih,
            Std.compare_eq_lt, Std.compare_eq_iff_eq]

end ByteKey

namespace SortedMap

variable {κ β : Type} [ByteKey κ] [DecidableEq κ]

/-- Looking a key up by its bytes is looking it up. -/
theorem lookup_eq (key : κ) (entries : List (κ × β)) : lookup key entries = entries.lookup key := by
  induction entries with
  | nil => rfl
  | cons head rest ih =>
      obtain ⟨other, held⟩ := head
      rw [lookup, ih, List.lookup_cons]
      by_cases same : key = other
      · subst same
        simp
      · have different : ByteKey.compare key other ≠ .eq :=
          fun equal => same (ByteKey.compare_eq_iff.mp equal)
        have apart : (key == other) = false := beq_eq_false_iff_ne.mpr same
        rw [apart]
        split
        next equal => exact absurd equal different
        next => rfl

end SortedMap

namespace Directory

/-- How a directory comes to be. -/
inductive Origin where
  /-- Records are collected in order. -/
  | collected (records : List (String × Relocation))
  | decoded (bytes : Bytes)
  | changed (before : Origin) (change : Change)

namespace Origin

/-- The directory that comes to be. There is none if bytes cannot be read. -/
def directory? : Origin → Option Directory
  | collected records => some (.ofList records)
  | decoded bytes => (ofBytes bytes).toOption
  | changed before change => before.directory?.map (·.apply change)

/-- The records that some bytes list, in their order. -/
def listed (bytes : Bytes) : List (String × Relocation) :=
  ((Format.list (.pair .text Relocation.format)).decode bytes).toOption.getD []

/-- The record of a name, told from the origin: the last one of this name that was collected or
listed, moved and removed by the changes since. -/
def record? (name : String) : Origin → Option Relocation
  | collected records => records.reverse.lookup name
  | decoded bytes => (listed bytes).reverse.lookup name
  | changed before change =>
      if change = .remove name then none
      else
        match change.move? name with
        | some move =>
            some (schedule (before.record? name) move.address move.currentHeight move.changeOn)
        | none => before.record? name

end Origin

theorem get?_ofList (records : List (String × Relocation)) (name : String) :
    (ofList records).get? name = records.reverse.lookup name := by
  rw [← SortedMap.lookup_eq]
  exact SortedMap.get?_ofList records name

/-- A directory is read as the records that its bytes list, collected in order. -/
theorem ofBytes_eq_ok {bytes : Bytes} {directory : Directory}
    (read : ofBytes bytes = .ok directory) : directory = .ofList (Origin.listed bytes) := by
  have found := Format.decode_eq_ok_iff.mp read
  rw [spelling.read_eq] at found
  cases listing : (Format.list (.pair .text Relocation.format)).read bytes with
  | error fault =>
      rw [listing] at found
      cases found
  | ok spelled =>
      obtain ⟨records, rest⟩ := spelled
      rw [listing] at found
      cases found
      have decoded := Format.decode_eq_ok_iff.mpr listing
      rw [Origin.listed, decoded]
      rfl

/-- **The record of a name is told by the origin.** -/
theorem get?_of_origin {origin : Origin} {directory : Directory}
    (obtained : origin.directory? = some directory) (name : String) :
    directory.get? name = origin.record? name := by
  induction origin generalizing directory with
  | collected records =>
      cases obtained
      exact get?_ofList records name
  | decoded bytes =>
      simp only [Origin.directory?] at obtained
      cases read : ofBytes bytes with
      | error error =>
          rw [read] at obtained
          cases obtained
      | ok found =>
          rw [read] at obtained
          cases obtained
          rw [ofBytes_eq_ok read]
          exact get?_ofList _ name
  | changed before change ih =>
      obtain ⟨previous, before, rfl⟩ := Option.map_eq_some_iff.mp obtained
      rw [Origin.record?]
      split
      next removed =>
        subst removed
        exact get?_remove_self _ _
      next kept =>
        cases accepted : change.move? name with
        | some move => rw [get?_apply_of_move accepted, ih before]
        | none => rw [get?_apply_of_no_move accepted kept, ih before]

/-! ## The list -/

/-- Listed is what resolves. -/
theorem mem_resolveAll {directory : Directory} {height : Height} {name : String}
    {address : Address} :
    (name, address) ∈ directory.resolveAll height ↔
      directory.resolve name height = .ok address := by
  have requested : (⟨name, address⟩ : Request) ∈ directory.requests height ↔
      directory.resolve name height = .ok address := mem_requests
  rw [← requested, requests, List.mem_map]
  refine ⟨?_, ?_⟩
  · intro member
    exact ⟨(name, address), member, rfl⟩
  · intro requested
    obtain ⟨⟨_, _⟩, member, same⟩ := requested
    cases same
    exact member

theorem mem_map_fst_resolveAll {directory : Directory} {height : Height} {name : String} :
    name ∈ (directory.resolveAll height).map Prod.fst ↔
      ∃ address, directory.resolve name height = .ok address := by
  rw [List.mem_map, Prod.exists]
  simp only [mem_resolveAll]
  refine ⟨?_, ?_⟩
  · intro listed
    obtain ⟨_, address, resolved, rfl⟩ := listed
    exact ⟨address, resolved⟩
  · intro listed
    obtain ⟨address, resolved⟩ := listed
    exact ⟨name, address, resolved, rfl⟩

/-- The names ascend by their bytes. -/
theorem ascending_resolveAll (directory : Directory) (height : Height) :
    (directory.resolveAll height).Pairwise fun one other =>
      Utf8.encode one.1 < Utf8.encode other.1 := by
  rw [resolveAll, List.pairwise_map]
  exact directory.records.ascending.imp fun before => ByteKey.compare_eq_lt_iff.mp before

/-- **Listing and resolving agree.** The list of all addresses at a height is strictly ascending by
the bytes of the names, so no name is listed twice. It holds a name with an address exactly if the
name resolves to this address, and has as many entries as the directory has records. Resolving
fails exactly for the names that are not listed, and the error tells the name. What a name resolves
to is told by the way in which the directory came to be: by the last record of the name that was
collected, or listed in the bytes that were read, and by the changes since. -/
theorem resolveAll_lists (directory : Directory) (height : Height) :
    (directory.resolveAll height).Pairwise (fun one other =>
      Utf8.encode one.1 < Utf8.encode other.1) ∧
    ((directory.resolveAll height).map Prod.fst).Nodup ∧
    (∀ name address, (name, address) ∈ directory.resolveAll height ↔
      directory.resolve name height = .ok address) ∧
    (directory.resolveAll height).length = directory.size ∧
    (∀ name error, directory.resolve name height = .error error ↔
      error = .notFound name ∧ name ∉ (directory.resolveAll height).map Prod.fst) ∧
    ∀ origin : Origin, origin.directory? = some directory → ∀ name,
      directory.resolve name height =
        (origin.record? name).elim (.error (.notFound name)) (.ok <| ·.addressAt height) := by
  have ascending := directory.ascending_resolveAll height
  refine ⟨ascending, ?_, fun _ _ => mem_resolveAll, List.length_map .., ?_, ?_⟩
  · refine List.pairwise_map.mpr (ascending.imp ?_)
    intro one other before same
    rw [same] at before
    exact List.lt_irrefl _ before
  · intro name error
    rw [mem_map_fst_resolveAll]
    unfold resolve
    cases directory.get? name <;> simp [eq_comm]
  · intro origin obtained name
    rw [← get?_of_origin obtained]
    unfold resolve
    cases directory.get? name with
    | none => rfl
    | some record => rfl

end Directory

end ChainVariables
