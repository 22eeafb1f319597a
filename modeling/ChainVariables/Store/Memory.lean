import ChainVariables.Store.Error

/-! # Stores in memory

A store keeps the values of each namespace in a map of their own. A namespace
that loses its last value is dropped with it, so the bytes that a store is saved
as depend only on the values it holds.
-/

namespace ChainVariables

/-- What a path leads to. A file that is yet to be created, in a folder that is there, is taken for
an empty file when a store is saved to it, and for a missing path when one is loaded from it. -/
inductive PathTarget where
  /-- No file, and for a store to be saved no folder to create one in. -/
  | missing
  | folder
  | file (bytes : Bytes)
  deriving DecidableEq, Repr

/-- The values of each namespace, by key. -/
structure MemoryStore where
  spaces : SortedMap Bytes (SortedMap Bytes Bytes)
  deriving DecidableEq

namespace MemoryStore

def empty : MemoryStore := ⟨.empty⟩

instance : Inhabited MemoryStore := ⟨empty⟩

def get? (store : MemoryStore) (address : Address) : Option Bytes :=
  (store.spaces.get? address.space).bind (·.get? address.key)

/-- The value at an address, or the error that there is none. -/
def get (store : MemoryStore) (address : Address) : Except StoreError Bytes :=
  match store.get? address with
  | some value => .ok value
  | none => .error (.keyNotFound address)

def answer (store : MemoryStore) (address : Address) : Answer :=
  match store.get address with
  | .ok value => .value value
  | .error error => .fault error

def set (store : MemoryStore) (address : Address) (value : Bytes) : MemoryStore :=
  ⟨store.spaces.insert address.space
    (((store.spaces.get? address.space).getD .empty).insert address.key value)⟩

/-- Removes the value at an address, and its namespace if that is now without values. Also tells
the value. -/
def remove (store : MemoryStore) (address : Address) : Option Bytes × MemoryStore :=
  match store.spaces.get? address.space with
  | none => (none, store)
  | some values =>
      let rest := values.erase address.key
      (values.get? address.key,
        if rest.isEmpty then ⟨store.spaces.erase address.space⟩
        else ⟨store.spaces.insert address.space rest⟩)

def delete (store : MemoryStore) (address : Address) : MemoryStore := (store.remove address).2

/-- A change to the values of a store. -/
inductive Change where
  | set (address : Address) (value : Bytes)
  | delete (address : Address)
  | clear
  deriving DecidableEq

/-- Makes a change. Deleting a value tells it. -/
def change (store : MemoryStore) : Change → Option Bytes × MemoryStore
  | .set address value => (none, store.set address value)
  | .delete address => store.remove address
  | .clear => (none, empty)

@[simp] theorem get?_empty (address : Address) : empty.get? address = none := rfl

@[simp] theorem get?_set_self (store : MemoryStore) (address : Address) (value : Bytes) :
    (store.set address value).get? address = some value := by
  simp [get?, set]

/-- Setting a value leaves every other address alone, even one whose namespace and key make up the
same bytes. -/
theorem get?_set_of_ne (store : MemoryStore) {address other : Address} (value : Bytes)
    (different : other ≠ address) : (store.set address value).get? other = store.get? other := by
  obtain ⟨space, key⟩ := address
  obtain ⟨space', key'⟩ := other
  simp only [get?, set]
  by_cases spaces : space' = space
  · subst spaces
    have keys : key' ≠ key := fun same => different (by rw [same])
    rw [SortedMap.get?_insert_self, Option.bind_some, SortedMap.get?_insert_of_ne _ _ keys]
    cases store.spaces.get? space' <;> rfl
  · rw [SortedMap.get?_insert_of_ne _ _ spaces]

/-- Deleting tells what getting would have. -/
theorem remove_fst (store : MemoryStore) (address : Address) :
    (store.remove address).1 = store.get? address := by
  simp only [remove, get?]
  cases store.spaces.get? address.space <;> rfl

@[simp] theorem get?_delete_self (store : MemoryStore) (address : Address) :
    (store.delete address).get? address = none := by
  simp only [get?, delete, remove]
  split
  next absent => rw [absent, Option.bind_none]
  next values present =>
    split
    · rw [SortedMap.get?_erase_self, Option.bind_none]
    · rw [SortedMap.get?_insert_self, Option.bind_some, SortedMap.get?_erase_self]

/-- Deleting a value leaves every other address alone. -/
theorem get?_delete_of_ne (store : MemoryStore) {address other : Address}
    (different : other ≠ address) : (store.delete address).get? other = store.get? other := by
  obtain ⟨space, key⟩ := address
  obtain ⟨space', key'⟩ := other
  simp only [get?, delete, remove]
  split
  · rfl
  next values present =>
    by_cases spaces : space' = space
    · subst spaces
      have keys : key' ≠ key := fun same => different (by rw [same])
      rw [present, Option.bind_some]
      split
      next emptied =>
        rw [SortedMap.get?_erase_self, Option.bind_none,
          ← SortedMap.get?_erase_of_ne values keys, SortedMap.get?_of_isEmpty _ emptied]
      · rw [SortedMap.get?_insert_self, Option.bind_some, SortedMap.get?_erase_of_ne _ keys]
    · split
      · rw [SortedMap.get?_erase_of_ne _ spaces]
      · rw [SortedMap.get?_insert_of_ne _ _ spaces]

def format : Format MemoryStore :=
  .via (.map .bytes (.map .bytes .bytes)) (fun spaces => ⟨spaces⟩) (·.spaces)
    (fun _ => rfl) (fun _ => rfl)

/-- The error of a path that leads nowhere. -/
def missingPath : IoError := .described .notFound "No such file or directory (os error 2)"

/-- The error of a path that leads to a folder where a file is needed. -/
def folderPath : IoError := .described .isADirectory "Is a directory (os error 21)"

/-- Loads a store from the file at a path. -/
def load : PathTarget → Except StoreError MemoryStore
  | .missing => .error (.io missingPath)
  | .folder => .error (.io folderPath)
  | .file bytes =>
      match format.decode bytes with
      | .ok store => .ok store
      | .error cause => .error (.io (.wrapping .invalidData cause))

/-- The bytes of the file that a store is saved as. -/
def dump (store : MemoryStore) : Outcome StoreError Bytes := (format.encode store).mapError .io

/-- Saves a store at a path; what the path leads to afterwards. What was in the file does not
matter, so a new file is written like an empty one; the path is missing only without a folder. -/
def save (store : MemoryStore) (path : PathTarget) : Outcome StoreError PathTarget := do
  let bytes ← store.dump
  match path with
  | .missing => .error (.io missingPath)
  | .folder => .error (.io folderPath)
  | .file _ => return .file bytes

end MemoryStore

end ChainVariables
