import ChainVariables.Store.Memory

/-! # Handles onto shared stores

Several handles may lead to one store: what is written through one of them is
read through all. A handle is cut loose from the others when it is given a store
of its own. A handle that was never used stands for an empty store.
-/

namespace ChainVariables

/-- A call on a handle. -/
inductive StoreCall where
  | new (handle : String)
  | share (source target : String)
  | load (handle : String) (path : PathTarget)
  | change (handle : String) (change : MemoryStore.Change)
  | get (handle : String) (address : Address)
  | dump (handle : String) (path : PathTarget)

/-- What a call on a handle returns. -/
inductive StoreReply where
  | done
  | failed (error : StoreError)
  /-- The value that was deleted, if there was one. -/
  | changed (deleted? : Option Bytes)
  | got (answer : Except StoreError Bytes)
  /-- What the path leads to after the dump. -/
  | dumped (target : Outcome StoreError PathTarget)

/-- Stores, and the handles that lead to them by position. -/
structure Pool where
  stores : List MemoryStore
  handles : SortedMap String Nat
  handles_lt : ∀ handle index, handles.get? handle = some index → index < stores.length

namespace Pool

def empty : Pool := ⟨[], .empty, fun _ _ => nofun⟩

instance : Inhabited Pool := ⟨empty⟩

def store (pool : Pool) (handle : String) : MemoryStore :=
  ((pool.handles.get? handle).bind (pool.stores[·]?)).getD .empty

/-- Gives a handle a store of its own. -/
def assign (pool : Pool) (handle : String) (store : MemoryStore) : Pool where
  stores := pool.stores ++ [store]
  handles := pool.handles.insert handle pool.stores.length
  handles_lt := by
    intro other index found
    rw [SortedMap.get?_insert] at found
    rw [List.length_append, List.length_singleton]
    split at found
    · cases found
      omega
    · exact Nat.lt_succ_of_lt (pool.handles_lt other index found)

/-- Gives a handle an empty store unless it has one. -/
def ensure (pool : Pool) (handle : String) : Pool :=
  if pool.handles.contains handle then pool else pool.assign handle .empty

/-- Changes the store that a handle leads to, for all handles that lead there. -/
def modify (pool : Pool) (handle : String) (change : MemoryStore → MemoryStore) : Pool :=
  let ready := pool.ensure handle
  match ready.handles.get? handle with
  | none => ready
  | some index =>
      { ready with
        stores := ready.stores.modify index change
        handles_lt := fun other position found => by
          rw [List.length_modify]
          exact ready.handles_lt other position found }

/-- Lets a second handle lead where the first one does. -/
def share (pool : Pool) (source target : String) : Pool :=
  let ready := pool.ensure source
  match found : ready.handles.get? source with
  | none => ready
  | some index =>
      { ready with
        handles := ready.handles.insert target index
        handles_lt := fun other position reached => by
          rw [SortedMap.get?_insert] at reached
          split at reached
          · cases reached
            exact ready.handles_lt source index found
          · exact ready.handles_lt other position reached }

/-- Gives a handle the store loaded from a path. If loading fails, nothing changes. -/
def load (pool : Pool) (handle : String) (path : PathTarget) : Except StoreError Pool := do
  return pool.assign handle (← MemoryStore.load path)

/-- Makes a call. -/
def perform (pool : Pool) : StoreCall → StoreReply × Pool
  | .new handle => (.done, pool.assign handle .empty)
  | .share source target => (.done, pool.share source target)
  | .load handle path =>
      match pool.load handle path with
      | .ok next => (.done, next)
      | .error error => (.failed error, pool)
  | .change handle change =>
      (.changed ((pool.store handle).change change).1,
        pool.modify handle fun store => (store.change change).2)
  | .get handle address => (.got ((pool.store handle).get address), pool.ensure handle)
  | .dump handle path => (.dumped ((pool.store handle).save path), pool.ensure handle)

end Pool

end ChainVariables
