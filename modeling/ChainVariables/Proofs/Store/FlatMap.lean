import Mathlib.Data.List.Induction
import ChainVariables.Proofs.Store.Handles
import ChainVariables.Proofs.Store.Persistence

/-! # Stores as flat maps

A store keeps the values of every namespace in a map of their own, and several
handles may lead to it. To its callers it is one flat map from addresses to
values: a pool of flat maps (`ChainVariables.FlatPool`) takes every call along
with the pool of stores (`ChainVariables.Pool.shows_run`), and its maps tell how
the call is answered. Only which namespaces are listed without values cannot be
told from a flat map; it shows in files alone.
-/

namespace ChainVariables

namespace MemoryStore.Change

/-- What a change makes of a flat map. -/
def put (values : Address → Option Bytes) : MemoryStore.Change → Address → Option Bytes
  | .set place value, address => if address = place then some value else values address
  | .delete place, address => if address = place then none else values address
  | .clear, _ => none

/-- What a change tells of a flat map. -/
def deleted? (values : Address → Option Bytes) : MemoryStore.Change → Option Bytes
  | .delete place => values place
  | .set .. | .clear => none

/-- The addresses whose values a change replaces or deletes. -/
def Touches : MemoryStore.Change → Address → Prop
  | .set place _, address | .delete place, address => place = address
  | .clear, _ => True

/-- What a change sets is there after it, and so is everything else that it does not touch. -/
theorem put_eq_some_iff {change : MemoryStore.Change} {values : Address → Option Bytes}
    {address : Address} {value : Bytes} :
    change.put values address = some value ↔
      change = .set address value ∨ (¬ change.Touches address ∧ values address = some value) := by
  cases change with
  | set place other =>
      by_cases here : address = place
      · subst here
        simp [put, Touches]
      · simp [put, Touches, here, Ne.symm here]
  | delete place =>
      by_cases here : address = place
      · subst here
        simp [put, Touches]
      · simp [put, Touches, here, Ne.symm here]
  | clear => simp [put, Touches]

end MemoryStore.Change

namespace MemoryStore

theorem get?_change (store : MemoryStore) (change : Change) :
    (store.change change).2.get? = change.put store.get? := by
  funext address
  cases change with
  | set place value =>
      by_cases same : address = place
      · subst same
        simp only [MemoryStore.change, Change.put, get?_set_self, ↓reduceIte]
      · simp only [MemoryStore.change, Change.put, get?_set_of_ne _ _ same, same, ↓reduceIte]
  | delete place =>
      have deleted : (store.change (.delete place)).2 = store.delete place := rfl
      by_cases same : address = place
      · subst same
        simp only [deleted, Change.put, get?_delete_self, ↓reduceIte]
      · simp only [deleted, Change.put, get?_delete_of_ne _ same, same, ↓reduceIte]
  | clear => rfl

theorem change_fst (store : MemoryStore) (change : Change) :
    (store.change change).1 = change.deleted? store.get? := by
  cases change with
  | delete place => exact store.remove_fst place
  | set place value => rfl
  | clear => rfl

end MemoryStore

/-- Flat maps from addresses to values: the map that each handle leads to, and the handles that
lead to the same one. -/
structure FlatPool where
  values : String → Address → Option Bytes
  linked : String → String → Bool

namespace FlatPool

def start : FlatPool := ⟨fun _ _ => none, fun first second => first == second⟩

/-- Gives a handle a map of its own. -/
def assign (flat : FlatPool) (handle : String) (values : Address → Option Bytes) : FlatPool where
  values other := if other = handle then values else flat.values other
  linked first second :=
    if first = handle ∨ second = handle then first == second else flat.linked first second

/-- Makes a call. -/
def perform (flat : FlatPool) : StoreCall → FlatPool
  | .new handle => flat.assign handle fun _ => none
  | .share source target =>
      { values := fun handle => flat.values (Pool.follows source target handle)
        linked := fun first second =>
          flat.linked (Pool.follows source target first) (Pool.follows source target second) }
  | .load handle path =>
      match MemoryStore.load path with
      | .ok store => flat.assign handle store.get?
      | .error _ => flat
  | .change handle change =>
      { flat with
        values := fun other =>
          if flat.linked handle other then change.put (flat.values handle)
          else flat.values other }
  | .get .. | .dump .. => flat

def run (flat : FlatPool) (calls : List StoreCall) : FlatPool := calls.foldl perform flat

/-- How a call may be answered. -/
def Answers (flat : FlatPool) (reply : StoreReply) : StoreCall → Prop
  | .new _ | .share .. => reply = .done
  | .load _ path =>
      reply = match MemoryStore.load path with
        | .ok _ => .done
        | .error error => .failed error
  | .change handle change => reply = .changed (change.deleted? (flat.values handle))
  | .get handle address =>
      reply = match flat.values handle address with
        | some value => .got (.ok value)
        | none => .got (.error (.keyNotFound address))
  | .dump handle path =>
      -- Which namespaces are listed without values, the flat map does not tell.
      ∃ store : MemoryStore, store.get? = flat.values handle ∧
        ((¬ store.Fits ∧ reply = .dumped (.error (.io (.bare .invalidInput)))) ∨
          ∃ bytes, MemoryStore.load (.file bytes) = .ok store ∧
            reply = .dumped (match path with
              | .missing => .error (.io MemoryStore.missingPath)
              | .folder => .error (.io MemoryStore.folderPath)
              | .file _ => .ok (.file bytes)))

theorem run_concat (flat : FlatPool) (calls : List StoreCall) (call : StoreCall) :
    flat.run (calls ++ [call]) = (flat.run calls).perform call := by
  unfold run
  rw [List.foldl_append]
  rfl

end FlatPool

namespace Pool

/-- Makes calls in order. -/
def run (pool : Pool) (calls : List StoreCall) : Pool :=
  calls.foldl (fun pool call => (pool.perform call).2) pool

theorem run_concat (pool : Pool) (calls : List StoreCall) (call : StoreCall) :
    pool.run (calls ++ [call]) = ((pool.run calls).perform call).2 := by
  unfold run
  rw [List.foldl_append]
  rfl

/-! ## One call -/

/-- The handles show flat maps, and lead to one store where these are the same. -/
structure Shows (pool : Pool) (flat : FlatPool) : Prop where
  values : ∀ handle, (pool.store handle).get? = flat.values handle
  linked : ∀ first second, flat.linked first second = true ↔ pool.Shares first second

namespace Shows

variable {pool : Pool} {flat : FlatPool}

theorem assign (shows : pool.Shows flat) (handle : String) (store : MemoryStore) :
    (pool.assign handle store).Shows (flat.assign handle store.get?) where
  values other := by
    simp only [store_assign, FlatPool.assign]
    split
    · rfl
    · exact shows.values other
  linked first second := by
    simp only [shares_assign, FlatPool.assign]
    split
    · exact beq_iff_eq
    · exact shows.linked first second

theorem ensure (shows : pool.Shows flat) (handle : String) : (pool.ensure handle).Shows flat where
  values other := by rw [store_ensure, shows.values]
  linked first second := by rw [shares_ensure, shows.linked]

theorem perform (shows : pool.Shows flat) (call : StoreCall) :
    (pool.perform call).2.Shows (flat.perform call) := by
  cases call with
  | new handle => exact shows.assign handle .empty
  | share source target =>
      refine ⟨?_, ?_⟩
      · intro handle
        exact (congrArg MemoryStore.get? (pool.store_share source target handle)).trans
          (shows.values _)
      · intro first second
        exact (shows.linked _ _).trans (pool.shares_share source target first second).symm
  | load handle path =>
      simp only [Pool.perform, Pool.load, FlatPool.perform]
      cases MemoryStore.load path with
      | ok store => exact shows.assign handle store
      | error error => exact shows
  | change handle change =>
      refine ⟨?_, ?_⟩
      · intro other
        have decidable : Decidable (pool.Shares handle other) :=
          decidable_of_iff _ (shows.linked handle other)
        simp only [Pool.perform, store_modify, FlatPool.perform, ← shows.linked]
        split
        · rw [MemoryStore.get?_change, shows.values]
        · exact shows.values other
      · intro first second
        exact (shows.linked first second).trans (pool.shares_modify handle first second _).symm
  | get handle address => exact shows.ensure handle
  | dump handle path => exact shows.ensure handle

theorem answers (shows : pool.Shows flat) (call : StoreCall) :
    flat.Answers (pool.perform call).1 call := by
  cases call with
  | new handle => rfl
  | share source target => rfl
  | load handle path =>
      simp only [FlatPool.Answers, Pool.perform, Pool.load]
      cases MemoryStore.load path <;> rfl
  | change handle change =>
      simp only [FlatPool.Answers, Pool.perform, MemoryStore.change_fst, shows.values]
  | get handle address =>
      simp only [FlatPool.Answers, Pool.perform, MemoryStore.get, ← shows.values]
      cases (pool.store handle).get? address <;> rfl
  | dump handle path =>
      refine ⟨pool.store handle, shows.values handle, ?_⟩
      simp only [Pool.perform, MemoryStore.save]
      by_cases fits : (pool.store handle).Fits
      · obtain ⟨bytes, dumped⟩ := MemoryStore.fits_iff.mp fits
        refine .inr ⟨bytes, MemoryStore.load_of_dump dumped, ?_⟩
        rw [dumped]
        cases path <;> rfl
      · exact .inl ⟨fits, by rw [MemoryStore.dump_of_not_fits fits]; rfl⟩

end Shows

/-- The flat maps take every run along. -/
theorem shows_run (calls : List StoreCall) :
    (empty.run calls).Shows (FlatPool.start.run calls) := by
  induction calls using List.reverseRecOn with
  | nil =>
      refine ⟨fun _ => rfl, ?_⟩
      intro first second
      rw [shares_of_unused rfl]
      exact beq_iff_eq
  | append_singleton calls call ih =>
      rw [run_concat, FlatPool.run_concat]
      exact ih.perform call

end Pool

end ChainVariables
