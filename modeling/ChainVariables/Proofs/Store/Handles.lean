import ChainVariables.Store.Pool

/-! # Handles that lead to one store

Several handles may lead to one store, and a handle that was never used leads to
an empty store of its own (`ChainVariables.Pool.Shares`). Here is what each kind
of call does to the stores that handles lead to, and to which handles lead to the
same one: a new store cuts a handle loose, a shared one makes it follow another
handle, and a change reaches all handles of its store and no others.
-/

namespace ChainVariables.Pool

/-- Two handles lead to one store. -/
def Shares (pool : Pool) (first second : String) : Prop :=
  first = second ∨
    ∃ index, pool.handles.get? first = some index ∧ pool.handles.get? second = some index

theorem store_of_index {pool : Pool} {handle : String} {index : Nat}
    (found : pool.handles.get? handle = some index) :
    pool.stores[index]? = some (pool.store handle) := by
  obtain ⟨store, held⟩ : ∃ store, pool.stores[index]? = some store :=
    ⟨_, List.getElem?_eq_getElem (pool.handles_lt handle index found)⟩
  simp [Pool.store, found, held]

theorem store_of_unused {pool : Pool} {handle : String}
    (unused : pool.handles.get? handle = none) : pool.store handle = .empty := by
  simp [store, unused]

/-- A handle that was never used shares its store with no other handle. -/
theorem shares_of_unused {pool : Pool} {handle other : String}
    (unused : pool.handles.get? handle = none) : pool.Shares handle other ↔ handle = other := by
  simp [Shares, unused]

theorem shares_comm {pool : Pool} {first second : String} :
    pool.Shares first second ↔ pool.Shares second first := by
  unfold Shares
  rw [eq_comm]
  simp only [and_comm]

theorem shares_iff_of_index {pool : Pool} {handle other : String} {index : Nat}
    (found : pool.handles.get? handle = some index) :
    pool.Shares handle other ↔ pool.handles.get? other = some index := by
  unfold Shares
  refine ⟨?_, fun found' => .inr ⟨index, found, found'⟩⟩
  intro shared
  rcases shared with rfl | ⟨position, held, held'⟩
  · exact found
  · cases found.symm.trans held
    exact held'

theorem store_eq_of_shares {pool : Pool} {first second : String}
    (shared : pool.Shares first second) : pool.store first = pool.store second := by
  rcases shared with rfl | ⟨index, one, two⟩
  · rfl
  · rw [store, store, one, two]

/-! ## A store of its own -/

theorem handles_assign (pool : Pool) (handle other : String) (store : MemoryStore) :
    (pool.assign handle store).handles.get? other =
      if other = handle then some pool.stores.length else pool.handles.get? other := by
  simp only [assign, SortedMap.get?_insert, ByteKey.compare_eq_iff]

theorem store_assign (pool : Pool) (handle other : String) (store : MemoryStore) :
    (pool.assign handle store).store other =
      if other = handle then store else pool.store other := by
  simp only [Pool.store, handles_assign]
  split
  · simp [assign]
  · cases found : pool.handles.get? other with
    | none => rfl
    | some index =>
        have inside := pool.handles_lt other index found
        simp [assign, List.getElem?_append_left inside]

theorem shares_assign (pool : Pool) (handle first second : String) (store : MemoryStore) :
    (pool.assign handle store).Shares first second ↔
      if first = handle ∨ second = handle then first = second else pool.Shares first second := by
  have fresh (other : String) : pool.handles.get? other ≠ some pool.stores.length :=
    fun found => Nat.lt_irrefl _ (pool.handles_lt other _ found)
  unfold Shares
  simp only [handles_assign]
  by_cases one : first = handle <;> by_cases two : second = handle
  · simp [one, two]
  · simp [one, two, fresh]
  · simp [one, two, fresh]
  · simp [one, two]

/-! ## Handles in use -/

theorem store_ensure (pool : Pool) (handle other : String) :
    (pool.ensure handle).store other = pool.store other := by
  unfold ensure
  split
  · rfl
  next unused =>
    have absent : pool.handles.get? handle = none := by
      simpa [SortedMap.contains] using unused
    rw [store_assign]
    split
    next same => rw [same, store_of_unused absent]
    · rfl

theorem shares_ensure (pool : Pool) (handle first second : String) :
    (pool.ensure handle).Shares first second ↔ pool.Shares first second := by
  unfold ensure
  split
  · rfl
  next unused =>
    have absent : pool.handles.get? handle = none := by
      simpa [SortedMap.contains] using unused
    rw [shares_assign]
    split
    next touched =>
      rcases touched with rfl | rfl
      · rw [shares_of_unused absent]
      · rw [shares_comm, shares_of_unused absent, eq_comm]
    · rfl

theorem index_of_ensure (pool : Pool) (handle : String) :
    ∃ index, (pool.ensure handle).handles.get? handle = some index := by
  unfold ensure
  split
  next used => exact Option.isSome_iff_exists.mp used
  · exact ⟨pool.stores.length, by rw [handles_assign, if_pos rfl]⟩

/-! ## Changes and shared stores -/

/-- A change reaches the handles that lead to the store, and no others. -/
theorem store_modify (pool : Pool) (handle other : String) (change : MemoryStore → MemoryStore)
    [Decidable (pool.Shares handle other)] :
    (pool.modify handle change).store other =
      if pool.Shares handle other then change (pool.store handle) else pool.store other := by
  obtain ⟨index, found⟩ := pool.index_of_ensure handle
  have shared := (shares_ensure pool handle handle other).symm.trans (shares_iff_of_index found)
  have held := store_of_index found
  rw [store_ensure] at held
  have changed : (pool.modify handle change).store other =
      (((pool.ensure handle).handles.get? other).bind
        (((pool.ensure handle).stores.modify index change)[·]?)).getD .empty := by
    simp only [modify]
    split
    next absent => rw [found] at absent; cases absent
    next position found' =>
      cases found.symm.trans found'
      rfl
  rw [changed]
  split
  next reached =>
    rw [shared.mp reached, Option.bind_some, List.getElem?_modify_eq, held]
    rfl
  next apart =>
    rw [← store_ensure pool handle other, Pool.store]
    cases found' : (pool.ensure handle).handles.get? other with
    | none => rfl
    | some position =>
        have different : index ≠ position := by
          rintro rfl
          exact apart (shared.mpr found')
        rw [Option.bind_some, Option.bind_some, List.getElem?_modify_ne _ _ different]

theorem shares_modify (pool : Pool) (handle first second : String)
    (change : MemoryStore → MemoryStore) :
    (pool.modify handle change).Shares first second ↔ pool.Shares first second := by
  rw [← shares_ensure pool handle]
  simp only [modify]
  split <;> rfl

/-- The handle that a handle follows once a second one leads where the first one does. -/
def follows (source target handle : String) : String := if handle = target then source else handle

theorem handles_share (pool : Pool) (source target : String) :
    (pool.share source target).stores = (pool.ensure source).stores ∧
      ∀ handle, (pool.share source target).handles.get? handle =
        (pool.ensure source).handles.get? (follows source target handle) := by
  obtain ⟨index, found⟩ := pool.index_of_ensure source
  simp only [share]
  split
  next absent => rw [found] at absent; cases absent
  next position found' =>
    refine ⟨rfl, fun handle => ?_⟩
    rw [SortedMap.get?_insert]
    simp only [ByteKey.compare_eq_iff, follows]
    split
    · rw [found']
    · rfl

theorem store_share (pool : Pool) (source target handle : String) :
    (pool.share source target).store handle = pool.store (follows source target handle) := by
  obtain ⟨stores, handles⟩ := pool.handles_share source target
  rw [← store_ensure pool source, Pool.store, Pool.store, stores, handles]

theorem shares_share (pool : Pool) (source target first second : String) :
    (pool.share source target).Shares first second ↔
      pool.Shares (follows source target first) (follows source target second) := by
  obtain ⟨_, handles⟩ := pool.handles_share source target
  obtain ⟨index, found⟩ := pool.index_of_ensure source
  rw [← shares_ensure pool source]
  unfold Shares
  rw [handles, handles]
  refine ⟨Or.imp_left (congrArg _), ?_⟩
  intro reached
  rcases reached with same | shared
  · by_cases one : first = target <;> by_cases two : second = target <;>
      simp only [follows, one, two, ↓reduceIte] at same ⊢
    · exact .inl trivial
    · exact .inr ⟨index, found, same ▸ found⟩
    · exact .inr ⟨index, same ▸ found, found⟩
    · exact .inl same
  · exact .inr shared

end ChainVariables.Pool
