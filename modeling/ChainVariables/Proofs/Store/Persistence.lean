import ChainVariables.Proofs.Codec.NormalForm

/-! # Saved stores

Two stores may answer every read in the same way and yet differ, if one of them
lists a namespace that holds no value. Setting and deleting values leave no such
namespace behind, so there is none in a store that began without one, or was
loaded from a file of such a store. What these stores are saved as depends only on
the values they hold (`ChainVariables.MemoryStore.files_canonical`).
-/

namespace ChainVariables.MemoryStore

variable {store first second : MemoryStore} {space : Bytes}

/-- Makes changes in order. -/
def alter (store : MemoryStore) (changes : List Change) : MemoryStore :=
  changes.foldl (fun store change => (store.change change).2) store

/-! ## Namespaces without values -/

/-- The namespace is listed, and holds no value. -/
def Vacant (store : MemoryStore) (space : Bytes) : Prop :=
  ∃ values, store.spaces.get? space = some values ∧ values.isEmpty = true

/-- The namespace is listed, and holds a value. -/
def Occupied (store : MemoryStore) (space : Bytes) : Prop :=
  ∃ values, store.spaces.get? space = some values ∧ values.isEmpty = false

theorem Occupied.not_vacant (occupied : store.Occupied space) : ¬ store.Vacant space := by
  obtain ⟨values, found, filled⟩ := occupied
  intro listed
  obtain ⟨others, found', vacant⟩ := listed
  cases found.symm.trans found'
  exact Bool.false_ne_true (filled.symm.trans vacant)

theorem occupied_set (store : MemoryStore) (address : Address) (value : Bytes) :
    (store.set address value).Occupied address.space :=
  ⟨_, SortedMap.get?_insert_self .., SortedMap.isEmpty_insert ..⟩

theorem spaces_set_of_ne (store : MemoryStore) {address : Address} (value : Bytes)
    (different : space ≠ address.space) :
    (store.set address value).spaces.get? space = store.spaces.get? space :=
  SortedMap.get?_insert_of_ne _ _ different

/-- With its last value a namespace goes. -/
theorem not_vacant_delete (store : MemoryStore) (address : Address) :
    ¬ (store.delete address).Vacant address.space := by
  intro listed
  obtain ⟨values, found, vacant⟩ := listed
  simp only [delete, remove] at found
  split at found
  next absent =>
    rw [absent] at found
    cases found
  · split at found
    · rw [SortedMap.get?_erase_self] at found
      cases found
    next filled =>
      rw [SortedMap.get?_insert_self] at found
      cases found
      exact filled vacant

/-- A namespace that was listed without values is dropped by deleting any of its keys. -/
theorem spaces_delete_of_vacant (address : Address) (vacant : store.Vacant address.space) :
    (store.delete address).spaces.get? address.space = none := by
  obtain ⟨values, found, vacant⟩ := vacant
  have emptied : (values.erase address.key).isEmpty = true := by
    rw [SortedMap.isEmpty, List.isEmpty_iff] at vacant ⊢
    simp only [SortedMap.erase, vacant, List.filter_nil]
  simp only [delete, remove, found, emptied, ↓reduceIte, SortedMap.get?_erase_self]

theorem spaces_delete_of_ne (store : MemoryStore) {address : Address}
    (different : space ≠ address.space) :
    (store.delete address).spaces.get? space = store.spaces.get? space := by
  simp only [delete, remove]
  split
  · rfl
  · split
    · exact SortedMap.get?_erase_of_ne _ different
    · exact SortedMap.get?_insert_of_ne _ _ different

/-- No change leaves a namespace without values that was not so before. -/
theorem vacant_of_change (change : Change) (vacant : (store.change change).2.Vacant space) :
    store.Vacant space := by
  cases change with
  | set address value =>
      by_cases here : space = address.space
      · subst here
        exact absurd vacant (store.occupied_set address value).not_vacant
      · simpa only [Vacant, MemoryStore.change, store.spaces_set_of_ne value here] using vacant
  | delete address =>
      have deleted : (store.change (.delete address)).2 = store.delete address := rfl
      by_cases here : space = address.space
      · subst here
        exact absurd vacant (store.not_vacant_delete address)
      · simpa only [Vacant, deleted, store.spaces_delete_of_ne here] using vacant
  | clear =>
      obtain ⟨_, ⟨⟩, _⟩ := vacant

theorem vacant_of_alter (changes : List Change) (vacant : (store.alter changes).Vacant space) :
    store.Vacant space := by
  induction changes generalizing store with
  | nil => exact vacant
  | cons change rest ih => exact vacant_of_change change (ih vacant)

/-! ## What tells stores apart -/

theorem get_eq_get_iff {address : Address} :
    first.get address = second.get address ↔ first.get? address = second.get? address := by
  unfold get
  cases first.get? address <;> cases second.get? address <;> simp

/-- What a store without vacant namespaces answers tells which namespaces it lists. -/
theorem get?_space_of_occupied (occupied : first.Occupied space)
    (same : ∀ address, first.get? address = second.get? address) :
    first.spaces.get? space = second.spaces.get? space := by
  obtain ⟨values, found, filled⟩ := occupied
  have inside (key : Bytes) :
      values.get? key = (second.spaces.get? space).bind (·.get? key) := by
    have answers := same ⟨space, key⟩
    simpa only [get?, found, Option.bind_some] using answers
  cases found' : second.spaces.get? space with
  | none =>
      obtain ⟨key, value, held⟩ := SortedMap.isEmpty_eq_false_iff.mp filled
      rw [inside, found'] at held
      cases held
  | some others =>
      have equal : values = others :=
        SortedMap.ext_get? fun key => by rw [inside, found', Option.bind_some]
      rw [found, equal]

/-- Stores without vacant namespaces that answer alike are the same. -/
theorem eq_of_get (settled : ∀ space, ¬ first.Vacant space)
    (settled' : ∀ space, ¬ second.Vacant space)
    (same : ∀ address, first.get address = second.get address) : first = second := by
  have alike (address : Address) : first.get? address = second.get? address :=
    get_eq_get_iff.mp (same address)
  have listed (store : MemoryStore) (settled : ∀ space, ¬ store.Vacant space) (space : Bytes) :
      store.spaces.get? space = none ∨ store.Occupied space := by
    cases found : store.spaces.get? space with
    | none => exact .inl rfl
    | some values =>
        refine .inr ⟨values, found, ?_⟩
        rw [← Bool.not_eq_true]
        exact fun vacant => settled space ⟨values, found, vacant⟩
  have spaces : first.spaces = second.spaces := by
    refine SortedMap.ext_get? fun space => ?_
    rcases listed first settled space with absent | occupied
    · rcases listed second settled' space with absent' | occupied
      · rw [absent, absent']
      · exact (get?_space_of_occupied occupied fun address => (alike address).symm).symm
    · exact get?_space_of_occupied occupied alike
  exact congrArg MemoryStore.mk spaces

/-! ## Files -/

/-- No count of the store and no length in it exceeds four bytes. -/
structure Fits (store : MemoryStore) : Prop where
  spaces : store.spaces.size < UInt32.size
  space : ∀ space values, store.spaces.get? space = some values →
    space.length < UInt32.size ∧ values.size < UInt32.size
  entry : ∀ address value, store.get? address = some value →
    address.key.length < UInt32.size ∧ value.length < UInt32.size

/-- Exactly the stores that are not too large can be saved. -/
theorem fits_iff : store.Fits ↔ ∃ bytes, store.dump = .ok bytes := by
  have writable : (∃ bytes, store.dump = .ok bytes) ↔
      (Format.map .bytes (.map .bytes .bytes)).Writable store.spaces := by
    simp only [dump_eq_ok_iff]
    exact Format.encode_ok_iff
  rw [writable, Format.writable_map_iff]
  simp only [Prod.forall, ← SortedMap.get?_eq_some_iff, Format.writable_map_iff,
    Format.writable_bytes_iff]
  refine ⟨?_, ?_⟩
  · intro fits
    refine ⟨fits.spaces, fun space values found => ?_⟩
    refine ⟨(fits.space space values found).1, (fits.space space values found).2, ?_⟩
    intro key value held
    exact fits.entry ⟨space, key⟩ value (by rw [get?, found, Option.bind_some, held])
  · intro sizes
    obtain ⟨count, each⟩ := sizes
    refine ⟨count, fun space values found => ?_, fun address value held => ?_⟩
    · exact ⟨(each space values found).1, (each space values found).2.1⟩
    · obtain ⟨values, found, held⟩ := Option.bind_eq_some_iff.mp held
      exact (each address.space values found).2.2 address.key value held

theorem dump_of_not_fits (large : ¬ store.Fits) :
    store.dump = .error (.io (.bare .invalidInput)) := by
  have limited : format.SizeLimited := fun store fault failed =>
    Format.sizeLimited_map Format.sizeLimited_bytes
      (Format.sizeLimited_map Format.sizeLimited_bytes Format.sizeLimited_bytes)
      store.spaces fault failed
  rcases limited.encode_cases store with ⟨bytes, encoded⟩ | refused
  · exact absurd (fits_iff.mpr ⟨bytes, dump_eq_ok_iff.mpr encoded⟩) large
  · rw [dump, refused]
    rfl

theorem save_eq_ok_iff {path target : PathTarget} :
    store.save path = .ok target ↔
      ∃ old bytes, path = .file old ∧ store.dump = .ok bytes ∧ target = .file bytes := by
  unfold save
  cases ended : store.dump <;> cases path <;> simp [bind, Outcome.bind, pure, eq_comm]

theorem load_of_dump {bytes : Bytes} (dumped : store.dump = .ok bytes) :
    load (.file bytes) = .ok store :=
  load_eq_ok_iff.mpr (Format.decode_of_encode (dump_eq_ok_iff.mp dumped))

theorem load_of_save {path target : PathTarget} (saved : store.save path = .ok target) :
    load target = .ok store := by
  obtain ⟨_, bytes, rfl, dumped, rfl⟩ := save_eq_ok_iff.mp saved
  exact load_of_dump dumped

theorem fits_of_load {bytes : Bytes} (loaded : load (.file bytes) = .ok store) : store.Fits := by
  refine fits_iff.mpr ?_
  simp only [dump_eq_ok_iff]
  exact Format.encode_ok_iff.mpr (Format.writable_of_decode (load_eq_ok_iff.mp loaded))

theorem Fits.save (fits : store.Fits) : ∃ bytes, ∀ old,
    store.save (.file old) = .ok (.file bytes) := by
  obtain ⟨bytes, dumped⟩ := fits_iff.mp fits
  exact ⟨bytes, fun old => save_eq_ok_iff.mpr ⟨old, bytes, rfl, dumped, rfl⟩⟩

/-- The stores that come from new ones by changes, and by saving such stores and loading their
files. -/
inductive Reachable : MemoryStore → Prop where
  | new : Reachable .empty
  | changed {store : MemoryStore} (change : Change) :
      Reachable store → Reachable (store.change change).2
  | loaded {store next : MemoryStore} {path target : PathTarget} :
      Reachable store → store.save path = .ok target → load target = .ok next → Reachable next

theorem Reachable.not_vacant (reachable : store.Reachable) (space : Bytes) :
    ¬ store.Vacant space := by
  induction reachable with
  | new =>
      intro vacant
      obtain ⟨_, ⟨⟩, _⟩ := vacant
  | changed change _ ih => exact fun vacant => ih (vacant_of_change change vacant)
  | loaded _ saved read ih =>
      cases (load_of_save saved).symm.trans read
      exact ih

/-- **Saved stores are canonical.** Changes only ever fill or drop the namespaces that are listed
without values, and add none. A store that comes from new ones by changes, and by saving and
loading, lists none, and so any two of them are saved as the same bytes exactly if they answer
every read alike. Whatever a store lists, it is saved exactly if it is not too large, and its file
gives back all its values and is saved as the same bytes again. So is, from the first time on, what
was loaded from any bytes. -/
theorem files_canonical :
    (∀ store : MemoryStore, store.Fits ↔ ∃ bytes, store.dump = .ok bytes) ∧
    (∀ (store : MemoryStore) changes space,
      (store.alter changes).Vacant space → store.Vacant space) ∧
    (∀ (store : MemoryStore) space key, store.Vacant space →
      (∀ value, (store.set ⟨space, key⟩ value).Occupied space) ∧
        (store.delete ⟨space, key⟩).spaces.get? space = none) ∧
    (∀ store : MemoryStore, store.Reachable → ∀ space, ¬ store.Vacant space) ∧
    (∀ first second : MemoryStore, first.Reachable → second.Reachable →
      first.Fits → second.Fits → ∀ old old', ∃ target target',
        first.save (.file old) = .ok target ∧ second.save (.file old') = .ok target' ∧
          (target = target' ↔ ∀ address, first.get address = second.get address)) ∧
    (∀ store : MemoryStore, store.Fits → ∀ old, ∃ target again,
      store.save (.file old) = .ok target ∧ load target = .ok again ∧
        (∀ address, again.get address = store.get address) ∧
          ∀ old', again.save (.file old') = .ok target) ∧
    ∀ bytes store, load (.file bytes) = .ok store → ∃ target,
      (∀ old, store.save (.file old) = .ok target) ∧ load target = .ok store := by
  refine ⟨fun _ => fits_iff, ?_, ?_, ?_, ?_, ?_, ?_⟩
  · exact fun store changes space => vacant_of_alter changes
  · intro store space key vacant
    exact ⟨store.occupied_set ⟨space, key⟩, spaces_delete_of_vacant ⟨space, key⟩ vacant⟩
  · exact fun store reachable => reachable.not_vacant
  · intro first second reachable reachable' fits fits' old old'
    obtain ⟨bytes, saved⟩ := fits.save
    obtain ⟨bytes', saved'⟩ := fits'.save
    refine ⟨_, _, saved old, saved' old', ?_, ?_⟩
    · intro same address
      have loaded := load_of_save (saved old)
      rw [same, load_of_save (saved' old')] at loaded
      cases loaded
      rfl
    · intro alike
      obtain rfl := eq_of_get reachable.not_vacant reachable'.not_vacant alike
      have ended := (saved old).symm.trans (saved' old)
      cases ended
      rfl
  · intro store fits old
    obtain ⟨bytes, saved⟩ := fits.save
    exact ⟨_, store, saved old, load_of_save (saved old), fun _ => rfl, saved⟩
  · intro bytes store loaded
    obtain ⟨written, saved⟩ := (fits_of_load loaded).save
    exact ⟨_, saved, load_of_save (saved [])⟩

end ChainVariables.MemoryStore
