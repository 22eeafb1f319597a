import ChainVariables.Bytes

/-! # Finite maps kept in ascending order of their keys

A map is the list of its entries, strictly ascending by the bytes of the keys.
The order is part of the type, so two maps with the same lookups are equal
(`SortedMap.ext_get?`) and the list of entries is a canonical form.
-/

namespace ChainVariables

open ByteKey

/-- A finite map: its entries, strictly ascending by key. -/
structure SortedMap (κ : Type) [ByteKey κ] (β : Type) where
  toList : List (κ × β)
  ascending : toList.Pairwise fun first second => Before first.1 second.1

namespace SortedMap

variable {κ β : Type} [ByteKey κ]

def empty : SortedMap κ β := ⟨[], .nil⟩

instance : EmptyCollection (SortedMap κ β) := ⟨empty⟩

instance : Inhabited (SortedMap κ β) := ⟨empty⟩

instance [DecidableEq κ] [DecidableEq β] : DecidableEq (SortedMap κ β) := fun first second =>
  if same : first.toList = second.toList then
    isTrue (by cases first; cases second; cases same; rfl)
  else isFalse fun equal => same (equal ▸ rfl)

def size (map : SortedMap κ β) : Nat := map.toList.length

def isEmpty (map : SortedMap κ β) : Bool := map.toList.isEmpty

def keys (map : SortedMap κ β) : List κ := map.toList.map Prod.fst

/-- The value of the first entry with this key in a list of entries. -/
def lookup (key : κ) : List (κ × β) → Option β
  | [] => none
  | (other, value) :: rest =>
      match compare key other with
      | .eq => some value
      | _ => lookup key rest

/-- The value at a key. -/
def get? (map : SortedMap κ β) (key : κ) : Option β := lookup key map.toList

def contains (map : SortedMap κ β) (key : κ) : Bool := (map.get? key).isSome

/-- The entries with one more in its place, replacing an entry of the same key. -/
def insertEntry (key : κ) (value : β) : List (κ × β) → List (κ × β)
  | [] => [(key, value)]
  | (other, held) :: rest =>
      match compare key other with
      | .lt => (key, value) :: (other, held) :: rest
      | .eq => (key, value) :: rest
      | .gt => (other, held) :: insertEntry key value rest

theorem mem_insertEntry {key : κ} {value : β} {entry : κ × β} {entries : List (κ × β)}
    (member : entry ∈ insertEntry key value entries) :
    entry = (key, value) ∨ entry ∈ entries := by
  induction entries with
  | nil => simpa [insertEntry] using member
  | cons head rest ih =>
      obtain ⟨other, held⟩ := head
      simp only [insertEntry] at member
      split at member
      · simpa using member
      · rcases List.mem_cons.mp member with same | inside
        · exact .inl same
        · exact .inr (List.mem_cons_of_mem _ inside)
      · rcases List.mem_cons.mp member with same | inside
        · exact .inr (same ▸ List.mem_cons_self)
        · exact (ih inside).imp_right (List.mem_cons_of_mem _)

theorem insertEntry_ascending {key : κ} {value : β} {entries : List (κ × β)}
    (ascending : entries.Pairwise fun first second => Before first.1 second.1) :
    (insertEntry key value entries).Pairwise fun first second => Before first.1 second.1 := by
  induction entries with
  | nil => exact List.pairwise_singleton ..
  | cons head rest ih =>
      obtain ⟨other, held⟩ := head
      obtain ⟨above, later⟩ := List.pairwise_cons.mp ascending
      simp only [insertEntry]
      split
      next below =>
        refine List.pairwise_cons.mpr ⟨fun entry inside => ?_, ascending⟩
        rcases List.mem_cons.mp inside with rfl | inside
        · exact below
        · exact Before.trans below (above entry inside)
      next same =>
        obtain rfl := compare_eq_iff.mp same
        exact List.pairwise_cons.mpr ⟨above, later⟩
      next higher =>
        refine List.pairwise_cons.mpr ⟨fun entry inside => ?_, ih later⟩
        rcases mem_insertEntry inside with rfl | inside
        · exact compare_eq_gt_iff.mp higher
        · exact above entry inside

/-- Sets the value at a key. -/
def insert (map : SortedMap κ β) (key : κ) (value : β) : SortedMap κ β :=
  ⟨insertEntry key value map.toList, insertEntry_ascending map.ascending⟩

/-- Removes the value at a key, if there is one. -/
def erase (map : SortedMap κ β) (key : κ) : SortedMap κ β :=
  ⟨map.toList.filter fun entry => compare key entry.1 != .eq, map.ascending.filter _⟩

/-- Collects entries in order: a later entry replaces an earlier one of the same key. -/
def ofList (entries : List (κ × β)) : SortedMap κ β :=
  entries.foldl (fun map entry => map.insert entry.1 entry.2) empty

/-! ## Lookups -/

theorem lookup_insertEntry (key wanted : κ) (value : β) (entries : List (κ × β)) :
    lookup wanted (insertEntry key value entries) =
      if compare wanted key = .eq then some value else lookup wanted entries := by
  induction entries with
  | nil =>
      simp only [insertEntry, lookup]
      cases compare wanted key <;> simp
  | cons head rest ih =>
      obtain ⟨other, held⟩ := head
      simp only [insertEntry]
      split
      · simp only [lookup]
        cases compare wanted key <;> simp
      next same =>
        obtain rfl := compare_eq_iff.mp same
        simp only [lookup]
        cases compare wanted key <;> simp
      next higher =>
        simp only [lookup, ih]
        by_cases same : compare wanted key = .eq
        · obtain rfl := compare_eq_iff.mp same
          simp [higher]
        · simp [same]

theorem lookup_filter (key wanted : κ) (entries : List (κ × β)) :
    lookup wanted (entries.filter fun entry => compare key entry.1 != .eq) =
      if compare wanted key = .eq then none else lookup wanted entries := by
  induction entries with
  | nil => simp [lookup]
  | cons head rest ih =>
      obtain ⟨other, held⟩ := head
      by_cases dropped : compare key other = .eq
      · obtain rfl := compare_eq_iff.mp dropped
        simp only [List.filter_cons, dropped, bne_self_eq_false, Bool.false_eq_true, ↓reduceIte, ih,
          lookup]
        cases compare wanted key <;> simp
      · simp only [List.filter_cons, bne_iff_ne, ne_eq, dropped, not_false_eq_true, ↓reduceIte,
          lookup, ih]
        by_cases same : compare wanted key = .eq
        · obtain rfl := compare_eq_iff.mp same
          cases found : compare wanted other <;> simp_all
        · simp [same]

@[simp] theorem get?_empty (key : κ) : (empty : SortedMap κ β).get? key = none := rfl

theorem get?_of_isEmpty (map : SortedMap κ β) {key : κ} (vacant : map.isEmpty) :
    map.get? key = none := by
  rw [get?, List.isEmpty_iff.mp vacant]
  rfl

theorem get?_insert (map : SortedMap κ β) (key wanted : κ) (value : β) :
    (map.insert key value).get? wanted =
      if compare wanted key = .eq then some value else map.get? wanted :=
  lookup_insertEntry key wanted value map.toList

theorem get?_erase (map : SortedMap κ β) (key wanted : κ) :
    (map.erase key).get? wanted =
      if compare wanted key = .eq then none else map.get? wanted :=
  lookup_filter key wanted map.toList

@[simp] theorem get?_insert_self (map : SortedMap κ β) (key : κ) (value : β) :
    (map.insert key value).get? key = some value := by
  simp [get?_insert]

theorem get?_insert_of_ne (map : SortedMap κ β) {key wanted : κ} (value : β)
    (different : wanted ≠ key) : (map.insert key value).get? wanted = map.get? wanted := by
  rw [get?_insert, if_neg fun same => different (compare_eq_iff.mp same)]

@[simp] theorem get?_erase_self (map : SortedMap κ β) (key : κ) :
    (map.erase key).get? key = none := by
  simp [get?_erase]

theorem get?_erase_of_ne (map : SortedMap κ β) {key wanted : κ} (different : wanted ≠ key) :
    (map.erase key).get? wanted = map.get? wanted := by
  rw [get?_erase, if_neg fun same => different (compare_eq_iff.mp same)]

theorem mem_of_lookup {key : κ} {value : β} {entries : List (κ × β)}
    (found : lookup key entries = some value) : (key, value) ∈ entries := by
  induction entries with
  | nil => simp [lookup] at found
  | cons head rest ih =>
      obtain ⟨other, held⟩ := head
      simp only [lookup] at found
      split at found
      next same =>
        obtain rfl := compare_eq_iff.mp same
        cases found
        exact List.mem_cons_self
      · exact List.mem_cons_of_mem _ (ih found)

theorem lookup_of_mem {key : κ} {value : β} {entries : List (κ × β)}
    (ascending : entries.Pairwise fun first second => Before first.1 second.1)
    (member : (key, value) ∈ entries) : lookup key entries = some value := by
  induction entries with
  | nil => simp at member
  | cons head rest ih =>
      obtain ⟨other, held⟩ := head
      obtain ⟨above, later⟩ := List.pairwise_cons.mp ascending
      rcases List.mem_cons.mp member with same | inside
      · cases same
        simp [lookup]
      · have below : compare key other = .gt := compare_eq_gt_iff.mpr (above _ inside)
        simp only [lookup, below]
        exact ih later inside

/-- Looking a key up and listing the entries agree. -/
theorem get?_eq_some_iff (map : SortedMap κ β) {key : κ} {value : β} :
    map.get? key = some value ↔ (key, value) ∈ map.toList :=
  ⟨mem_of_lookup, lookup_of_mem map.ascending⟩

theorem mem_of_lookup_eq {first second : List (κ × β)}
    (ascending : first.Pairwise fun one other => Before one.1 other.1)
    (same : ∀ key, lookup key first = lookup key second) {entry : κ × β}
    (member : entry ∈ first) : entry ∈ second :=
  mem_of_lookup ((same entry.1).symm.trans (lookup_of_mem ascending member))

theorem eq_of_lookup_eq {first second : List (κ × β)}
    (ascending : first.Pairwise fun one other => Before one.1 other.1)
    (ascending' : second.Pairwise fun one other => Before one.1 other.1)
    (same : ∀ key, lookup key first = lookup key second) : first = second := by
  induction first generalizing second with
  | nil =>
      cases second with
      | nil => rfl
      | cons head rest =>
          exact absurd (mem_of_lookup_eq ascending' (fun key => (same key).symm)
            List.mem_cons_self) (List.not_mem_nil)
  | cons head rest ih =>
      cases second with
      | nil => exact absurd (mem_of_lookup_eq ascending same List.mem_cons_self) List.not_mem_nil
      | cons other others =>
          obtain ⟨above, later⟩ := List.pairwise_cons.mp ascending
          obtain ⟨above', later'⟩ := List.pairwise_cons.mp ascending'
          have heads : head = other := by
            rcases List.mem_cons.mp (mem_of_lookup_eq ascending same List.mem_cons_self) with
              here | there
            · exact here
            · rcases List.mem_cons.mp (mem_of_lookup_eq ascending'
                (fun key => (same key).symm) List.mem_cons_self) with here' | there'
              · exact here'.symm
              · exact absurd (above _ there') (Before.asymm (above' _ there))
          subst heads
          congr 1
          refine ih later later' fun key => ?_
          by_cases here : compare key head.1 = .eq
          · obtain rfl := compare_eq_iff.mp here
            have absent (entries : List (κ × β))
                (beyond : ∀ entry ∈ entries, Before head.1 entry.1) :
                lookup head.1 entries = none := by
              cases found : lookup head.1 entries with
              | none => rfl
              | some value => exact absurd rfl (beyond _ (mem_of_lookup found)).ne
            rw [absent rest above, absent others above']
          · have step := same key
            simpa [lookup, here] using step

/-- Maps with the same lookups are equal. -/
theorem ext_get? {first second : SortedMap κ β}
    (same : ∀ key, first.get? key = second.get? key) : first = second := by
  have entries := eq_of_lookup_eq first.ascending second.ascending same
  cases first
  cases second
  cases entries
  rfl

end SortedMap

end ChainVariables
