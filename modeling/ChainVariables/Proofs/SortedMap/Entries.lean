import Mathlib.Data.List.Induction
import Mathlib.Data.List.Perm.Subperm
import ChainVariables.SortedMap

/-! # Entries of maps

A map can be collected from entries in any order, even if they repeat a key. It
then holds for every key the value of the last entry of that key
(`ChainVariables.SortedMap.get?_ofList`), so the order of entries with different
keys does not matter (`ChainVariables.SortedMap.get?_ofList_eq_some_iff`). In a
map no key occurs twice, so its size is that of the set of its keys.
-/

namespace ChainVariables.SortedMap

open ByteKey

variable {κ β : Type} [ByteKey κ]

theorem ofList_concat (entries : List (κ × β)) (entry : κ × β) :
    ofList (entries ++ [entry]) = (ofList entries).insert entry.1 entry.2 := by
  unfold ofList
  rw [List.foldl_append]
  rfl

/-- Of the entries put over a map the last of a key counts; other keys keep their values. -/
theorem get?_foldl_insert (map : SortedMap κ β) (entries : List (κ × β)) (key : κ) :
    (entries.foldl (fun map entry => map.insert entry.1 entry.2) map).get? key =
      (lookup key entries.reverse).or (map.get? key) := by
  induction entries using List.reverseRecOn with
  | nil => rfl
  | append_singleton entries entry ih =>
      rw [List.foldl_append, List.foldl_cons, List.foldl_nil, get?_insert, ih,
        List.reverse_append, List.reverse_singleton, List.singleton_append]
      obtain ⟨other, value⟩ := entry
      simp only [lookup]
      cases compare key other <;> rfl

/-- The last entry of a key counts. -/
theorem get?_ofList (entries : List (κ × β)) (key : κ) :
    (ofList entries).get? key = lookup key entries.reverse := by
  rw [ofList, get?_foldl_insert, get?_empty, Option.or_none]

/-- Changing the values of entries changes what is found, and not where. -/
theorem lookup_map_values {γ : Type} (image : β → γ) (key : κ) (entries : List (κ × β)) :
    lookup key (entries.map fun entry => (entry.1, image entry.2)) =
      (lookup key entries).map image := by
  induction entries with
  | nil => rfl
  | cons head rest ih =>
      obtain ⟨other, held⟩ := head
      simp only [List.map_cons, lookup, ih]
      cases compare key other <;> rfl

/-- Maps whose values have the same images list the same entries with these images. -/
theorem map_values_eq_of_get? {γ : Type} {first second : SortedMap κ β} {image : β → γ}
    (same : ∀ key, (first.get? key).map image = (second.get? key).map image) :
    (first.toList.map fun entry => (entry.1, image entry.2)) =
      second.toList.map fun entry => (entry.1, image entry.2) := by
  have ascending (map : SortedMap κ β) :
      (map.toList.map fun entry => (entry.1, image entry.2)).Pairwise
        fun one other => Before one.1 other.1 := List.pairwise_map.mpr map.ascending
  refine eq_of_lookup_eq (ascending first) (ascending second) fun key => ?_
  rw [lookup_map_values, lookup_map_values]
  exact same key

theorem lookup_of_mem_of_nodup {key : κ} {value : β} {entries : List (κ × β)}
    (distinct : (entries.map Prod.fst).Nodup) (member : (key, value) ∈ entries) :
    lookup key entries = some value := by
  induction entries with
  | nil => simp at member
  | cons head rest ih =>
      obtain ⟨other, held⟩ := head
      rw [List.map_cons, List.nodup_cons] at distinct
      rcases List.mem_cons.mp member with same | inside
      · cases same
        simp [lookup]
      · have different : compare key other ≠ .eq := by
          intro same
          obtain rfl := compare_eq_iff.mp same
          exact distinct.1 (List.mem_map.mpr ⟨_, inside, rfl⟩)
        simp only [lookup]
        exact ih distinct.2 inside

/-- Entries of different keys can be collected in any order. -/
theorem get?_ofList_eq_some_iff {entries : List (κ × β)}
    (distinct : (entries.map Prod.fst).Nodup) {key : κ} {value : β} :
    (ofList entries).get? key = some value ↔ (key, value) ∈ entries := by
  rw [get?_ofList]
  refine ⟨?_, ?_⟩
  · intro found
    exact List.mem_reverse.mp (mem_of_lookup found)
  · intro member
    apply lookup_of_mem_of_nodup
    · rw [List.map_reverse]
      exact List.pairwise_reverse.mpr (distinct.imp Ne.symm)
    · exact List.mem_reverse.mpr member

theorem isEmpty_insert (map : SortedMap κ β) (key : κ) (value : β) :
    (map.insert key value).isEmpty = false := by
  rw [← Bool.not_eq_true]
  intro vacant
  have absent : (map.insert key value).get? key = none := get?_of_isEmpty _ vacant
  rw [get?_insert_self] at absent
  cases absent

theorem isEmpty_eq_false_iff {map : SortedMap κ β} :
    map.isEmpty = false ↔ ∃ key value, map.get? key = some value := by
  rw [isEmpty, List.isEmpty_eq_false_iff_exists_mem, Prod.exists]
  simp only [get?_eq_some_iff]

theorem keys_nodup (map : SortedMap κ β) : map.keys.Nodup := by
  unfold keys
  rw [List.Nodup, List.pairwise_map]
  exact map.ascending.imp fun before => before.ne

/-- The keys of a map are those it has a value for. -/
theorem mem_keys_iff {map : SortedMap κ β} {key : κ} :
    key ∈ map.keys ↔ map.contains key = true := by
  rw [contains, Option.isSome_iff_exists]
  simp only [keys, List.mem_map, get?_eq_some_iff]
  refine ⟨?_, ?_⟩
  · intro listed
    obtain ⟨⟨_, value⟩, inside, rfl⟩ := listed
    exact ⟨value, inside⟩
  · intro present
    obtain ⟨value, inside⟩ := present
    exact ⟨(key, value), inside, rfl⟩

theorem length_insertEntry_le (key : κ) (value : β) (entries : List (κ × β)) :
    (insertEntry key value entries).length ≤ entries.length + 1 := by
  induction entries with
  | nil => exact Nat.le_refl 1
  | cons head rest ih =>
      simp only [insertEntry]
      split <;> simp only [List.length_cons] <;> omega

/-- Repeated keys only make the map smaller. -/
theorem size_ofList_le (entries : List (κ × β)) : (ofList entries).size ≤ entries.length := by
  induction entries using List.reverseRecOn with
  | nil => exact Nat.le_refl 0
  | append_singleton entries entry ih =>
      rw [ofList_concat, List.length_append, List.length_singleton]
      have grown := length_insertEntry_le entry.1 entry.2 (ofList entries).toList
      unfold size at ih ⊢
      exact Nat.le_trans grown (Nat.succ_le_succ ih)

/-- A map whose keys are all keys of another is no larger. -/
theorem size_le_of_keys {γ : Type} {first : SortedMap κ β} {second : SortedMap κ γ}
    (within : ∀ key value, first.get? key = some value → ∃ other, second.get? key = some other) :
    first.size ≤ second.size := by
  have subset : first.keys ⊆ second.keys := by
    intro key member
    obtain ⟨⟨_, value⟩, inside, rfl⟩ := List.mem_map.mp member
    obtain ⟨other, found⟩ := within _ value (first.get?_eq_some_iff.mpr inside)
    exact List.mem_map.mpr ⟨(_, other), second.get?_eq_some_iff.mp found, rfl⟩
  have shorter := (List.subperm_of_subset first.keys_nodup subset).length_le
  rw [keys, keys, List.length_map, List.length_map] at shorter
  exact shorter

end ChainVariables.SortedMap
