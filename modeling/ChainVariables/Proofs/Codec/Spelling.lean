import Mathlib.Algebra.Order.BigOperators.Group.List
import Mathlib.Algebra.Order.Group.Nat
import ChainVariables.Proofs.Codec.Inverse

/-! # Maps spelled out

A map is laid out like a list of entries: a count, and then every entry with its
key before its value. So a format with maps is read in two steps. First the
entries are read as they stand, in any order and with repeated keys, by a format
that has lists in place of the maps; then they are collected
(`ChainVariables.Format.Spelling`). Among the spellings of a value only one has
its keys in ascending order everywhere. It is the one that is written, and no
other is shorter.
-/

namespace ChainVariables

namespace SortedMap

open ByteKey

variable {κ β : Type} [ByteKey κ]

/-- The keys of entries ascend strictly, so none occurs twice. -/
def Ascending (entries : List (κ × β)) : Prop :=
  entries.Pairwise fun first second => Before first.1 second.1

/-- Collecting entries leaves them as they are only if their keys ascend. -/
theorem toList_ofList_eq_iff {entries : List (κ × β)} :
    (ofList entries).toList = entries ↔ Ascending entries := by
  refine ⟨?_, ?_⟩
  · intro same
    exact same ▸ (ofList entries).ascending
  · intro ascending
    exact congrArg toList (ofList_toList ⟨entries, ascending⟩)

/-- Collecting entries adds none. -/
theorem toList_ofList_subperm (entries : List (κ × β)) :
    (ofList entries).toList.Subperm entries := by
  have distinct : (ofList entries).toList.Nodup :=
    (ofList entries).ascending.imp fun before same => before.ne (congrArg Prod.fst same)
  exact List.subperm_of_subset distinct fun _ member => Format.mem_of_mem_ofList member

end SortedMap

namespace Format

variable {α β ρ κ σ : Type}

/-! ## How long written items are -/

/-- The number of bytes that an item is written as. -/
def writtenLength (item : α → Except WriteFault Bytes) (value : α) : Nat :=
  match item value with
  | .ok part => part.length
  | .error _ => 0

theorem length_of_mapM {item : α → Except WriteFault Bytes} {items : List α} {parts : List Bytes}
    (done : items.mapM item = .ok parts) :
    parts.flatten.length = (items.map (writtenLength item)).sum := by
  induction items generalizing parts with
  | nil =>
      cases done
      rfl
  | cons value items ih =>
      rw [List.mapM_cons] at done
      obtain ⟨part, first, done⟩ := bind_eq_ok.mp done
      obtain ⟨parts, later, done⟩ := bind_eq_ok.mp done
      cases done
      have size : writtenLength item value = part.length := by simp only [writtenLength, first]
      rw [List.flatten_cons, List.length_append, ih later, List.map_cons, List.sum_cons, size]

theorem length_of_writeItems {item : α → Except WriteFault Bytes} {items : List α}
    {written : Bytes} (done : writeItems item items = .ok written) :
    written.length = 4 + (items.map (writtenLength item)).sum := by
  obtain ⟨_, parts, each, rfl⟩ := writeItems_eq_ok_iff.mp done
  rw [List.length_append, Word.length_toBytes, length_of_mapM each]

/-- Fewer items, or shorter ones, are written as fewer bytes. -/
theorem writeItems_shorter {item : α → Except WriteFault Bytes}
    {item' : β → Except WriteFault Bytes} {items : List α} {items' : List β} {bytes : Bytes}
    (done : writeItems item' items' = .ok bytes) (fewer : items.length ≤ items'.length)
    (each : ∀ value ∈ items, ∃ part, item value = .ok part)
    (shorter : (items.map (writtenLength item)).sum ≤ (items'.map (writtenLength item')).sum) :
    ∃ written, writeItems item items = .ok written ∧ written.length ≤ bytes.length := by
  have fits := (writeItems_ok_iff.mp ⟨bytes, done⟩).1
  obtain ⟨written, done'⟩ := writeItems_ok_iff.mpr ⟨Nat.lt_of_le_of_lt fewer fits, each⟩
  refine ⟨written, done', ?_⟩
  rw [length_of_writeItems done, length_of_writeItems done']
  exact Nat.add_le_add_left shorter 4

/-! ## Spellings -/

/-- A value as it was read, with the bytes after it, made into another one. -/
def onValue (image : ρ → α) (read : ρ × Bytes) : α × Bytes := (image read.1, read.2)

/-- How the values of a format are spelled in another format, which has lists of entries where the
first one has maps. -/
structure Spelling (format : Format α) (plain : Format ρ) where
  /-- What a spelling is read as. -/
  value : ρ → α
  /-- The spelling that a value is written in. -/
  normal : α → ρ
  /-- All entries stand in ascending order of their keys. -/
  Ordered : ρ → Prop
  read_eq : ∀ input, format.read input = (plain.read input).map (onValue value)
  write_eq : ∀ held, format.write held = plain.write (normal held)
  value_normal : ∀ held, value (normal held) = held
  normal_value_iff : ∀ spelled, normal (value spelled) = spelled ↔ Ordered spelled
  shorter : ∀ {spelled bytes}, plain.write spelled = .ok bytes →
    ∃ written, format.write (value spelled) = .ok written ∧ written.length ≤ bytes.length

theorem pair_isEmpty {key : Format κ} (value : Format β) (nonempty : key.isEmpty = false) :
    (pair key value).isEmpty = false := by
  rw [isEmpty, nonempty, Bool.false_and]

theorem write_list_eq {item : Format α} (nonempty : item.isEmpty = false) (items : List α) :
    item.list.write items = writeItems item.write items := by
  simp only [write, nonempty, Bool.false_eq_true, ↓reduceIte]

theorem read_list_eq {item : Format α} (nonempty : item.isEmpty = false) (input : Bytes) :
    item.list.read input =
      takeWord 4 input >>= fun found => readItems item.read found.1.toNat [] found.2 := by
  simp only [read, nonempty, Bool.false_eq_true, ↓reduceIte]

theorem write_map_eq [ByteKey κ] (key : Format κ) (value : Format β) (held : SortedMap κ β) :
    (map key value).write held = writeItems (pair key value).write held.toList := rfl

/-- A map is spelled as the list of its entries. -/
def Spelling.ofMap [ByteKey κ] (key : Format κ) (value : Format β)
    (nonempty : key.isEmpty = false) : Spelling (map key value) (list (pair key value)) where
  value := .ofList
  normal := (·.toList)
  Ordered := SortedMap.Ascending
  read_eq input := by
    rw [read_list_eq (pair_isEmpty value nonempty)]
    cases counted : takeWord 4 input with
    | error fault => simp only [read, counted]; rfl
    | ok found =>
        have collected : (map key value).read input =
            readItems (pair key value).read found.1.toNat [] found.2 >>= fun read =>
              .ok (.ofList read.1, read.2) := by
          simp only [read, counted]
          rfl
        rw [collected]
        show _ = (readItems (pair key value).read found.1.toNat [] found.2).map _
        cases readItems (pair key value).read found.1.toNat [] found.2 <;> rfl
  write_eq held := by rw [write_map_eq, write_list_eq (pair_isEmpty value nonempty)]
  value_normal := SortedMap.ofList_toList
  normal_value_iff _ := SortedMap.toList_ofList_eq_iff
  shorter := by
    intro entries bytes done
    rw [write_list_eq (pair_isEmpty value nonempty)] at done
    have fewer := SortedMap.toList_ofList_subperm entries
    refine writeItems_shorter done fewer.length_le ?_ ?_
    · intro entry member
      exact (writeItems_ok_iff.mp ⟨bytes, done⟩).2 entry (fewer.subset member)
    · obtain ⟨kept, perm, sublist⟩ := fewer
      rw [← (perm.map _).sum_eq]
      exact (sublist.map _).sum_le_sum fun _ _ => Nat.zero_le _

/-- The same in two steps. -/
def Spelling.trans {format : Format α} {middle : Format σ} {plain : Format ρ}
    (outer : Spelling format middle) (inner : Spelling middle plain) : Spelling format plain where
  value spelled := outer.value (inner.value spelled)
  normal held := inner.normal (outer.normal held)
  Ordered spelled := inner.Ordered spelled ∧ outer.Ordered (inner.value spelled)
  read_eq input := by
    rw [outer.read_eq, inner.read_eq]
    cases plain.read input <;> rfl
  write_eq held := by rw [outer.write_eq, inner.write_eq]
  value_normal held := by rw [inner.value_normal, outer.value_normal]
  normal_value_iff spelled := by
    rw [← inner.normal_value_iff, ← outer.normal_value_iff]
    refine ⟨?_, ?_⟩
    · intro same
      have middle := congrArg inner.value same
      rw [inner.value_normal] at middle
      exact ⟨middle ▸ same, middle⟩
    · intro ordered
      rw [ordered.2, ordered.1]
  shorter := by
    intro spelled bytes done
    obtain ⟨between, done', shorter⟩ := inner.shorter done
    obtain ⟨written, done'', shorter'⟩ := outer.shorter done'
    exact ⟨written, done'', Nat.le_trans shorter' shorter⟩

/-- A spelling of values is one of the values of a type that corresponds to theirs. -/
def Spelling.via {source : Format α} {plain : Format ρ} (spelling : Spelling source plain)
    (build : α → β) (parts : β → α) (build_parts : ∀ value, build (parts value) = value)
    (parts_build : ∀ value, parts (build value) = value) :
    Spelling (.via source build parts build_parts parts_build) plain where
  value spelled := build (spelling.value spelled)
  normal held := spelling.normal (parts held)
  Ordered := spelling.Ordered
  read_eq input := by
    simp only [read, spelling.read_eq]
    cases plain.read input <;> rfl
  write_eq held := spelling.write_eq (parts held)
  value_normal held := by rw [spelling.value_normal, build_parts]
  normal_value_iff spelled := by rw [parts_build, spelling.normal_value_iff]
  shorter := by
    intro spelled bytes done
    simp only [write, parts_build]
    exact spelling.shorter done

/-- An item with its second half made into another value. -/
def onSecond (image : ρ → α) (entry : κ × ρ) : κ × α := (entry.1, image entry.2)

theorem readItems_map {item : Bytes → Except ReadFault (α × Bytes)}
    {plain : Bytes → Except ReadFault (ρ × Bytes)} {image : ρ → α}
    (same : ∀ input, item input = (plain input).map (onValue image)) (count : Nat)
    (before : List ρ) (input : Bytes) :
    readItems item count (before.map image) input =
      (readItems plain count before input).map (onValue (List.map image)) := by
  induction count generalizing before input with
  | zero =>
      simp only [readItems, ← List.map_reverse]
      rfl
  | succ count ih =>
      simp only [readItems, same]
      cases plain input with
      | error fault => rfl
      | ok found => exact ih (found.1 :: before) found.2

theorem writeItems_map {item : α → Except WriteFault Bytes} {plain : ρ → Except WriteFault Bytes}
    {image : α → ρ} (same : ∀ value, item value = plain (image value)) (items : List α) :
    writeItems item items = writeItems plain (items.map image) := by
  have each : items.mapM item = (items.map image).mapM plain := by
    rw [List.mapM_map]
    exact congrArg (fun item => items.mapM item) (funext same)
  simp only [writeItems, each, List.length_map]

/-- A key with a spelled value is written as at least as many bytes as with the value itself. -/
theorem Spelling.entry_shorter {value : Format β} {plain : Format ρ} (spelling : Spelling value plain)
    {key : Format κ} {entry : κ × ρ} {part : Bytes} (done : (pair key plain).write entry = .ok part) :
    ∃ written, (pair key value).write (onSecond spelling.value entry) = .ok written ∧
      written.length ≤ part.length := by
  obtain ⟨left, begun, done⟩ := bind_eq_ok.mp done
  obtain ⟨right, ended, done⟩ := bind_eq_ok.mp done
  cases done
  obtain ⟨right', ended', shorter⟩ := spelling.shorter ended
  refine ⟨left ++ right', bind_eq_ok.mpr ⟨left, begun, bind_eq_ok.mpr ⟨right', ended', rfl⟩⟩, ?_⟩
  rw [List.length_append, List.length_append]
  exact Nat.add_le_add_left shorter left.length

/-- Entries whose values are spelled out. -/
def Spelling.ofEntries {value : Format β} {plain : Format ρ} (key : Format κ)
    (nonempty : key.isEmpty = false) (spelling : Spelling value plain) :
    Spelling (list (pair key value)) (list (pair key plain)) where
  value := List.map (onSecond spelling.value)
  normal := List.map (onSecond spelling.normal)
  Ordered entries := ∀ entry ∈ entries, spelling.Ordered entry.2
  read_eq input := by
    have each (input : Bytes) : (pair key value).read input =
        ((pair key plain).read input).map (onValue (onSecond spelling.value)) := by
      simp only [read]
      cases key.read input with
      | error fault => rfl
      | ok found =>
          simp only [bind, Except.bind, spelling.read_eq]
          cases plain.read found.2 <;> rfl
    rw [read_list_eq (pair_isEmpty value nonempty), read_list_eq (pair_isEmpty plain nonempty)]
    cases takeWord 4 input with
    | error fault => rfl
    | ok found => exact readItems_map each found.1.toNat [] found.2
  write_eq entries := by
    rw [write_list_eq (pair_isEmpty value nonempty), write_list_eq (pair_isEmpty plain nonempty)]
    apply writeItems_map
    intro entry
    simp only [write, spelling.write_eq, onSecond]
  value_normal entries := by
    rw [List.map_map]
    exact List.map_id'' (fun entry => by simp only [Function.comp, onSecond, spelling.value_normal])
      entries
  normal_value_iff entries := by
    rw [List.map_map]
    induction entries with
    | nil => exact ⟨fun _ => nofun, fun _ => rfl⟩
    | cons entry rest ih =>
        rw [List.map_cons, List.cons.injEq, ih, List.forall_mem_cons]
        simp only [Function.comp, onSecond, Prod.ext_iff, true_and, spelling.normal_value_iff]
  shorter := by
    intro entries bytes done
    rw [write_list_eq (pair_isEmpty plain nonempty)] at done
    rw [write_list_eq (pair_isEmpty value nonempty)]
    have each := (writeItems_ok_iff.mp ⟨bytes, done⟩).2
    refine writeItems_shorter done (Nat.le_of_eq (List.length_map ..)) ?_ ?_
    · intro entry member
      obtain ⟨spelled, inside, rfl⟩ := List.mem_map.mp member
      obtain ⟨part, found⟩ := each spelled inside
      obtain ⟨written, done', _⟩ := spelling.entry_shorter found
      exact ⟨written, done'⟩
    · rw [List.map_map]
      apply List.sum_le_sum
      intro spelled inside
      obtain ⟨part, found⟩ := each spelled inside
      obtain ⟨written, done', shorter⟩ := spelling.entry_shorter found
      simp only [Function.comp, writtenLength, done', found]
      exact shorter

theorem ascending_map_onSecond [ByteKey κ] {image : ρ → α} {entries : List (κ × ρ)} :
    SortedMap.Ascending (entries.map (onSecond image)) ↔ SortedMap.Ascending entries :=
  List.pairwise_map

/-- A map whose values are spelled out is spelled as the list of its entries with these spellings.
Its values may be maps themselves. -/
def Spelling.ofNestedMap [ByteKey κ] {value : Format β} {plain : Format ρ} (key : Format κ)
    (nonempty : key.isEmpty = false) (spelling : Spelling value plain) :
    Spelling (map key value) (list (pair key plain)) :=
  { (ofMap key value nonempty).trans (ofEntries key nonempty spelling) with
    Ordered := fun entries =>
      SortedMap.Ascending entries ∧ ∀ entry ∈ entries, spelling.Ordered entry.2
    normal_value_iff := fun entries => by
      rw [Spelling.normal_value_iff, and_comm, ← ascending_map_onSecond]
      rfl }

end Format

end ChainVariables
