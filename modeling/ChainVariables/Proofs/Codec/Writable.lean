import Mathlib.Data.List.Forall2
import ChainVariables.Codec.Strict
import ChainVariables.Proofs.SortedMap.Entries

/-! # What can be written

A value can be written if none of its counts exceeds four bytes, no list of it
has items without bytes, and no float of it is a non-number. Reading never
produces any other value (`ChainVariables.Format.writable_of_read`): the counts
were read from four bytes, and a map holds no more entries than were read.
-/

namespace ChainVariables

namespace Format

variable {ε α β κ : Type}

/-- A value has bytes. -/
def Writable (format : Format α) (value : α) : Prop := ∃ written, format.write value = .ok written

theorem bind_eq_ok {action : Except ε α} {next : α → Except ε β} {result : β} :
    (action >>= next) = .ok result ↔ ∃ value, action = .ok value ∧ next value = .ok result := by
  cases action with
  | ok value => exact ⟨fun ended => ⟨value, rfl, ended⟩, by rintro ⟨_, ⟨⟩, ended⟩; exact ended⟩
  | error reason => exact ⟨nofun, by rintro ⟨_, ⟨⟩, _⟩⟩

/-! ## Writing, by the shape of the format -/

theorem writeCount_eq_ok_iff {count : Nat} {written : Bytes} :
    writeCount count = .ok written ↔ count < UInt32.size ∧ Word.toBytes 4 count = written := by
  unfold writeCount
  split
  next fits => rw [Except.ok.injEq, and_iff_right fits]
  next large => exact ⟨nofun, fun laidOut => absurd laidOut.1 large⟩

theorem writeCounted_eq_ok_iff {bytes written : Bytes} :
    writeCounted bytes = .ok written ↔
      bytes.length < UInt32.size ∧ Word.toBytes 4 bytes.length ++ bytes = written := by
  refine ⟨?_, ?_⟩
  · intro done
    obtain ⟨count, counted, done⟩ := bind_eq_ok.mp done
    obtain ⟨fits, rfl⟩ := writeCount_eq_ok_iff.mp counted
    cases done
    exact ⟨fits, rfl⟩
  · intro laidOut
    obtain ⟨fits, rfl⟩ := laidOut
    exact bind_eq_ok.mpr ⟨_, writeCount_eq_ok_iff.mpr ⟨fits, rfl⟩, rfl⟩

/-- Items are written as their number and then one after another. -/
theorem writeItems_eq_ok_iff {item : α → Except WriteFault Bytes} {items : List α}
    {written : Bytes} :
    writeItems item items = .ok written ↔ items.length < UInt32.size ∧
      ∃ parts, items.mapM item = .ok parts ∧
        Word.toBytes 4 items.length ++ parts.flatten = written := by
  refine ⟨?_, ?_⟩
  · intro done
    obtain ⟨count, counted, done⟩ := bind_eq_ok.mp done
    obtain ⟨parts, each, done⟩ := bind_eq_ok.mp done
    obtain ⟨fits, rfl⟩ := writeCount_eq_ok_iff.mp counted
    cases done
    exact ⟨fits, parts, each, rfl⟩
  · intro laidOut
    obtain ⟨fits, parts, each, rfl⟩ := laidOut
    exact bind_eq_ok.mpr ⟨_, writeCount_eq_ok_iff.mpr ⟨fits, rfl⟩,
      bind_eq_ok.mpr ⟨parts, each, rfl⟩⟩

theorem writeCounted_ok_iff {bytes : Bytes} :
    (∃ written, writeCounted bytes = .ok written) ↔ bytes.length < UInt32.size := by
  simp only [writeCounted_eq_ok_iff, exists_and_left, exists_eq', and_true]

theorem mapM_eq_ok_iff {item : α → Except ε β} {items : List α} {parts : List β} :
    items.mapM item = .ok parts ↔
      List.Forall₂ (fun value part => item value = .ok part) items parts := by
  induction items generalizing parts with
  | nil =>
      rw [List.forall₂_nil_left_iff]
      exact ⟨fun done => by cases done; rfl, fun none => none ▸ rfl⟩
  | cons value items ih =>
      rw [List.mapM_cons, List.forall₂_cons_left_iff]
      refine ⟨?_, ?_⟩
      · intro done
        obtain ⟨part, first, done⟩ := bind_eq_ok.mp done
        obtain ⟨parts, later, done⟩ := bind_eq_ok.mp done
        cases done
        exact ⟨part, parts, first, ih.mp later, rfl⟩
      · intro each
        obtain ⟨part, parts, first, later, rfl⟩ := each
        exact bind_eq_ok.mpr ⟨part, first, bind_eq_ok.mpr ⟨parts, ih.mpr later, rfl⟩⟩

theorem mapM_ok_iff {item : α → Except ε β} {items : List α} :
    (∃ parts, items.mapM item = .ok parts) ↔ ∀ value ∈ items, ∃ part, item value = .ok part := by
  induction items with
  | nil => exact ⟨fun _ => nofun, fun _ => ⟨[], rfl⟩⟩
  | cons value rest ih =>
      rw [List.mapM_cons]
      refine ⟨?_, ?_⟩
      · intro written
        obtain ⟨_, ended⟩ := written
        obtain ⟨part, first, ended⟩ := bind_eq_ok.mp ended
        obtain ⟨parts, later, _⟩ := bind_eq_ok.mp ended
        exact List.forall_mem_cons.mpr ⟨⟨part, first⟩, ih.mp ⟨parts, later⟩⟩
      · intro all
        obtain ⟨⟨part, first⟩, others⟩ := List.forall_mem_cons.mp all
        obtain ⟨parts, later⟩ := ih.mpr others
        exact ⟨part :: parts, bind_eq_ok.mpr ⟨part, first, bind_eq_ok.mpr ⟨parts, later, rfl⟩⟩⟩

theorem writeItems_ok_iff {item : α → Except WriteFault Bytes} {items : List α} :
    (∃ written, writeItems item items = .ok written) ↔
      items.length < UInt32.size ∧ ∀ value ∈ items, ∃ part, item value = .ok part := by
  rw [← mapM_ok_iff]
  refine ⟨?_, ?_⟩
  · intro written
    obtain ⟨_, written⟩ := written
    obtain ⟨fits, parts, done, _⟩ := writeItems_eq_ok_iff.mp written
    exact ⟨fits, parts, done⟩
  · intro possible
    obtain ⟨fits, parts, done⟩ := possible
    exact ⟨_, writeItems_eq_ok_iff.mpr ⟨fits, parts, done, rfl⟩⟩

theorem writable_text_iff {value : String} :
    text.Writable value ↔ (Utf8.encode value).length < UInt32.size :=
  writeCounted_ok_iff

theorem writable_bytes_iff {value : Bytes} : bytes.Writable value ↔ value.length < UInt32.size :=
  writeCounted_ok_iff

theorem append_ok_iff {first second : Except WriteFault Bytes} :
    (∃ written, (do return (← first) ++ (← second)) = Except.ok written) ↔
      (∃ written, first = .ok written) ∧ ∃ written, second = .ok written := by
  refine ⟨?_, ?_⟩
  · intro written
    obtain ⟨_, ended⟩ := written
    obtain ⟨left, begun, ended⟩ := bind_eq_ok.mp ended
    obtain ⟨right, done, _⟩ := bind_eq_ok.mp ended
    exact ⟨⟨left, begun⟩, ⟨right, done⟩⟩
  · intro possible
    obtain ⟨⟨left, begun⟩, ⟨right, done⟩⟩ := possible
    exact ⟨left ++ right, bind_eq_ok.mpr ⟨left, begun, bind_eq_ok.mpr ⟨right, done, rfl⟩⟩⟩

theorem writable_pair_iff {first : Format α} {second : Format β} {value : α × β} :
    (pair first second).Writable value ↔ first.Writable value.1 ∧ second.Writable value.2 :=
  append_ok_iff

theorem writable_list_iff {item : Format α} {values : List α} :
    item.list.Writable values ↔ item.isEmpty = false ∧ values.length < UInt32.size ∧
      ∀ value ∈ values, item.Writable value := by
  unfold Writable
  rw [← writeItems_ok_iff]
  cases empty : item.isEmpty <;> simp [write, empty]

theorem writable_map_iff [ByteKey κ] {key : Format κ} {value : Format β} {held : SortedMap κ β} :
    (map key value).Writable held ↔ held.size < UInt32.size ∧
      ∀ entry ∈ held.toList, key.Writable entry.1 ∧ value.Writable entry.2 := by
  unfold Writable
  rw [write, writeItems_ok_iff]
  simp only [append_ok_iff]
  rfl

theorem encode_ok_iff {format : Format α} {value : α} :
    (∃ written, format.encode value = .ok written) ↔ format.Writable value :=
  exists_congr fun _ => encode_eq_ok_iff

/-! ## Values that are only ever too long -/

/-- Nothing but its length keeps a value of the format from being written. -/
def SizeLimited (format : Format α) : Prop :=
  ∀ value fault, format.write value = .error fault → fault = .tooLong

theorem bind_eq_error {action : Except ε α} {next : α → Except ε β} {reason : ε} :
    (action >>= next) = .error reason ↔
      action = .error reason ∨ ∃ value, action = .ok value ∧ next value = .error reason := by
  cases action <;> simp [bind, Except.bind]

theorem error_of_mapM {item : α → Except ε β} {items : List α} {reason : ε}
    (failed : items.mapM item = .error reason) : ∃ value ∈ items, item value = .error reason := by
  induction items with
  | nil => cases failed
  | cons value rest ih =>
      rw [List.mapM_cons] at failed
      rcases bind_eq_error.mp failed with here | ⟨part, _, failed⟩
      · exact ⟨value, List.mem_cons_self, here⟩
      · rcases bind_eq_error.mp failed with later | ⟨_, _, ⟨⟩⟩
        obtain ⟨other, member, found⟩ := ih later
        exact ⟨other, List.mem_cons_of_mem _ member, found⟩

theorem writeCount_eq_error {count : Nat} {fault : WriteFault}
    (failed : writeCount count = .error fault) : fault = .tooLong := by
  unfold writeCount at failed
  split at failed <;> cases failed
  rfl

theorem writeCounted_eq_error {bytes : Bytes} {fault : WriteFault}
    (failed : writeCounted bytes = .error fault) : fault = .tooLong := by
  rcases bind_eq_error.mp failed with long | ⟨_, _, ⟨⟩⟩
  exact writeCount_eq_error long

theorem sizeLimited_text : text.SizeLimited := fun _ _ => writeCounted_eq_error

theorem sizeLimited_bytes : bytes.SizeLimited := fun _ _ => writeCounted_eq_error

theorem sizeLimited_map [ByteKey κ] {key : Format κ} {value : Format β} (keys : key.SizeLimited)
    (values : value.SizeLimited) : (map key value).SizeLimited := by
  intro held fault failed
  rcases bind_eq_error.mp failed with long | ⟨_, _, failed⟩
  · exact writeCount_eq_error long
  · rcases bind_eq_error.mp failed with some | ⟨_, _, ⟨⟩⟩
    obtain ⟨entry, _, failed⟩ := error_of_mapM some
    rcases bind_eq_error.mp failed with left | ⟨_, _, failed⟩
    · exact keys _ _ left
    · rcases bind_eq_error.mp failed with right | ⟨_, _, ⟨⟩⟩
      exact values _ _ right

/-- A value is encoded or refused as too long. -/
theorem SizeLimited.encode_cases {format : Format α} (limited : format.SizeLimited) (value : α) :
    (∃ written, format.encode value = .ok written) ∨
      format.encode value = .error (.bare .invalidInput) := by
  unfold encode
  cases ended : format.write value with
  | ok written => exact .inl ⟨written, rfl⟩
  | error fault =>
      obtain rfl := limited value fault ended
      exact .inr rfl

/-! ## Reading produces what can be written -/

theorem eq_append_of_take {count : Nat} {input taken rest : Bytes}
    (read : take count input = .ok (taken, rest)) :
    input = taken ++ rest ∧ taken.length = count := by
  simp only [take] at read
  split at read
  next exact =>
    cases read
    exact ⟨(List.take_append_drop ..).symm, exact⟩
  · cases read

theorem length_of_takeCounted {input taken rest : Bytes}
    (read : takeCounted input = .ok (taken, rest)) : taken.length < UInt32.size := by
  obtain ⟨⟨count, after⟩, _, read⟩ := bind_eq_ok.mp read
  rw [(eq_append_of_take read).2]
  exact count.isLt

/-- As many items are read as were counted, each by the reader of items. -/
theorem readItems_ok {item : Bytes → Except ReadFault (α × Bytes)} {count : Nat}
    {before items : List α} {input rest : Bytes}
    (read : readItems item count before input = .ok (items, rest)) :
    items.length = before.length + count ∧
      ∀ value ∈ items, value ∈ before ∨ ∃ input rest, item input = .ok (value, rest) := by
  induction count generalizing before input with
  | zero =>
      simp only [readItems, Except.ok.injEq, Prod.mk.injEq] at read
      obtain ⟨rfl, rfl⟩ := read
      exact ⟨List.length_reverse, fun value member => .inl (List.mem_reverse.mp member)⟩
  | succ count ih =>
      simp only [readItems] at read
      split at read
      next value after found =>
        obtain ⟨counted, each⟩ := ih read
        refine ⟨by rw [counted, List.length_cons]; omega, ?_⟩
        intro other member
        rcases each other member with held | fresh
        · rcases List.mem_cons.mp held with rfl | earlier
          · exact .inr ⟨input, after, found⟩
          · exact .inl earlier
        · exact .inr fresh
      · cases read

theorem mem_of_mem_ofList [ByteKey κ] {entries : List (κ × β)} {entry : κ × β}
    (member : entry ∈ (SortedMap.ofList entries).toList) : entry ∈ entries := by
  have found := (SortedMap.get?_eq_some_iff _).mpr member
  rw [SortedMap.get?_ofList] at found
  exact List.mem_reverse.mp (SortedMap.mem_of_lookup found)

/-- **A value that was read can be written.** -/
theorem writable_of_read (format : Format α) {input rest : Bytes} {value : α}
    (read : format.read input = .ok (value, rest)) : format.Writable value := by
  induction format generalizing input rest with
  | unit => exact ⟨[], rfl⟩
  | bool => exact ⟨_, rfl⟩
  | word width => exact ⟨_, rfl⟩
  | nonzero width => exact ⟨_, rfl⟩
  | float shape =>
      obtain ⟨⟨bits, after⟩, _, read⟩ := bind_eq_ok.mp read
      simp only at read
      split at read
      · cases read
      next number =>
        cases read
        exact ⟨_, if_neg number⟩
  | text =>
      obtain ⟨⟨taken, after⟩, counted, read⟩ := bind_eq_ok.mp read
      simp only at read
      split at read
      next found valid =>
        cases read
        rw [writable_text_iff, Utf8.decode_eq_ok_iff.mp valid]
        exact length_of_takeCounted counted
      · cases read
  | bytes => exact writable_bytes_iff.mpr (length_of_takeCounted read)
  | block length => exact ⟨_, rfl⟩
  | pair first second firstIh secondIh =>
      obtain ⟨⟨left, after⟩, begun, read⟩ := bind_eq_ok.mp read
      obtain ⟨⟨right, after'⟩, done, read⟩ := bind_eq_ok.mp read
      cases read
      exact writable_pair_iff.mpr ⟨firstIh begun, secondIh done⟩
  | option item ih =>
      obtain ⟨⟨tag, after⟩, _, read⟩ := bind_eq_ok.mp read
      simp only at read
      split at read
      · cases read
        exact ⟨_, rfl⟩
      · split at read
        · obtain ⟨⟨held, after'⟩, found, read⟩ := bind_eq_ok.mp read
          cases read
          obtain ⟨written, done⟩ := ih found
          exact ⟨_, bind_eq_ok.mpr ⟨written, done, rfl⟩⟩
        · cases read
  | result failure success failureIh successIh =>
      obtain ⟨⟨tag, after⟩, _, read⟩ := bind_eq_ok.mp read
      simp only at read
      split at read
      · obtain ⟨⟨held, after'⟩, found, read⟩ := bind_eq_ok.mp read
        cases read
        obtain ⟨written, done⟩ := failureIh found
        exact ⟨_, bind_eq_ok.mpr ⟨written, done, rfl⟩⟩
      · split at read
        · obtain ⟨⟨held, after'⟩, found, read⟩ := bind_eq_ok.mp read
          cases read
          obtain ⟨written, done⟩ := successIh found
          exact ⟨_, bind_eq_ok.mpr ⟨written, done, rfl⟩⟩
        · cases read
  | list item ih =>
      simp only [Format.read] at read
      split at read
      · cases read
      next nonempty =>
        obtain ⟨⟨count, after⟩, _, read⟩ := bind_eq_ok.mp read
        obtain ⟨counted, each⟩ := readItems_ok read
        refine writable_list_iff.mpr ⟨Bool.eq_false_iff.mpr nonempty, ?_, ?_⟩
        · rw [counted, List.length_nil, Nat.zero_add]
          exact count.isLt
        · intro value member
          rcases each value member with none | ⟨_, _, found⟩
          · cases none
          · exact ih found
  | map key value keyIh valueIh =>
      obtain ⟨⟨count, after⟩, _, read⟩ := bind_eq_ok.mp read
      obtain ⟨⟨entries, after'⟩, items, read⟩ := bind_eq_ok.mp read
      cases read
      obtain ⟨counted, each⟩ := readItems_ok items
      refine writable_map_iff.mpr ⟨?_, ?_⟩
      · apply Nat.lt_of_le_of_lt (SortedMap.size_ofList_le entries)
        rw [counted, List.length_nil, Nat.zero_add]
        exact count.isLt
      · intro entry member
        rcases each entry (mem_of_mem_ofList member) with none | ⟨_, _, found⟩
        · cases none
        · obtain ⟨⟨left, middle⟩, begun, found⟩ := bind_eq_ok.mp found
          obtain ⟨⟨right, ending⟩, done, found⟩ := bind_eq_ok.mp found
          cases found
          exact ⟨keyIh begun, valueIh done⟩
  | via source build parts build_parts parts_build ih =>
      obtain ⟨⟨held, after⟩, found, read⟩ := bind_eq_ok.mp read
      cases read
      obtain ⟨written, done⟩ := ih found
      exact ⟨written, by rw [write, parts_build]; exact done⟩

/-- A decoded value can be encoded. -/
theorem writable_of_decode {format : Format α} {bytes : Bytes} {value : α}
    (decoded : format.decode bytes = .ok value) : format.Writable value :=
  writable_of_read format (decode_eq_ok_iff.mp decoded)

end Format

end ChainVariables
