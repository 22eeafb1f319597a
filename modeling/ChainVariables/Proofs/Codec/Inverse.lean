import ChainVariables.Digest
import ChainVariables.Relocation
import ChainVariables.Proofs.Codec.RoundTrip

/-! # Formats without maps

Where no map occurs, a value has one byte string and reading finds no other:
the bytes that were read are the bytes that the value is written as
(`ChainVariables.Format.write_of_read`). Decoding and encoding are then inverse
to each other (`ChainVariables.Format.decode_eq_ok_iff_encode_eq_ok`), so what
is accepted is what could have been written, byte for byte.
-/

namespace ChainVariables

theorem Word.ofBytes_lt (bytes : Bytes) : Word.ofBytes bytes < 256 ^ bytes.length := by
  induction bytes with
  | nil => exact Nat.one_pos
  | cons byte rest ih =>
      have low := byte.toNat_lt
      rw [Word.ofBytes, List.length_cons, Nat.pow_succ]
      omega

/-- The bytes of a text are those of its characters, one after another. -/
theorem Utf8.encode_ofList (chars : List Char) :
    Utf8.encode (String.ofList chars) = chars.flatMap String.utf8EncodeChar := by
  simp [Utf8.encode, List.utf8Encode]

namespace Format

variable {α β : Type}

/-! ## What was read, byte for byte -/

theorem eq_append_of_takeByte {input rest : Bytes} {byte : UInt8}
    (read : takeByte input = .ok (byte, rest)) : input = byte :: rest := by
  cases input <;> cases read
  rfl

theorem eq_append_of_takeWord {width : Nat} {value : BitVec (8 * width)} {input rest : Bytes}
    (read : takeWord width input = .ok (value, rest)) :
    input = Word.toBytes width value.toNat ++ rest := by
  obtain ⟨⟨taken, after⟩, begun, read⟩ := bind_eq_ok.mp read
  cases read
  obtain ⟨rfl, rfl⟩ := eq_append_of_take begun
  have small : Word.ofBytes taken < 2 ^ (8 * taken.length) := by
    rw [Nat.pow_mul]
    exact Word.ofBytes_lt taken
  rw [BitVec.toNat_ofNat, Nat.mod_eq_of_lt small, Word.toBytes_ofBytes]

theorem writeCounted_of_takeCounted {input taken rest : Bytes}
    (read : takeCounted input = .ok (taken, rest)) :
    ∃ written, writeCounted taken = .ok written ∧ input = written ++ rest := by
  have fits := length_of_takeCounted read
  obtain ⟨⟨count, after⟩, counted, ended⟩ := bind_eq_ok.mp read
  obtain rfl := eq_append_of_takeWord counted
  obtain ⟨rfl, exact⟩ := eq_append_of_take ended
  rw [← exact]
  exact ⟨_, writeCounted_eq_ok_iff.mpr ⟨fits, rfl⟩, (List.append_assoc ..).symm⟩

/-- The bytes that the reader takes for a value are those that the writer makes of it. -/
def Exact (read : Bytes → Except ReadFault (α × Bytes)) (write : α → Except WriteFault Bytes) :
    Prop :=
  ∀ {input value rest}, read input = .ok (value, rest) →
    ∃ written, write value = .ok written ∧ input = written ++ rest

/-- Items that were read one after another are those that are written one after another. -/
theorem mapM_of_readItems {read : Bytes → Except ReadFault (α × Bytes)}
    {write : α → Except WriteFault Bytes} (exact : Exact read write) {count : Nat}
    {before items : List α} {input rest : Bytes}
    (done : readItems read count before input = .ok (items, rest)) :
    ∃ fresh parts, items = before.reverse ++ fresh ∧ fresh.length = count ∧
      fresh.mapM write = .ok parts ∧ input = parts.flatten ++ rest := by
  induction count generalizing before input with
  | zero =>
      cases done
      exact ⟨[], [], (List.append_nil _).symm, rfl, rfl, rfl⟩
  | succ count ih =>
      simp only [readItems] at done
      split at done
      next value after found =>
        obtain ⟨part, first, rfl⟩ := exact found
        obtain ⟨fresh, parts, rfl, rfl, later, rfl⟩ := ih done
        refine ⟨value :: fresh, part :: parts, ?_, rfl, ?_, ?_⟩
        · rw [List.reverse_cons, List.append_assoc, List.singleton_append]
        · rw [List.mapM_cons]
          exact bind_eq_ok.mpr ⟨part, first, bind_eq_ok.mpr ⟨parts, later, rfl⟩⟩
        · rw [List.flatten_cons, List.append_assoc]
      · cases done

theorem writeItems_of_readItems {read : Bytes → Except ReadFault (α × Bytes)}
    {write : α → Except WriteFault Bytes} (exact : Exact read write) {count : BitVec (8 * 4)}
    {items : List α} {input after rest : Bytes} (counted : takeWord 4 input = .ok (count, after))
    (done : readItems read count.toNat [] after = .ok (items, rest)) :
    ∃ written, writeItems write items = .ok written ∧ input = written ++ rest := by
  obtain rfl := eq_append_of_takeWord counted
  obtain ⟨fresh, parts, rfl, size, each, rfl⟩ := mapM_of_readItems exact done
  have fits : items.length < UInt32.size := size ▸ count.isLt
  rw [← size]
  exact ⟨_, writeItems_eq_ok_iff.mpr ⟨fits, parts, each, rfl⟩, (List.append_assoc ..).symm⟩

/-- What was read after a tag is what is written after it. -/
theorem write_tagged_of_read {inner : Format α} (exact : Exact inner.read inner.write)
    (tag : UInt8) {wrap : α → β} {value : β} {input rest : Bytes}
    (read : (do let (held, after) ← inner.read input; return (wrap held, after)) =
      Except.ok (value, rest)) :
    ∃ held, value = wrap held ∧ ∃ written,
      (do return tag :: (← inner.write held)) = Except.ok written ∧
        tag :: input = written ++ rest := by
  obtain ⟨⟨held, after⟩, found, read⟩ := bind_eq_ok.mp read
  cases read
  obtain ⟨written, done, rfl⟩ := exact found
  exact ⟨held, rfl, tag :: written, bind_eq_ok.mpr ⟨written, done, rfl⟩, rfl⟩

/-! ## All formats without maps -/

/-- **What was read without maps is what is written.** -/
theorem write_of_read (format : Format α) (free : format.MapFree) :
    Exact format.read format.write := by
  induction format with
  | unit =>
      intro input value rest read
      cases read
      exact ⟨[], rfl, rfl⟩
  | bool =>
      intro input value rest read
      obtain ⟨⟨tag, after⟩, tagged, ended⟩ := bind_eq_ok.mp read
      obtain rfl := eq_append_of_takeByte tagged
      simp only at ended
      split at ended
      next zero =>
        cases ended
        exact ⟨[0], rfl, by rw [zero]; rfl⟩
      · split at ended
        next one =>
          cases ended
          exact ⟨[1], rfl, by rw [one]; rfl⟩
        · cases ended
  | word width => exact fun read => ⟨_, rfl, eq_append_of_takeWord read⟩
  | nonzero width =>
      intro input value rest read
      obtain ⟨⟨word, after⟩, begun, ended⟩ := bind_eq_ok.mp read
      simp only at ended
      split at ended
      · cases ended
        exact ⟨_, rfl, eq_append_of_takeWord begun⟩
      · cases ended
  | float shape =>
      intro input value rest read
      obtain ⟨⟨bits, after⟩, begun, ended⟩ := bind_eq_ok.mp read
      simp only at ended
      split at ended
      · cases ended
      next number =>
        cases ended
        exact ⟨_, if_neg number, eq_append_of_takeWord begun⟩
  | text =>
      intro input value rest read
      obtain ⟨⟨taken, after⟩, begun, ended⟩ := bind_eq_ok.mp read
      simp only at ended
      split at ended
      next found valid =>
        cases ended
        obtain rfl := Utf8.decode_eq_ok_iff.mp valid
        exact writeCounted_of_takeCounted begun
      · cases ended
  | bytes => exact writeCounted_of_takeCounted
  | block length =>
      intro input value rest read
      simp only [Format.read] at read
      split at read
      · cases read
        exact ⟨_, rfl, (List.take_append_drop ..).symm⟩
      · cases read
  | pair first second firstIh secondIh =>
      intro input value rest read
      obtain ⟨⟨left, middle⟩, begun, ended⟩ := bind_eq_ok.mp read
      obtain ⟨⟨right, after⟩, done, ended⟩ := bind_eq_ok.mp ended
      cases ended
      obtain ⟨part, written, rfl⟩ := firstIh free.1 begun
      obtain ⟨part', written', rfl⟩ := secondIh free.2 done
      refine ⟨part ++ part', ?_, (List.append_assoc ..).symm⟩
      exact bind_eq_ok.mpr ⟨part, written, bind_eq_ok.mpr ⟨part', written', rfl⟩⟩
  | option item ih =>
      intro input value rest read
      obtain ⟨⟨tag, after⟩, tagged, ended⟩ := bind_eq_ok.mp read
      obtain rfl := eq_append_of_takeByte tagged
      simp only at ended
      split at ended
      next zero =>
        cases ended
        exact ⟨[0], rfl, by rw [zero]; rfl⟩
      · split at ended
        next one =>
          obtain ⟨held, rfl, done⟩ := write_tagged_of_read (ih free) tag ended
          exact one ▸ done
        · cases ended
  | result failure success failureIh successIh =>
      intro input value rest read
      obtain ⟨⟨tag, after⟩, tagged, ended⟩ := bind_eq_ok.mp read
      obtain rfl := eq_append_of_takeByte tagged
      simp only at ended
      split at ended
      next zero =>
        obtain ⟨reason, rfl, done⟩ := write_tagged_of_read (failureIh free.1) tag ended
        exact zero ▸ done
      · split at ended
        next one =>
          obtain ⟨held, rfl, done⟩ := write_tagged_of_read (successIh free.2) tag ended
          exact one ▸ done
        · cases ended
  | list item ih =>
      intro input value rest read
      simp only [Format.read] at read
      split at read
      · cases read
      next nonempty =>
        obtain ⟨⟨count, after⟩, counted, items⟩ := bind_eq_ok.mp read
        simp only [write, nonempty]
        exact writeItems_of_readItems (ih free) counted items
  | map => exact free.elim
  | via source build parts build_parts parts_build ih =>
      intro input value rest read
      obtain ⟨⟨held, after⟩, found, ended⟩ := bind_eq_ok.mp read
      cases ended
      obtain ⟨written, done, rfl⟩ := ih free found
      exact ⟨written, by rw [write, parts_build]; exact done, rfl⟩

/-! ## Arrays -/

/-- So many items, one after another and without a count. -/
def array (item : Format α) : (count : Nat) → Format { items : List α // items.length = count }
  | 0 => .via .unit (fun _ => ⟨[], rfl⟩) (fun _ => ())
      (fun items => Subtype.ext (List.eq_nil_of_length_eq_zero items.2).symm) fun _ => rfl
  | count + 1 => .via (.pair item (array item count))
      (fun entry => ⟨entry.1 :: entry.2.1, congrArg Nat.succ entry.2.2⟩)
      (fun | ⟨head :: tail, size⟩ => (head, ⟨tail, Nat.succ.inj size⟩))
      (fun | ⟨_ :: _, _⟩ => rfl) fun _ => rfl

theorem mapFree_array {item : Format α} (free : item.MapFree) (count : Nat) :
    (item.array count).MapFree := by
  induction count with
  | zero => trivial
  | succ count ih => exact ⟨free, ih⟩

/-- The bytes of an array are those of its items. -/
theorem encode_array_eq_ok_iff {item : Format α} {count : Nat}
    {items : { items : List α // items.length = count }} {bytes : Bytes} :
    (item.array count).encode items = .ok bytes ↔
      ∃ parts, List.Forall₂ (fun value part => item.encode value = .ok part) items.1 parts ∧
        bytes = parts.flatten := by
  simp only [encode_eq_ok_iff, ← mapM_eq_ok_iff]
  induction count generalizing bytes with
  | zero =>
      obtain ⟨items, size⟩ := items
      obtain rfl := List.eq_nil_of_length_eq_zero size
      refine ⟨?_, ?_⟩
      · intro written
        cases written
        exact ⟨[], rfl, rfl⟩
      · intro laidOut
        obtain ⟨parts, each, rfl⟩ := laidOut
        cases each
        rfl
  | succ count ih =>
      obtain ⟨_ | ⟨head, tail⟩, size⟩ := items
      · cases size
      · rw [List.mapM_cons]
        refine ⟨?_, ?_⟩
        · intro written
          obtain ⟨part, first, ended⟩ := bind_eq_ok.mp written
          obtain ⟨later, others, ended⟩ := bind_eq_ok.mp ended
          cases ended
          obtain ⟨parts, each, rfl⟩ := ih.mp others
          exact ⟨part :: parts, bind_eq_ok.mpr ⟨part, first, bind_eq_ok.mpr ⟨parts, each, rfl⟩⟩, rfl⟩
        · intro laidOut
          obtain ⟨parts, each, rfl⟩ := laidOut
          obtain ⟨part, first, ended⟩ := bind_eq_ok.mp each
          obtain ⟨parts, others, ended⟩ := bind_eq_ok.mp ended
          cases ended
          exact bind_eq_ok.mpr ⟨part, first, bind_eq_ok.mpr ⟨_, ih.mpr ⟨parts, others, rfl⟩, rfl⟩⟩

/-! ## Strict decoding -/

theorem encode_of_decode {format : Format α} (free : format.MapFree) {bytes : Bytes} {value : α}
    (decoded : format.decode bytes = .ok value) : format.encode value = .ok bytes := by
  obtain ⟨written, done, same⟩ := write_of_read format free (decode_eq_ok_iff.mp decoded)
  rw [List.append_nil] at same
  exact encode_eq_ok_iff.mpr (same ▸ done)

/-- A tag is 0 or 1; a reader of alternatives refuses any other. -/
theorem refuses_tag {read : Bytes → Except ReadFault (α × Bytes)}
    {fault : UInt8 → ReadFault} {zero one : Bytes → Except ReadFault (α × Bytes)}
    (choice : ∀ tag rest, read (tag :: rest) =
      if tag = 0 then zero rest else if tag = 1 then one rest else .error (fault tag))
    {tag : UInt8} (other : 1 < tag) (rest : Bytes) : read (tag :: rest) = .error (fault tag) := by
  have notZero : tag ≠ 0 := fun same => absurd (same ▸ other) (by decide)
  have notOne : tag ≠ 1 := fun same => absurd (same ▸ other) (by decide)
  rw [choice, if_neg notZero, if_neg notOne]

theorem decode_bool_of_tag {tag : UInt8} (other : 1 < tag) (rest : Bytes) :
    bool.decode (tag :: rest) = .error (.malformed (ReadFault.boolTag tag).toIoError) :=
  decode_of_read_eq_error (refuses_tag (fun _ _ => rfl) other rest)

theorem decode_option_of_tag (item : Format α) {tag : UInt8} (other : 1 < tag) (rest : Bytes) :
    item.option.decode (tag :: rest) = .error (.malformed (ReadFault.optionTag tag).toIoError) :=
  decode_of_read_eq_error (refuses_tag (fun _ _ => rfl) other rest)

theorem decode_result_of_tag (failure : Format α) (success : Format β) {tag : UInt8}
    (other : 1 < tag) (rest : Bytes) :
    (failure.result success).decode (tag :: rest) =
      .error (.malformed (ReadFault.resultTag tag).toIoError) :=
  decode_of_read_eq_error (refuses_tag (fun _ _ => rfl) other rest)

theorem decode_nonzero_of_zero (width : Nat) (rest : Bytes) :
    (nonzero width).decode (Word.toBytes width 0 ++ rest) =
      .error (.malformed ReadFault.zero.toIoError) := by
  have read : takeWord width (Word.toBytes width 0 ++ rest) = .ok (0, rest) :=
    takeWord_append width 0 rest
  apply decode_of_read_eq_error
  simp only [Format.read, read]
  rfl

theorem decode_float_of_isNaN {shape : FloatShape} {bits : BitVec (8 * shape.width)}
    (noNumber : shape.isNaN bits = true) (rest : Bytes) :
    (float shape).decode (Word.toBytes shape.width bits.toNat ++ rest) =
      .error (.malformed ReadFault.notANumber.toIoError) := by
  apply decode_of_read_eq_error
  simp only [Format.read, takeWord_append, bind, Except.bind, noNumber, ↓reduceIte]
  rfl

/-- Bytes are a text only if they are those of a sequence of characters. -/
theorem decode_text_of_illFormed {content : Bytes} (fits : content.length < UInt32.size)
    (illFormed : ∀ chars : List Char, chars.flatMap String.utf8EncodeChar ≠ content)
    (rest : Bytes) :
    ∃ fault, text.decode (Word.toBytes 4 content.length ++ content ++ rest) =
      .error (.malformed (ReadFault.text fault).toIoError) := by
  have read : takeCounted (Word.toBytes 4 content.length ++ content ++ rest) =
      .ok (content, rest) :=
    takeCounted_of_writeCounted (writeCounted_eq_ok_iff.mpr ⟨fits, rfl⟩) rest
  cases decoded : Utf8.decode content with
  | ok value =>
      have same : value.toList.flatMap String.utf8EncodeChar = content := by
        rw [← Utf8.encode_ofList, String.ofList_toList]
        exact Utf8.decode_eq_ok_iff.mp decoded
      exact absurd same (illFormed value.toList)
  | error fault =>
      refine ⟨fault, decode_of_read_eq_error ?_⟩
      simp only [Format.read, read, bind, Except.bind, decoded]
      rfl

theorem decode_list_of_isEmpty {item : Format α} (empty : item.isEmpty = true) (bytes : Bytes) :
    item.list.decode bytes = .error (.malformed ReadFault.emptyItems.toIoError) :=
  decode_of_read_eq_error (if_pos empty)

/-- **Formats without maps are exact.** For every format without maps, decoding and encoding are
inverse to each other. So every value that has bytes is read back from them, no two byte strings
are the same value, and exactly what encoding produces is accepted. The formats of heights,
addresses, relocations and digests are of this kind, and so are arrays of items of this kind, whose
bytes are those of the items. Refused are, in particular, tags other than 0 and 1, zero where it is
excluded, floats that are no numbers, counted bytes that are not those of a sequence of characters,
and all lists whose items take no bytes. -/
theorem decode_eq_ok_iff_encode_eq_ok (format : Format α) (free : format.MapFree) :
    (∀ bytes value, format.decode bytes = .ok value ↔ format.encode value = .ok bytes) ∧
    (∀ bytes other value, format.decode bytes = .ok value → format.decode other = .ok value →
      bytes = other) ∧
    (∀ bytes, (∃ value, format.decode bytes = .ok value) ↔
      ∃ value, format.encode value = .ok bytes) ∧
    (Height.format.MapFree ∧ Address.format.MapFree ∧ Relocation.format.MapFree ∧
      Digest.format.MapFree) ∧
    (∀ {β : Type} (item : Format β) (count : Nat), item.MapFree →
      (item.array count).MapFree ∧ ∀ items bytes, (item.array count).encode items = .ok bytes ↔
        ∃ parts, List.Forall₂ (fun value part => item.encode value = .ok part) items.1 parts ∧
          bytes = parts.flatten) ∧
    (∀ tag rest, 1 < tag →
      bool.decode (tag :: rest) = .error (.malformed (ReadFault.boolTag tag).toIoError) ∧
      (∀ {β : Type} (item : Format β), item.option.decode (tag :: rest) =
        .error (.malformed (ReadFault.optionTag tag).toIoError)) ∧
      ∀ {β γ : Type} (failure : Format β) (success : Format γ),
        (failure.result success).decode (tag :: rest) =
          .error (.malformed (ReadFault.resultTag tag).toIoError)) ∧
    (∀ width rest, (nonzero width).decode (Word.toBytes width 0 ++ rest) =
      .error (.malformed ReadFault.zero.toIoError)) ∧
    (∀ shape bits rest, FloatShape.isNaN shape bits = true →
      (float shape).decode (Word.toBytes shape.width bits.toNat ++ rest) =
        .error (.malformed ReadFault.notANumber.toIoError)) ∧
    (∀ (content rest : Bytes), content.length < UInt32.size →
      (∀ chars : List Char, chars.flatMap String.utf8EncodeChar ≠ content) →
        ∃ fault, text.decode (Word.toBytes 4 content.length ++ content ++ rest) =
          .error (.malformed (ReadFault.text fault).toIoError)) ∧
    ∀ bytes, unit.list.decode bytes = .error (.malformed ReadFault.emptyItems.toIoError) := by
  have inverse (bytes : Bytes) (value : α) :
      format.decode bytes = .ok value ↔ format.encode value = .ok bytes :=
    ⟨encode_of_decode free, decode_of_encode⟩
  refine ⟨inverse, ?_, ?_, ⟨trivial, ⟨trivial, trivial⟩, ?_, trivial⟩, ?_, ?_, ?_, ?_, ?_, ?_⟩
  · intro bytes other value decoded decoded'
    have encoded := (inverse bytes value).mp decoded
    rw [(inverse other value).mp decoded'] at encoded
    cases encoded
    rfl
  · intro bytes
    exact exists_congr (inverse bytes)
  · exact ⟨⟨trivial, trivial⟩, ⟨trivial, trivial⟩, trivial⟩
  · exact fun item count free => ⟨mapFree_array free count, fun _ _ => encode_array_eq_ok_iff⟩
  · intro tag rest other
    exact ⟨decode_bool_of_tag other rest, fun item => decode_option_of_tag item other rest,
      fun failure success => decode_result_of_tag failure success other rest⟩
  · exact decode_nonzero_of_zero
  · exact fun shape bits rest noNumber => decode_float_of_isNaN noNumber rest
  · exact fun content rest fits illFormed => decode_text_of_illFormed fits illFormed rest
  · exact decode_list_of_isEmpty rfl

/-- Some texts or, possibly, an address with a float. -/
def nested : Format (Except (List String) (Option (Address × BitVec 32))) :=
  .result (.list .text) (.option (.pair Address.format (.float .single)))

theorem decode_eq_ok_of_nested :
    nested.MapFree ∧
      nested.decode [1, 1, 1, 0, 0, 0, 9, 2, 0, 0, 0, 7, 8, 0, 0, 0x80, 0x3F] =
        .ok (.ok (some (⟨[9], [7, 8]⟩, 0x3F800000#32))) := by
  have free : nested.MapFree := ⟨trivial, ⟨trivial, trivial⟩, trivial⟩
  exact ⟨free, ((decode_eq_ok_iff_encode_eq_ok nested free).1 _ _).mpr rfl⟩

end Format

end ChainVariables
