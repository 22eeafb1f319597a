import Mathlib.Algebra.Ring.Nat
import ChainVariables.Proofs.Codec.Writable

/-! # Reading back what was written

Every format reads the bytes it wrote back as the value they were written for,
and leaves whatever comes after them untouched
(`ChainVariables.Format.read_of_write`). Decoding therefore inverts encoding
(`ChainVariables.Format.decode_of_encode`), also for maps: collecting the
entries of a map in their order gives the map again.
-/

namespace ChainVariables

namespace Word

theorem ofBytes_toBytes {count value : Nat} (small : value < 256 ^ count) :
    ofBytes (toBytes count value) = value := by
  induction count generalizing value with
  | zero =>
      have zero : value = 0 := by simpa using small
      rw [zero]
      rfl
  | succ count ih =>
      have high : value / 256 < 256 ^ count := by
        apply Nat.div_lt_of_lt_mul
        rw [Nat.mul_comm, ← Nat.pow_succ]
        exact small
      have low : (UInt8.ofNat (value % 256)).toNat = value % 256 := by
        rw [UInt8.toNat_ofNat']
        omega
      simp only [toBytes, ofBytes, ih high, low]
      omega

end Word

namespace SortedMap

variable {κ β : Type} [ByteKey κ]

/-- The entries of a map, collected, are the map. -/
theorem ofList_toList (map : SortedMap κ β) : ofList map.toList = map := by
  apply ext_get?
  intro key
  apply Option.ext
  intro value
  rw [get?_ofList_eq_some_iff map.keys_nodup, get?_eq_some_iff]

end SortedMap

namespace Format

variable {α β κ : Type}

/-! ## Bytes, words and counts -/

theorem take_append (bytes rest : Bytes) :
    take bytes.length (bytes ++ rest) = .ok (bytes, rest) := by
  simp [take]

theorem takeWord_append (width : Nat) (value : BitVec (8 * width)) (rest : Bytes) :
    takeWord width (Word.toBytes width value.toNat ++ rest) = .ok (value, rest) := by
  have small : value.toNat < 256 ^ width := by
    have bounded := value.isLt
    rwa [Nat.pow_mul] at bounded
  have taken := take_append (Word.toBytes width value.toNat) rest
  rw [Word.length_toBytes] at taken
  refine bind_eq_ok.mpr ⟨_, taken, ?_⟩
  simp only [Word.ofBytes_toBytes small, BitVec.ofNat_toNat, BitVec.setWidth_eq]
  rfl

/-- A count is read back from its four bytes. -/
theorem takeWord_count_append {count : Nat} (fits : count < UInt32.size) (rest : Bytes) :
    ∃ word : BitVec (8 * 4), word.toNat = count ∧
      takeWord 4 (Word.toBytes 4 count ++ rest) = .ok (word, rest) :=
  ⟨BitVec.ofNatLT count fits, BitVec.toNat_ofNatLT ..,
    takeWord_append 4 (BitVec.ofNatLT count fits) rest⟩

theorem takeCounted_of_writeCounted {bytes written : Bytes}
    (done : writeCounted bytes = .ok written) (rest : Bytes) :
    takeCounted (written ++ rest) = .ok (bytes, rest) := by
  obtain ⟨fits, rfl⟩ := writeCounted_eq_ok_iff.mp done
  obtain ⟨word, size, read⟩ := takeWord_count_append fits (bytes ++ rest)
  rw [List.append_assoc]
  refine bind_eq_ok.mpr ⟨_, read, ?_⟩
  simp only [size]
  exact take_append bytes rest

/-! ## Items -/

/-- Items that are read back one by one are read back one after another. -/
theorem readItems_of_mapM {write : α → Except WriteFault Bytes}
    {read : Bytes → Except ReadFault (α × Bytes)} {items : List α} {parts : List Bytes}
    (inverse : ∀ value ∈ items, ∀ written, write value = .ok written →
      ∀ rest, read (written ++ rest) = .ok (value, rest))
    (done : items.mapM write = .ok parts) (before : List α) (rest : Bytes) :
    readItems read items.length before (parts.flatten ++ rest) =
      .ok (before.reverse ++ items, rest) := by
  induction items generalizing parts before with
  | nil =>
      cases done
      simp [readItems]
  | cons value items ih =>
      rw [List.mapM_cons] at done
      obtain ⟨part, first, done⟩ := bind_eq_ok.mp done
      obtain ⟨parts, later, done⟩ := bind_eq_ok.mp done
      cases done
      have front : read (part ++ (parts.flatten ++ rest)) = .ok (value, parts.flatten ++ rest) :=
        inverse value List.mem_cons_self part first _
      have back := ih (fun other member => inverse other (List.mem_cons_of_mem _ member)) later
        (value :: before)
      simp only [List.length_cons, List.flatten_cons, List.append_assoc, readItems, front, back,
        List.reverse_cons, List.singleton_append]

/-- A counted list of items is read back from its count and its items. -/
theorem readItems_of_writeItems {write : α → Except WriteFault Bytes}
    {read : Bytes → Except ReadFault (α × Bytes)} {items : List α} {written : Bytes}
    (inverse : ∀ value ∈ items, ∀ written, write value = .ok written →
      ∀ rest, read (written ++ rest) = .ok (value, rest))
    (done : writeItems write items = .ok written) (rest : Bytes) :
    ∃ (word : BitVec (8 * 4)) (after : Bytes), takeWord 4 (written ++ rest) = .ok (word, after) ∧
      readItems read word.toNat [] after = .ok (items, rest) := by
  obtain ⟨fits, parts, each, rfl⟩ := writeItems_eq_ok_iff.mp done
  obtain ⟨word, size, found⟩ := takeWord_count_append fits (parts.flatten ++ rest)
  refine ⟨word, parts.flatten ++ rest, ?_, ?_⟩
  · rw [List.append_assoc, found]
  · rw [size, readItems_of_mapM inverse each]
    rfl

/-! ## All formats -/

/-- Two values in order are read back in order. -/
theorem read_pair_of_write {first : Format α} {second : Format β}
    (firstBack : ∀ {value written}, first.write value = .ok written →
      ∀ rest, first.read (written ++ rest) = .ok (value, rest))
    (secondBack : ∀ {value written}, second.write value = .ok written →
      ∀ rest, second.read (written ++ rest) = .ok (value, rest))
    {value : α × β} {written : Bytes} (done : (pair first second).write value = .ok written)
    (rest : Bytes) : (pair first second).read (written ++ rest) = .ok (value, rest) := by
  obtain ⟨left, begun, done⟩ := bind_eq_ok.mp done
  obtain ⟨right, ended, done⟩ := bind_eq_ok.mp done
  cases done
  rw [List.append_assoc]
  refine bind_eq_ok.mpr ⟨_, firstBack begun (right ++ rest), ?_⟩
  exact bind_eq_ok.mpr ⟨_, secondBack ended rest, rfl⟩

/-- What follows a tag is read back after the tag. -/
theorem read_tagged_of_write {inner : Format α}
    (back : ∀ {value written}, inner.write value = .ok written →
      ∀ rest, inner.read (written ++ rest) = .ok (value, rest))
    {tag : UInt8} {value : α} {written : Bytes}
    (done : (do return tag :: (← inner.write value)) = Except.ok written) (rest : Bytes)
    (wrap : α → β) :
    ∃ tail, takeByte (written ++ rest) = .ok (tag, tail) ∧
      (do let (value, rest) ← inner.read tail; return (wrap value, rest)) =
        Except.ok (wrap value, rest) := by
  obtain ⟨part, inside, done⟩ := bind_eq_ok.mp done
  cases done
  exact ⟨part ++ rest, rfl, bind_eq_ok.mpr ⟨_, back inside rest, rfl⟩⟩

/-- **What was written is read back**, and the bytes after it are left. -/
theorem read_of_write (format : Format α) {value : α} {written : Bytes}
    (done : format.write value = .ok written) (rest : Bytes) :
    format.read (written ++ rest) = .ok (value, rest) := by
  induction format generalizing written rest with
  | unit =>
      cases done
      rfl
  | bool =>
      cases done
      cases value <;> rfl
  | word width =>
      cases done
      exact takeWord_append width value rest
  | nonzero width =>
      cases done
      refine bind_eq_ok.mpr ⟨_, takeWord_append width value.1 rest, ?_⟩
      simp only [value.2, ne_eq, not_false_eq_true, ↓reduceDIte]
      rfl
  | float shape =>
      simp only [write] at done
      split at done
      · cases done
      next number =>
        cases done
        refine bind_eq_ok.mpr ⟨_, takeWord_append shape.width value rest, ?_⟩
        simp only [number]
        rfl
  | text =>
      refine bind_eq_ok.mpr ⟨_, takeCounted_of_writeCounted done rest, ?_⟩
      simp only [Utf8.decode_encode]
      rfl
  | bytes => exact takeCounted_of_writeCounted done rest
  | block length =>
      obtain ⟨bytes, exact⟩ := value
      cases done
      subst exact
      simp [read]
  | pair first second firstIh secondIh =>
      exact read_pair_of_write firstIh secondIh done rest
  | option item ih =>
      cases value with
      | none =>
          cases done
          rfl
      | some held =>
          obtain ⟨tail, tagged, back⟩ := read_tagged_of_write ih done rest some
          exact bind_eq_ok.mpr ⟨_, tagged, back⟩
  | result failure success failureIh successIh =>
      cases value with
      | error reason =>
          obtain ⟨tail, tagged, back⟩ := read_tagged_of_write failureIh done rest Except.error
          exact bind_eq_ok.mpr ⟨_, tagged, back⟩
      | ok held =>
          obtain ⟨tail, tagged, back⟩ := read_tagged_of_write successIh done rest Except.ok
          exact bind_eq_ok.mpr ⟨_, tagged, back⟩
  | list item ih =>
      simp only [write] at done
      split at done
      · cases done
      next nonempty =>
        obtain ⟨word, after, counted, items⟩ :=
          readItems_of_writeItems (fun _ _ _ => ih) done rest
        simp only [read, nonempty]
        exact bind_eq_ok.mpr ⟨_, counted, items⟩
  | map key value keyIh valueIh =>
      obtain ⟨word, after, counted, entries⟩ := readItems_of_writeItems
        (fun _ _ _ => read_pair_of_write keyIh valueIh) done rest
      refine bind_eq_ok.mpr ⟨_, counted, ?_⟩
      refine bind_eq_ok.mpr ⟨_, entries, ?_⟩
      simp only [SortedMap.ofList_toList]
      rfl
  | via source build parts build_parts parts_build ih =>
      refine bind_eq_ok.mpr ⟨_, ih done rest, ?_⟩
      simp only [build_parts]
      rfl

/-- Decoding inverts encoding. -/
theorem decode_of_encode {format : Format α} {value : α} {bytes : Bytes}
    (encoded : format.encode value = .ok bytes) : format.decode bytes = .ok value := by
  have back := format.read_of_write (encode_eq_ok_iff.mp encoded) []
  rw [List.append_nil] at back
  exact decode_eq_ok_iff.mpr back

/-- Bytes tell the value they were encoded from. -/
theorem eq_of_encode {format : Format α} {value other : α} {bytes : Bytes}
    (encoded : format.encode value = .ok bytes) (encoded' : format.encode other = .ok bytes) :
    value = other := by
  have same := (decode_of_encode encoded).symm.trans (decode_of_encode encoded')
  cases same
  rfl

end Format

end ChainVariables
