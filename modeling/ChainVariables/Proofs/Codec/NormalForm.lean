import ChainVariables.Directory
import ChainVariables.Proofs.Codec.Spelling
import ChainVariables.Snapshot
import ChainVariables.Store.Memory

/-! # The normal form of maps in bytes

A directory, the values of a snapshot and a store are read from any bytes that
list their entries, in whatever order and however often a key is repeated, but
are written in ascending order of their keys. Of all the bytes that are read as
one map, the bytes written for it are the only ones in order, and none are
shorter (`ChainVariables.normalForm_of_maps`).
-/

namespace ChainVariables

variable {ε ε' α ρ : Type}

/-- What is read and what is written where the bytes of a value spell its contents in a format
without maps, and every value has one spelling in order. -/
structure NormalForm (decode : Bytes → Except ε α) (encode : α → Outcome ε' Bytes)
    (plain : Format ρ) (value : ρ → α) (Ordered : ρ → Prop) : Prop where
  /-- Accepted are exactly the bytes of a spelling, each as the value of the spelling. -/
  accepted : ∀ bytes held, decode bytes = .ok held ↔
    ∃ spelled, plain.encode spelled = .ok bytes ∧ value spelled = held
  /-- Bytes have at most one spelling. -/
  unambiguous : ∀ spelled other bytes, plain.encode spelled = .ok bytes →
    plain.encode other = .ok bytes → spelled = other
  /-- Values that can be written are read back. -/
  restored : ∀ held bytes, encode held = .ok bytes → decode bytes = .ok held
  /-- Among the accepted bytes of a value, those in order are the ones that are written. -/
  ordered : ∀ held bytes, encode held = .ok bytes ↔
    ∃ spelled, plain.encode spelled = .ok bytes ∧ value spelled = held ∧ Ordered spelled
  /-- What was accepted can be written. That changes the bytes unless they are in order, and never
  makes them longer. -/
  rewritten : ∀ spelled bytes, plain.encode spelled = .ok bytes →
    ∃ written, encode (value spelled) = .ok written ∧ written.length ≤ bytes.length ∧
      (written = bytes ↔ Ordered spelled)
  /-- The written bytes tell the value. -/
  injective : ∀ held other bytes, encode held = .ok bytes → encode other = .ok bytes →
    held = other

namespace Format

/-- A list is a count of four bytes and the bytes of as many items, one after another. -/
theorem encode_list_eq_ok_iff {item : Format α} (nonempty : item.isEmpty = false) {items : List α}
    {bytes : Bytes} :
    item.list.encode items = .ok bytes ↔ items.length < UInt32.size ∧
      ∃ parts, List.Forall₂ (fun value part => item.encode value = .ok part) items parts ∧
        bytes = Word.toBytes 4 items.length ++ parts.flatten := by
  rw [encode_eq_ok_iff, write_list_eq nonempty, writeItems_eq_ok_iff]
  simp only [encode_eq_ok_iff, ← mapM_eq_ok_iff, @eq_comm _ _ bytes]

theorem Spelling.encode_eq_ok_iff {format : Format α} {plain : Format ρ}
    (spelling : Spelling format plain) {held : α} {bytes : Bytes} :
    format.encode held = .ok bytes ↔ plain.encode (spelling.normal held) = .ok bytes := by
  rw [Format.encode_eq_ok_iff, Format.encode_eq_ok_iff, spelling.write_eq]

/-- A format whose values are spelled out without maps has a normal form. -/
theorem Spelling.normalForm {format : Format α} {plain : Format ρ} (spelling : Spelling format plain)
    (free : plain.MapFree) {decode : Bytes → Except ε α} {encode : α → Outcome ε' Bytes}
    (decodes : ∀ bytes held, decode bytes = .ok held ↔ format.decode bytes = .ok held)
    (encodes : ∀ held bytes, encode held = .ok bytes ↔ format.encode held = .ok bytes) :
    NormalForm decode encode plain spelling.value spelling.Ordered where
  accepted bytes held := by
    rw [decodes, decode_eq_ok_iff, spelling.read_eq]
    refine ⟨?_, ?_⟩
    · intro read
      cases found : plain.read bytes with
      | error fault =>
          rw [found] at read
          cases read
      | ok spelled =>
          rw [found] at read
          obtain ⟨spelled, rest⟩ := spelled
          cases read
          exact ⟨spelled, encode_of_decode free (decode_eq_ok_iff.mpr found), rfl⟩
    · intro spelt
      obtain ⟨spelled, encoded, rfl⟩ := spelt
      rw [decode_eq_ok_iff.mp (decode_of_encode encoded)]
      rfl
  unambiguous _ _ _ encoded encoded' := eq_of_encode encoded encoded'
  restored held bytes := by
    rw [decodes, encodes]
    exact decode_of_encode
  ordered held bytes := by
    rw [encodes, spelling.encode_eq_ok_iff]
    refine ⟨?_, ?_⟩
    · intro encoded
      refine ⟨_, encoded, spelling.value_normal held, ?_⟩
      rw [← spelling.normal_value_iff, spelling.value_normal]
    · intro spelt
      obtain ⟨spelled, encoded, rfl, ordered⟩ := spelt
      rw [(spelling.normal_value_iff spelled).mpr ordered]
      exact encoded
  rewritten spelled bytes encoded := by
    obtain ⟨written, done, shorter⟩ := spelling.shorter (Format.encode_eq_ok_iff.mp encoded)
    have rewritten : format.encode (spelling.value spelled) = .ok written :=
      Format.encode_eq_ok_iff.mpr done
    refine ⟨written, (encodes _ _).mpr rewritten, shorter, ?_⟩
    rw [spelling.encode_eq_ok_iff] at rewritten
    rw [← spelling.normal_value_iff]
    refine ⟨?_, ?_⟩
    · intro same
      exact eq_of_encode (same ▸ rewritten) encoded
    · intro same
      rw [same, encoded] at rewritten
      cases rewritten
      rfl
  injective held other bytes := by
    rw [encodes, encodes]
    exact eq_of_encode

end Format

/-! ## Directories, values and stores -/

/-- A directory is spelled as a list of records. -/
def Directory.spelling :
    Format.Spelling Directory.format (.list (.pair .text Relocation.format)) :=
  (Format.Spelling.ofMap .text Relocation.format rfl).via _ _ _ _

namespace MemoryStore

/-- Collects namespaces in order: a later one replaces an earlier one of the same name with all its
values, and in every namespace a later value replaces an earlier one of the same key. -/
def ofLists (spaces : List (Bytes × List (Bytes × Bytes))) : MemoryStore :=
  ⟨.ofList (spaces.map (Format.onSecond .ofList))⟩

/-- A store is spelled as a list of namespaces, each with a list of its values. -/
def spelling :
    Format.Spelling MemoryStore.format (.list (.pair .bytes (.list (.pair .bytes .bytes)))) :=
  (Format.Spelling.ofNestedMap .bytes rfl (.ofMap .bytes .bytes rfl)).via _ _ _ _

/-- The last list of a namespace counts, and in it the last value of a key. -/
theorem get?_ofLists (spaces : List (Bytes × List (Bytes × Bytes))) (address : Address) :
    (ofLists spaces).get? address =
      (SortedMap.lookup address.space spaces.reverse).bind fun entries =>
        SortedMap.lookup address.key entries.reverse := by
  simp only [get?, ofLists, SortedMap.get?_ofList, ← List.map_reverse]
  unfold Format.onSecond
  rw [SortedMap.lookup_map_values]
  cases SortedMap.lookup address.space spaces.reverse with
  | none => rfl
  | some entries => exact SortedMap.get?_ofList entries address.key

theorem load_eq_ok_iff {bytes : Bytes} {store : MemoryStore} :
    load (.file bytes) = .ok store ↔ format.decode bytes = .ok store := by
  simp only [load]
  cases format.decode bytes <;> simp

theorem dump_eq_ok_iff {store : MemoryStore} {bytes : Bytes} :
    store.dump = .ok bytes ↔ format.encode store = .ok bytes := by
  simp only [dump]
  cases format.encode store <;> simp [Outcome.mapError]

end MemoryStore

/-- **The normal forms of maps.** The bytes of a list are its length in four bytes, least
significant first, and the bytes of its items one after another. A directory is read from exactly
the bytes of a list of records, as what collecting the records in order gives, and its own bytes
are the only ones of them that are in ascending order of the names. The same holds for the values
of a snapshot, which are hashed, and for a store, which is saved as a list of namespaces that each
hold a list of values. When entries are collected, the last of the same key counts; of a namespace
that is listed again nothing is left. -/
theorem normalForm_of_maps :
    (∀ {α : Type} (item : Format α) (items : List α) (bytes : Bytes), item.isEmpty = false →
      (item.list.encode items = .ok bytes ↔ items.length < UInt32.size ∧
        ∃ parts, List.Forall₂ (fun value part => item.encode value = .ok part) items parts ∧
          bytes = Word.toBytes 4 items.length ++ parts.flatten)) ∧
    NormalForm Directory.ofBytes Directory.toBytes (.list (.pair .text Relocation.format))
      Directory.ofList SortedMap.Ascending ∧
    (∀ height?, NormalForm (Format.map .text .bytes).decode
      (fun values => (Snapshot.mk values height?).canonicalBytes) (.list (.pair .text .bytes))
      SortedMap.ofList SortedMap.Ascending) ∧
    NormalForm (fun bytes => MemoryStore.load (.file bytes)) MemoryStore.dump
      (.list (.pair .bytes (.list (.pair .bytes .bytes)))) MemoryStore.ofLists
      (fun spaces => SortedMap.Ascending spaces ∧ ∀ space ∈ spaces, SortedMap.Ascending space.2) ∧
    (∀ records name,
      (Directory.ofList records).get? name = SortedMap.lookup name records.reverse) ∧
    ∀ spaces address, (MemoryStore.ofLists spaces).get? address =
      (SortedMap.lookup address.space spaces.reverse).bind fun entries =>
        SortedMap.lookup address.key entries.reverse := by
  have relocation : Relocation.format.MapFree :=
    ⟨⟨trivial, trivial⟩, ⟨trivial, trivial⟩, trivial⟩
  refine ⟨?_, ?_, ?_, ?_, ?_, MemoryStore.get?_ofLists⟩
  · exact fun item items bytes nonempty => Format.encode_list_eq_ok_iff nonempty
  · exact Directory.spelling.normalForm ⟨trivial, relocation⟩ (fun _ _ => .rfl) fun _ _ => .rfl
  · intro height?
    exact (Format.Spelling.ofMap .text .bytes rfl).normalForm ⟨trivial, trivial⟩
      (fun _ _ => .rfl) fun _ _ => .rfl
  · exact MemoryStore.spelling.normalForm ⟨trivial, trivial, trivial⟩
      (fun _ _ => MemoryStore.load_eq_ok_iff) fun _ _ => MemoryStore.dump_eq_ok_iff
  · exact fun records name => SortedMap.get?_ofList records name

end ChainVariables
