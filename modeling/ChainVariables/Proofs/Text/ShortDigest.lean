import Mathlib.Data.List.Infix
import ChainVariables.Proofs.Text.Base64

/-! # What a shortened digest tells

Every character of a Base64 text is one byte long
(`ChainVariables.Base64.utf8ByteSize_encode`), so the text can be cut after any
number of its bytes and no character is broken. The short text of some bytes is
what is left of the whole one after such a cut. It tells the first 42 bits of
bytes that have so many, and of fewer than six bytes it tells all
(`ChainVariables.Base64.short_tells`).
-/

namespace ChainVariables

/-- The text in the first so many bytes of another one. It is missing if there are fewer bytes, or
if the last of them do not make a whole character. -/
def cut? (text : String) (count : Nat) : Option String :=
  if count ≤ text.utf8ByteSize then String.fromUTF8? (text.toByteArray.extract 0 count) else none

/-- A text can be cut where one text ends and another one begins. -/
theorem cut?_append (text rest : String) :
    cut? (text ++ rest) text.utf8ByteSize = some text := by
  have fits : text.utf8ByteSize ≤ (text ++ rest).utf8ByteSize := by
    rw [String.utf8ByteSize_append]
    exact Nat.le_add_right ..
  have bytes : (text ++ rest).toByteArray.extract 0 text.utf8ByteSize = text.toByteArray := by
    rw [String.toByteArray_append]
    exact ByteArray.extract_append_eq_left rfl
  rw [cut?, if_pos fits, bytes, String.fromUTF8?, dif_pos text.isValidUTF8]
  rfl

namespace Base64

/-- The short text of some bytes, cut out of the bytes of the whole one. -/
def cutShort? (bytes : Bytes) : Option String :=
  if 7 < (encode bytes).utf8ByteSize then cut? (encode bytes) 7 else some (encode bytes)

theorem utf8Size_symbol {number : Nat} (small : number < 64) : (symbol number).utf8Size = 1 := by
  have all : ∀ number < 64, (symbol number).utf8Size = 1 := by decide
  exact all number small

theorem utf8Size_glyph {group : List Bool} (six : group.length = 6) :
    (glyph group).utf8Size = 1 := by
  have small := value_lt group
  rw [six] at small
  exact utf8Size_symbol small

/-- A text of characters of one byte has as many bytes as characters. -/
theorem utf8ByteSize_ofList {characters : List Char}
    (single : ∀ character ∈ characters, character.utf8Size = 1) :
    (String.ofList characters).utf8ByteSize = characters.length := by
  induction characters with
  | nil => rfl
  | cons character rest ih =>
      obtain ⟨first, others⟩ := List.forall_mem_cons.mp single
      rw [String.ofList_cons, String.utf8ByteSize_append, String.utf8ByteSize_singleton, first,
        ih others, List.length_cons, Nat.add_comm]

/-- **Every character of a text is one byte long.** -/
theorem utf8Size_of_mem_encode {bytes : Bytes} {character : Char}
    (member : character ∈ (encode bytes).toList) : character.utf8Size = 1 := by
  rw [toList_encode] at member
  obtain ⟨group, listed, rfl⟩ := List.mem_map.mp member
  exact utf8Size_glyph (length_of_mem_groups listed)

theorem utf8ByteSize_encode (bytes : Bytes) :
    (encode bytes).utf8ByteSize = (encode bytes).toList.length := by
  have single : ∀ character ∈ (encode bytes).toList, character.utf8Size = 1 :=
    fun character member => utf8Size_of_mem_encode member
  have counted := utf8ByteSize_ofList single
  rwa [String.ofList_toList] at counted

theorem toList_short_eq_take (bytes : Bytes) :
    (short bytes).toList = (encode bytes).toList.take 7 := by
  rw [short, String.toList_ofList]

theorem utf8ByteSize_short (bytes : Bytes) :
    (short bytes).utf8ByteSize = (short bytes).toList.length := by
  have single : ∀ character ∈ (encode bytes).toList.take 7, character.utf8Size = 1 :=
    fun character member => utf8Size_of_mem_encode (List.mem_of_mem_take member)
  rw [toList_short_eq_take, short, utf8ByteSize_ofList single]

/-- A text of at most seven characters is its own short text. -/
theorem short_eq_encode {bytes : Bytes} (few : (encode bytes).toList.length ≤ 7) :
    short bytes = encode bytes := by
  rw [short, List.take_of_length_le few, String.ofList_toList]

/-- **The cut falls between two characters.** -/
theorem cutShort?_eq (bytes : Bytes) : cutShort? bytes = some (short bytes) := by
  unfold cutShort?
  rw [utf8ByteSize_encode]
  split
  case isTrue long =>
    have whole : encode bytes = short bytes ++ String.ofList ((encode bytes).toList.drop 7) := by
      rw [← String.toList_inj, String.toList_append, toList_short_eq_take, String.toList_ofList,
        List.take_append_drop]
    have seven : (short bytes).utf8ByteSize = 7 := by
      rw [utf8ByteSize_short, toList_short_eq_take, List.length_take]
      omega
    rw [whole, ← seven]
    exact cut?_append ..
  case isFalse few =>
    rw [short_eq_encode (Nat.le_of_not_lt few)]

/-- Fewer than six bytes have a text of at most seven characters, so that it is not shortened. -/
theorem short_injOn {first second : Bytes} (few : first.length ≤ 5) (few' : second.length ≤ 5)
    (same : short first = short second) : first = second := by
  have whole {bytes : Bytes} (few : bytes.length ≤ 5) : short bytes = encode bytes := by
    apply short_eq_encode
    rw [length_toList_encode]
    omega
  rw [whole few, whole few'] at same
  exact encode_injective same

/-- **What a short text tells.** Cutting it out of the whole text never breaks a character, and what
is cut out is the longest beginning of at most seven characters. Of two byte strings of six bytes
or more the short texts are the same exactly if the first 42 bits are, and no two byte strings of
five bytes or fewer have the same short text. -/
theorem short_tells :
    (∀ bytes, cutShort? bytes = some (short bytes)) ∧
    (∀ bytes, (short bytes).toList <+: (encode bytes).toList ∧ (short bytes).toList.length ≤ 7 ∧
      ∀ start : String, start.toList <+: (encode bytes).toList → start.toList.length ≤ 7 →
        start.toList <+: (short bytes).toList) ∧
    (∀ first second : Bytes, 6 ≤ first.length → 6 ≤ second.length →
      (short first = short second ↔ first.bits.take 42 = second.bits.take 42)) ∧
    ∀ first second : Bytes, first.length ≤ 5 → second.length ≤ 5 →
      short first = short second → first = second := by
  refine ⟨cutShort?_eq, ?_, ?_, ?_⟩
  · intro bytes
    rw [toList_short_eq_take]
    refine ⟨List.take_prefix .., List.length_take_le .., ?_⟩
    intro start begins few
    rw [List.prefix_iff_eq_take.mp begins]
    exact List.take_prefix_take_left few
  · exact fun first second long long' => short_eq_iff long long'
  · exact fun first second few few' => short_injOn few few'

/-- The seventh character ends in the sixth byte: its last six bits are not told. -/
example : short [0, 0, 0, 0, 0, 0b10111111] = short [0, 0, 0, 0, 0, 0b10000000] := by decide

end Base64

end ChainVariables
