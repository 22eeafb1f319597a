import Mathlib.Data.List.Nodup
import Mathlib.Data.Nat.Digits.Defs
import ChainVariables.Text.Base64

/-! # The bits behind a Base64 text

A Base64 text shows the bits of its bytes, six to a character
(`ChainVariables.Base64.toList_encode`). So the text tells the bytes
(`ChainVariables.Base64.encode_injective`), and its first seven characters tell
the first 42 bits of bytes that have so many
(`ChainVariables.Base64.short_eq_iff`).
-/

namespace ChainVariables

namespace Bytes

/-- The bits of a byte, the most significant one first. -/
def bitsOf (byte : UInt8) : List Bool :=
  (List.range 8).map fun place => byte.toNat.testBit (7 - place)

/-- The bits of bytes, one byte after the other. -/
def bits (bytes : Bytes) : List Bool := bytes.flatMap bitsOf

@[simp] theorem length_bitsOf (byte : UInt8) : (bitsOf byte).length = 8 := rfl

theorem bits_cons (byte : UInt8) (rest : Bytes) : bits (byte :: rest) = bitsOf byte ++ bits rest :=
  rfl

@[simp] theorem length_bits (bytes : Bytes) : bytes.bits.length = 8 * bytes.length := by
  induction bytes with
  | nil => rfl
  | cons byte rest ih =>
      rw [bits_cons, List.length_append, ih, length_bitsOf, List.length_cons]
      omega

end Bytes

namespace Base64

open Bytes

/-! ## The numbers that bits write -/

/-- The number that some bits write, the most significant one first. -/
def value (group : List Bool) : Nat := Nat.ofDigits 2 (group.reverse.map Bool.toNat)

theorem value_singleton (bit : Bool) : value [bit] = bit.toNat := by
  simp [value]

theorem value_append (group more : List Bool) :
    value (group ++ more) = value more + 2 ^ more.length * value group := by
  unfold value
  rw [List.reverse_append, List.map_append, Nat.ofDigits_append, List.length_map,
    List.length_reverse]

theorem binary (group : List Bool) : ∀ digit ∈ group.reverse.map Bool.toNat, digit < 2 := by
  intro digit member
  obtain ⟨bit, _, rfl⟩ := List.mem_map.mp member
  exact bit.toNat_lt

theorem value_lt (group : List Bool) : value group < 2 ^ group.length := by
  have small := Nat.ofDigits_lt_base_pow_length (by decide) (binary group)
  rwa [List.length_map, List.length_reverse] at small

/-- A number tells its bits if it is known how many they are. -/
theorem eq_of_value_eq {group other : List Bool} (long : group.length = other.length)
    (same : value group = value other) : group = other := by
  have digits := Nat.ofDigits_inj_of_len_eq (by decide) (by simpa using long) (binary group)
    (binary other) same
  have injective : Function.Injective Bool.toNat := by
    unfold Function.Injective
    decide
  exact List.reverse_injective (List.map_injective_iff.mpr injective digits)

/-- The first bits of a byte write what is left of it without the others. -/
theorem value_take_bitsOf (byte : UInt8) {count : Nat} (fits : count ≤ 8) :
    value ((bitsOf byte).take count) = byte.toNat / 2 ^ (8 - count) := by
  induction count with
  | zero =>
      have small := byte.toNat_lt
      exact (Nat.div_eq_of_lt small).symm
  | succ count ih =>
      have next : (bitsOf byte)[count]? = some (byte.toNat.testBit (7 - count)) := by
        simp [bitsOf, List.getElem?_range fits]
      have place : 8 - count = 7 - count + 1 := by omega
      rw [List.take_add_one, next, Option.toList_some, value_append, ih (by omega),
        value_singleton, Nat.toNat_testBit, place, Nat.pow_succ, ← Nat.div_div_eq_div_mul,
        List.length_singleton, Nat.add_sub_add_right 7 1 count]
      omega

theorem value_bitsOf (byte : UInt8) : value (bitsOf byte) = byte.toNat := by
  have all := value_take_bitsOf byte (Nat.le_refl 8)
  rwa [List.take_of_length_le (by simp), Nat.sub_self, Nat.pow_zero, Nat.div_one] at all

/-- The last bits of a byte write its remainder. -/
theorem value_drop_bitsOf (byte : UInt8) {count : Nat} (fits : count ≤ 8) :
    value ((bitsOf byte).drop count) = byte.toNat % 2 ^ (8 - count) := by
  have split := value_append ((bitsOf byte).take count) ((bitsOf byte).drop count)
  have divided := Nat.div_add_mod byte.toNat (2 ^ (8 - count))
  rw [List.take_append_drop, value_bitsOf, value_take_bitsOf byte fits, List.length_drop,
    length_bitsOf] at split
  omega

/-- Bytes tell their bits, and the bits tell them. -/
theorem bits_injective {first second : Bytes} (same : first.bits = second.bits) :
    first = second := by
  induction first generalizing second with
  | nil =>
      have none := congrArg List.length same
      rw [length_bits, length_bits, List.length_nil] at none
      exact (List.eq_nil_of_length_eq_zero (by omega)).symm
  | cons byte rest ih =>
      cases second with
      | nil => cases same
      | cons byte' rest' =>
          obtain ⟨here, later⟩ := List.append_inj same rfl
          have number := congrArg value here
          rw [value_bitsOf, value_bitsOf] at number
          rw [UInt8.toNat_inj.mp number, ih later]

/-! ## Groups of six -/

/-- Bits in groups of six. The last group is filled with zeros. -/
def groups : List Bool → List (List Bool)
  | a :: b :: c :: d :: e :: f :: rest => [a, b, c, d, e, f] :: groups rest
  | [] => []
  | rest => [rest ++ List.replicate (6 - rest.length) false]

/-- The character of six bits. -/
def glyph (group : List Bool) : Char := symbol (value group)

/-- A list that has no six items has less of them. -/
theorem length_lt_six {rest : List Bool}
    (short : ∀ a b c d e f more, rest = a :: b :: c :: d :: e :: f :: more → False) :
    rest.length < 6 := by
  match rest with
  | [] | [_] | [_, _] | [_, _, _] | [_, _, _, _] | [_, _, _, _, _] => simp
  | a :: b :: c :: d :: e :: f :: more => exact (short a b c d e f more rfl).elim

theorem length_of_mem_groups {bits group : List Bool} (member : group ∈ groups bits) :
    group.length = 6 := by
  fun_induction groups bits with
  | case1 a b c d e f rest ih =>
      rcases List.mem_cons.mp member with rfl | later
      · rfl
      · exact ih later
  | case2 => cases member
  | case3 rest short nonempty =>
      have few := length_lt_six short
      rw [List.mem_singleton.mp member, List.length_append, List.length_replicate]
      omega

/-- Groups are made of the bits, and zeros after them. -/
theorem flatten_groups (bits : List Bool) : ∃ zeros, (groups bits).flatten = bits ++ zeros := by
  fun_induction groups bits with
  | case1 a b c d e f rest ih =>
      obtain ⟨zeros, same⟩ := ih
      exact ⟨zeros, by simp [same]⟩
  | case2 => exact ⟨[], rfl⟩
  | case3 rest short nonempty => exact ⟨_, List.flatten_singleton⟩

theorem length_groups (bits : List Bool) : (groups bits).length = (bits.length + 5) / 6 := by
  fun_induction groups bits with
  | case1 a b c d e f rest ih =>
      simp only [List.length_cons, ih]
      omega
  | case2 => rfl
  | case3 rest short nonempty =>
      have few := length_lt_six short
      have some := List.length_pos_iff.mpr nonempty
      rw [List.length_singleton]
      omega

/-- The first groups hold the first bits. -/
theorem take_groups (bits : List Bool) (count : Nat) :
    (groups bits).take count = groups (bits.take (6 * count)) := by
  fun_induction groups bits generalizing count with
  | case1 a b c d e f rest ih =>
      cases count with
      | zero => rfl
      | succ count => simp only [List.take_succ_cons, Nat.mul_succ, ih, groups]
  | case2 => rw [List.take_nil, List.take_nil, groups]
  | case3 rest short nonempty =>
      cases count with
      | zero => rfl
      | succ count =>
          have few := length_lt_six short
          have whole : rest.take (6 * (count + 1)) = rest := List.take_of_length_le (by omega)
          rw [whole, List.take_of_length_le (by simp), groups]
          · exact short
          · exact nonempty

/-- Different numbers below 64 have different characters. -/
theorem symbol_injOn {number other : Nat} (small : number < 64) (small' : other < 64)
    (same : symbol number = symbol other) : number = other := by
  have places : ∀ number < 64, ((List.range 64).map symbol).idxOf (symbol number) = number := by
    decide
  rw [← places number small, same, places other small']

theorem eq_of_glyph_eq {group other : List Bool} (six : group.length = 6) (six' : other.length = 6)
    (same : glyph group = glyph other) : group = other := by
  have small := value_lt group
  have small' := value_lt other
  rw [six] at small
  rw [six'] at small'
  exact eq_of_value_eq (six.trans six'.symm) (symbol_injOn small small' same)

/-- Different bits have different texts if they are equally many. -/
theorem eq_of_glyphs_eq {bits other : List Bool} (long : bits.length = other.length)
    (same : (groups bits).map glyph = (groups other).map glyph) : bits = other := by
  have alike : groups bits = groups other := by
    refine List.ext_getElem (by rw [length_groups, length_groups, long]) fun place here there => ?_
    have shown := congrArg (·[place]?) same
    simp only [List.getElem?_map, List.getElem?_eq_getElem here, List.getElem?_eq_getElem there,
      Option.map_some, Option.some.injEq] at shown
    exact eq_of_glyph_eq (length_of_mem_groups (List.getElem_mem here))
      (length_of_mem_groups (List.getElem_mem there)) shown
  obtain ⟨zeros, whole⟩ := flatten_groups bits
  obtain ⟨zeros', whole'⟩ := flatten_groups other
  rw [alike, whole'] at whole
  exact (List.append_inj whole long.symm).1.symm

/-! ## Texts -/

theorem glyph_take (byte : UInt8) : glyph ((bitsOf byte).take 6) = symbol (byte.toNat / 4) :=
  congrArg symbol (value_take_bitsOf byte (by decide))

theorem glyph_drop (byte : UInt8) : glyph ((bitsOf byte).drop 2) = symbol (byte.toNat % 64) :=
  congrArg symbol (value_drop_bitsOf byte (by decide))

/-- The character of the last bits of a byte and the first ones of the next. -/
theorem glyph_across (byte next : UInt8) (count : Nat) (fits : count ≤ 6) :
    glyph ((bitsOf byte).drop (8 - count) ++ (bitsOf next).take (6 - count)) =
      symbol (byte.toNat % 2 ^ count * 2 ^ (6 - count) + next.toNat / 2 ^ (count + 2)) := by
  have many : ((bitsOf next).take (6 - count)).length = 6 - count := by
    rw [List.length_take, length_bitsOf]
    omega
  have kept : 8 - (8 - count) = count := by omega
  have left : 8 - (6 - count) = count + 2 := by omega
  rw [glyph, value_append, many, value_drop_bitsOf byte (by omega),
    value_take_bitsOf next (by omega), kept, left, Nat.add_comm, Nat.mul_comm]

/-- A text is continued with the characters of the bits. -/
theorem toList_append (text : String) (bytes : Bytes) :
    (append text bytes).toList = text.toList ++ (groups bytes.bits).map glyph := by
  have second (a b : UInt8) : glyph ((bitsOf a).drop 6 ++ (bitsOf b).take 4) =
      symbol (a.toNat % 4 * 16 + b.toNat / 16) := by
    simpa only [Nat.reducePow, Nat.reduceSub, Nat.reduceAdd] using glyph_across a b 2 (by decide)
  have third (b c : UInt8) : glyph ((bitsOf b).drop 4 ++ (bitsOf c).take 2) =
      symbol (b.toNat % 16 * 4 + c.toNat / 64) := by
    simpa only [Nat.reducePow, Nat.reduceSub, Nat.reduceAdd] using glyph_across b c 4 (by decide)
  fun_induction append text bytes with
  | case1 text => exact (List.append_nil _).symm
  | case2 text a =>
      -- the missing bits are those of a byte that is zero
      have last := second a 0
      simp only [UInt8.toNat_zero, Nat.zero_div, Nat.add_zero] at last
      simp only [String.toList_push, List.append_assoc, ← glyph_take, ← last]
      rfl
  | case3 text a b =>
      have last := third b 0
      simp only [UInt8.toNat_zero, Nat.zero_div, Nat.add_zero] at last
      simp only [String.toList_push, List.append_assoc, ← glyph_take, ← second, ← last]
      rfl
  | case4 text a b c rest ih =>
      rw [ih]
      simp only [String.toList_push, List.append_assoc, ← glyph_take, ← second, ← third,
        ← glyph_drop]
      rfl

/-- **A text shows the bits**, six to a character. -/
theorem toList_encode (bytes : Bytes) :
    (encode bytes).toList = (groups bytes.bits).map glyph := toList_append "" bytes

theorem length_toList_encode (bytes : Bytes) :
    (encode bytes).toList.length = (8 * bytes.length + 5) / 6 := by
  rw [toList_encode, List.length_map, length_groups, length_bits]

/-- Bytes have texts of the same length only if they are equally many. -/
theorem length_eq_of_encode {first second : Bytes}
    (long : (encode first).toList.length = (encode second).toList.length) :
    first.length = second.length := by
  rw [length_toList_encode, length_toList_encode] at long
  omega

/-- **A text tells the bytes.** -/
theorem encode_injective {first second : Bytes} (same : encode first = encode second) :
    first = second := by
  have long := length_eq_of_encode (congrArg (·.toList.length) same)
  have glyphs := congrArg String.toList same
  rw [toList_encode, toList_encode] at glyphs
  refine bits_injective (eq_of_glyphs_eq ?_ glyphs)
  rw [length_bits, length_bits, long]

/-- A short text shows the first 42 bits. -/
theorem toList_short (bytes : Bytes) :
    (short bytes).toList = (groups (bytes.bits.take 42)).map glyph := by
  rw [short, String.toList_ofList, toList_encode, ← List.map_take, take_groups]

/-- Short texts tell the first 42 bits apart, if there are so many. -/
theorem short_eq_iff {first second : Bytes} (long : 6 ≤ first.length)
    (long' : 6 ≤ second.length) :
    short first = short second ↔ first.bits.take 42 = second.bits.take 42 := by
  rw [← String.toList_inj, toList_short, toList_short]
  refine ⟨?_, fun same => by rw [same]⟩
  intro same
  refine eq_of_glyphs_eq ?_ same
  rw [List.length_take, List.length_take, length_bits, length_bits]
  omega

end Base64

end ChainVariables
