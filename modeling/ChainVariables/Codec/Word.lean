import ChainVariables.Bytes

/-! # Numbers as little-endian bytes -/

namespace ChainVariables.Word

/-- The lowest `count` bytes of a number, least significant first. -/
def toBytes : (count value : Nat) → Bytes
  | 0, _ => []
  | count + 1, value => UInt8.ofNat (value % 256) :: toBytes count (value / 256)

/-- The number with these bytes, least significant first. -/
def ofBytes : Bytes → Nat
  | [] => 0
  | byte :: rest => byte.toNat + 256 * ofBytes rest

@[simp] theorem length_toBytes (count value : Nat) : (toBytes count value).length = count := by
  induction count generalizing value with
  | zero => rfl
  | succ count ih => simp [toBytes, ih]

@[simp] theorem toBytes_ofBytes (bytes : Bytes) : toBytes bytes.length (ofBytes bytes) = bytes := by
  induction bytes with
  | nil => rfl
  | cons byte rest ih =>
      have small := byte.toNat_lt
      have low : (byte.toNat + 256 * ofBytes rest) % 256 = byte.toNat := by omega
      have high : (byte.toNat + 256 * ofBytes rest) / 256 = ofBytes rest := by omega
      simp [toBytes, ofBytes, low, high, ih]

end ChainVariables.Word
