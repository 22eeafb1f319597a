import ChainVariables.Bytes

/-! # Base64 without padding

Every six bits of the bytes, taken from the most significant end, become one
character of the standard alphabet. The last group is filled with zero bits and
no padding follows it.
-/

namespace ChainVariables.Base64

/-- The character of six bits: `A` to `Z`, `a` to `z`, `0` to `9`, `+` and `/`. -/
def symbol (value : Nat) : Char :=
  if value < 26 then Char.ofNat ('A'.toNat + value)
  else if value < 52 then Char.ofNat ('a'.toNat + (value - 26))
  else if value < 62 then Char.ofNat ('0'.toNat + (value - 52))
  else if value = 62 then '+'
  else '/'

/-- Continues a text with the characters of the bytes, three bytes to four characters. -/
def append (text : String) : Bytes → String
  | [] => text
  | [a] => (text.push (symbol (a.toNat / 4))).push (symbol (a.toNat % 4 * 16))
  | [a, b] =>
      ((text.push (symbol (a.toNat / 4))).push (symbol (a.toNat % 4 * 16 + b.toNat / 16))).push
        (symbol (b.toNat % 16 * 4))
  | a :: b :: c :: rest =>
      append
        ((((text.push (symbol (a.toNat / 4))).push (symbol (a.toNat % 4 * 16 + b.toNat / 16))).push
          (symbol (b.toNat % 16 * 4 + c.toNat / 64))).push (symbol (c.toNat % 64)))
        rest

def encode (bytes : Bytes) : String := append "" bytes

/-- The first seven characters of the Base64 text, or all of it if it is shorter: enough to tell
digests apart by eye. -/
def short (bytes : Bytes) : String := String.ofList ((encode bytes).toList.take 7)

end ChainVariables.Base64
