import ChainVariables.Bytes

/-! # SHA-256

The hash of FIPS 180-4 on whole byte strings: the message is padded to blocks of
64 bytes, and each block is folded into a state of eight 32-bit words.
-/

namespace ChainVariables.Sha256

structure State where
  a : UInt32
  b : UInt32
  c : UInt32
  d : UInt32
  e : UInt32
  f : UInt32
  g : UInt32
  h : UInt32
  deriving DecidableEq

/-- The state before the first block: fractional bits of the square roots of the first primes. -/
def State.initial : State :=
  ⟨0x6a09e667, 0xbb67ae85, 0x3c6ef372, 0xa54ff53a, 0x510e527f, 0x9b05688c, 0x1f83d9ab, 0x5be0cd19⟩

/-- One constant per round: fractional bits of the cube roots of the first 64 primes. -/
def roundConstants : List UInt32 :=
  [0x428a2f98, 0x71374491, 0xb5c0fbcf, 0xe9b5dba5, 0x3956c25b, 0x59f111f1, 0x923f82a4, 0xab1c5ed5,
   0xd807aa98, 0x12835b01, 0x243185be, 0x550c7dc3, 0x72be5d74, 0x80deb1fe, 0x9bdc06a7, 0xc19bf174,
   0xe49b69c1, 0xefbe4786, 0x0fc19dc6, 0x240ca1cc, 0x2de92c6f, 0x4a7484aa, 0x5cb0a9dc, 0x76f988da,
   0x983e5152, 0xa831c66d, 0xb00327c8, 0xbf597fc7, 0xc6e00bf3, 0xd5a79147, 0x06ca6351, 0x14292967,
   0x27b70a85, 0x2e1b2138, 0x4d2c6dfc, 0x53380d13, 0x650a7354, 0x766a0abb, 0x81c2c92e, 0x92722c85,
   0xa2bfe8a1, 0xa81a664b, 0xc24b8b70, 0xc76c51a3, 0xd192e819, 0xd6990624, 0xf40e3585, 0x106aa070,
   0x19a4c116, 0x1e376c08, 0x2748774c, 0x34b0bcb5, 0x391c0cb3, 0x4ed8aa4a, 0x5b9cca4f, 0x682e6ff3,
   0x748f82ee, 0x78a5636f, 0x84c87814, 0x8cc70208, 0x90befffa, 0xa4506ceb, 0xbef9a3f7, 0xc67178f2]

/-- Rotation to the right; the count lies strictly between 0 and 32. -/
def rotate (word count : UInt32) : UInt32 := word >>> count ||| word <<< (32 - count)

/-- The padded message: one set bit, zeros up to eight bytes before a block ends, and the length
of the message in bits. -/
def pad (message : Bytes) : Bytes :=
  let zeros : Bytes := List.replicate ((119 - message.length % 64) % 64) 0
  let bits : Bytes := (List.range 8).map fun place =>
    UInt8.ofNat ((8 * message.length) >>> (56 - 8 * place))
  message ++ 0x80 :: (zeros ++ bits)

def words : Bytes → List UInt32
  | a :: b :: c :: d :: rest =>
      (a.toUInt32 <<< 24 ||| b.toUInt32 <<< 16 ||| c.toUInt32 <<< 8 ||| d.toUInt32) :: words rest
  | _ => []

/-- The 64 words used by the rounds of a block, each new one made from four before it. -/
def schedule (block : List UInt32) : Array UInt32 :=
  (List.range 48).foldl
    (fun known place =>
      let word (offset : Nat) := known.getD (place + offset) 0
      let low := rotate (word 1) 7 ^^^ rotate (word 1) 18 ^^^ word 1 >>> 3
      let high := rotate (word 14) 17 ^^^ rotate (word 14) 19 ^^^ word 14 >>> 10
      known.push (word 0 + low + word 9 + high))
    block.toArray

def round (s : State) (input : UInt32 × UInt32) : State :=
  let choice := s.e &&& s.f ^^^ (~~~ s.e) &&& s.g
  let majority := s.a &&& s.b ^^^ s.a &&& s.c ^^^ s.b &&& s.c
  let mixed := s.h + (rotate s.e 6 ^^^ rotate s.e 11 ^^^ rotate s.e 25) + choice + input.1 + input.2
  let spread := (rotate s.a 2 ^^^ rotate s.a 13 ^^^ rotate s.a 22) + majority
  ⟨mixed + spread, s.a, s.b, s.c, s.d + mixed, s.e, s.f, s.g⟩

def compress (s : State) (block : Bytes) : State :=
  let t := (roundConstants.zip (schedule (words block)).toList).foldl round s
  ⟨s.a + t.a, s.b + t.b, s.c + t.c, s.d + t.d, s.e + t.e, s.f + t.f, s.g + t.g, s.h + t.h⟩

/-- Folds all blocks of a padded message into the state. -/
def absorb (s : State) : Bytes → State
  | [] => s
  | byte :: rest => absorb (compress s ((byte :: rest).take 64)) ((byte :: rest).drop 64)
  termination_by bytes => bytes.length
  decreasing_by simp only [List.length_drop, List.length_cons]; omega

def wordBytes (word : UInt32) : Bytes :=
  [(word >>> 24).toUInt8, (word >>> 16).toUInt8, (word >>> 8).toUInt8, word.toUInt8]

def State.bytes (s : State) : Bytes :=
  [s.a, s.b, s.c, s.d, s.e, s.f, s.g, s.h].flatMap wordBytes

/-- The hash of a message: 32 bytes. -/
def hash (message : Bytes) : Bytes := (absorb .initial (pad message)).bytes

@[simp] theorem length_hash (message : Bytes) : (hash message).length = 32 := rfl

end ChainVariables.Sha256
