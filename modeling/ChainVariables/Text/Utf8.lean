import ChainVariables.Bytes

/-! # Texts as bytes

A text is written as its UTF-8 bytes and read back from exactly those
(`Utf8.decode_eq_ok_iff`). Bytes that are no text are refused with the place
where the longest valid part ends and, unless the bytes merely stop too early,
the length of the ill-formed sequence found there.
-/

namespace ChainVariables.Utf8

def encode (text : String) : Bytes := text.toByteArray.data.toList

theorem encode_injective {first second : String} (same : encode first = encode second) :
    first = second := by
  refine String.toByteArray_inj.mp (ByteArray.ext ?_)
  exact Array.toList_inj.mp same

instance : ByteKey String where
  bytes := encode
  bytes_injective := encode_injective

/-- Why bytes are not a text. The index is the length of their longest valid part. -/
inductive Fault where
  /-- A sequence that no further bytes could complete, with the length of its ill-formed part. -/
  | invalid (length index : Nat)
  /-- The bytes end inside a sequence that is valid so far. -/
  | incomplete (index : Nat)
  deriving DecidableEq, Repr

def Fault.message : Fault → String
  | .invalid length index =>
      "invalid utf-8 sequence of " ++ length.repr ++ " bytes from index " ++ index.repr
  | .incomplete index => "incomplete utf-8 byte sequence from index " ++ index.repr

/-- The ranges of the bytes that follow a lead byte; nothing for a byte that leads no sequence. -/
def continuation (lead : UInt8) : Option (List (UInt8 × UInt8)) :=
  if lead < 0x80 then some []
  else if lead < 0xC2 then none
  else if lead < 0xE0 then some [(0x80, 0xBF)]
  else if lead = 0xE0 then some [(0xA0, 0xBF), (0x80, 0xBF)]
  else if lead = 0xED then some [(0x80, 0x9F), (0x80, 0xBF)]
  else if lead < 0xF0 then some [(0x80, 0xBF), (0x80, 0xBF)]
  else if lead = 0xF0 then some [(0x90, 0xBF), (0x80, 0xBF), (0x80, 0xBF)]
  else if lead < 0xF4 then some [(0x80, 0xBF), (0x80, 0xBF), (0x80, 0xBF)]
  else if lead = 0xF4 then some [(0x80, 0x8F), (0x80, 0xBF), (0x80, 0xBF)]
  else none

/-- The number of leading bytes that lie in their ranges. -/
def fitting : List (UInt8 × UInt8) → Bytes → Nat
  | (low, high) :: ranges, byte :: rest =>
      if low ≤ byte ∧ byte ≤ high then fitting ranges rest + 1 else 0
  | _, _ => 0

/-- The fault at the end of the longest valid part of the bytes, where `index` bytes came before
them. Bytes without an ill-formed sequence end where a sequence could begin. -/
def fault (index : Nat) : Bytes → Fault
  | [] => .incomplete index
  | lead :: rest =>
      match continuation lead with
      | none => .invalid 1 index
      | some ranges =>
          let count := fitting ranges rest
          if count = ranges.length then fault (index + 1 + count) (rest.drop count)
          else if count = rest.length then .incomplete index
          else .invalid (count + 1) index
  termination_by bytes => bytes.length
  decreasing_by simp only [List.length_drop, List.length_cons]; omega

/-- Reads a text from exactly its bytes. -/
def decode (bytes : Bytes) : Except Fault String :=
  match String.fromUTF8? bytes.toByteArray with
  | some text => .ok text
  | none => .error (fault 0 bytes)

theorem toByteArray_encode (text : String) : (encode text).toByteArray = text.toByteArray := by
  apply ByteArray.ext
  simp [encode]

/-- Reading accepts exactly the bytes that writing produces. -/
theorem decode_eq_ok_iff {bytes : Bytes} {text : String} :
    decode bytes = .ok text ↔ encode text = bytes := by
  unfold decode String.fromUTF8?
  constructor
  · intro read
    split at read
    next found accepted =>
      split at accepted
      · cases accepted
        cases read
        simp [encode, String.fromUTF8]
      · cases accepted
    · cases read
  · rintro rfl
    rw [toByteArray_encode, dif_pos text.isValidUTF8]
    rfl

@[simp] theorem decode_encode (text : String) : decode (encode text) = .ok text :=
  decode_eq_ok_iff.mpr rfl

end ChainVariables.Utf8
