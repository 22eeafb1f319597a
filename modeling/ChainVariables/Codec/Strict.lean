import ChainVariables.Codec.Format
import ChainVariables.Outcome

/-! # Strict decoding

Bytes are decoded only if all of them belong to the value: whatever is left over
is an error, never dropped. Encoding returns the bytes, refuses the value, or
crashes on a float that is no number.
-/

namespace ChainVariables.Format

variable {α : Type}

/-- Decodes a value from exactly its bytes. -/
def decode (format : Format α) (bytes : Bytes) : Except DecodeError α :=
  match format.read bytes with
  | .ok (value, []) => .ok value
  | .ok (_, rest) => .error (.trailing rest.length)
  | .error fault => .error (.malformed fault.toIoError)

/-- Encodes a value. -/
def encode (format : Format α) (value : α) : Outcome IoError Bytes :=
  match format.write value with
  | .ok written => .ok written
  | .error .tooLong => .error (.bare .invalidInput)
  | .error .emptyItems => .error (.described .invalidInput emptyItemsText)
  | .error .notANumber => .crashed notANumberCrash

theorem decode_eq_ok_iff {format : Format α} {bytes : Bytes} {value : α} :
    format.decode bytes = .ok value ↔ format.read bytes = .ok (value, []) := by
  unfold decode
  split <;> simp_all

theorem decode_of_read_eq_error {format : Format α} {bytes : Bytes} {fault : ReadFault}
    (read : format.read bytes = .error fault) :
    format.decode bytes = .error (.malformed fault.toIoError) := by
  simp only [decode, read]

theorem encode_eq_ok_iff {format : Format α} {value : α} {bytes : Bytes} :
    format.encode value = .ok bytes ↔ format.write value = .ok bytes := by
  unfold encode
  split <;> simp_all

end ChainVariables.Format
