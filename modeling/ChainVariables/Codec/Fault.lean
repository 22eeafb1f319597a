import ChainVariables.Error.Io
import ChainVariables.Text.Utf8

/-! # Why a value cannot be read or written

The causes are told apart here; their wordings, and the kind of input error each
of them counts as, are fixed in one place.
-/

namespace ChainVariables

/-- Why no value could be read. -/
inductive ReadFault where
  | endOfInput
  | boolTag (tag : UInt8)
  | optionTag (tag : UInt8)
  | resultTag (tag : UInt8)
  | notANumber
  | zero
  | text (fault : Utf8.Fault)
  /-- The items of a list take no bytes, so their count would cost nothing to forge. -/
  | emptyItems
  deriving DecidableEq, Repr

/-- Why a value could not be written. -/
inductive WriteFault where
  | tooLong
  | emptyItems
  /-- A floating-point number that is no number has no portable bytes; writing it is a crash. -/
  | notANumber
  deriving DecidableEq, Repr

def emptyItemsText : String :=
  "Vectors of zero-sized types are not allowed due to deny-of-service concerns on deserialization."

def tagText (what : String) (tag : UInt8) : String :=
  "Invalid " ++ what ++ " representation: " ++ tag.toNat.repr

/-- The input error that a read fault counts as. -/
def ReadFault.toIoError : ReadFault → IoError
  | endOfInput => .described .invalidInput "Unexpected length of input"
  | boolTag tag => .described .invalidInput (tagText "bool" tag)
  | optionTag tag =>
      .described .invalidInput (tagText "Option" tag ++ ". The first byte must be 0 or 1")
  | resultTag tag =>
      .described .invalidInput (tagText "Result" tag ++ ". The first byte must be 0 or 1")
  | notANumber =>
      .described .invalidInput "For portability reasons we do not allow to deserialize NaNs."
  | zero => .described .invalidData "Expected a non-zero value"
  | text fault => .described .invalidData fault.message
  | emptyItems => .described .invalidInput emptyItemsText

def notANumberCrash : String := "For portability reasons we do not allow to serialize NaNs."

end ChainVariables
