import ChainVariables.Address
import ChainVariables.Error.Io

/-! # What reading a store comes to -/

namespace ChainVariables

/-- Why a store did not serve a read. -/
inductive StoreError where
  | keyNotFound (address : Address)
  | unavailable (reason : String)
  | io (cause : IoError)

namespace StoreError

def message : StoreError → String
  | keyNotFound address =>
      "no value at key " ++ address.key.listing ++ " in namespace " ++ address.space.listing
  | unavailable reason => "store unavailable: " ++ reason
  | io cause => "store I/O error: " ++ cause.message

def source? : StoreError → Option IoError
  | keyNotFound _ | unavailable _ => none
  | io cause => some cause

end StoreError

/-- What one read of a store comes to. -/
inductive Answer where
  | value (bytes : Bytes)
  | fault (error : StoreError)
  | crash (message : String)
  /-- The read never returns. -/
  | silent

end ChainVariables
