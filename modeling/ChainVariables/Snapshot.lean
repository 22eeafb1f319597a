import ChainVariables.Digest
import ChainVariables.Height

/-! # Snapshots of all variables -/

namespace ChainVariables

/-- Why a variable could not be read from a snapshot. -/
inductive GetError where
  | notFound (name : String)
  | malformed (name : String) (source : DecodeError)

def GetError.message : GetError → String
  | notFound name => "system variable " ++ name ++ " not found"
  | malformed name source => "system variable " ++ name ++ " is malformed: " ++ source.message

/-- The values of all variables, and the height they were fetched at. -/
structure Snapshot where
  values : SortedMap String Bytes
  /-- The height of the refresh that the snapshot comes from, if there was one. -/
  height? : Option Height
  deriving DecidableEq

namespace Snapshot

def empty : Snapshot := ⟨.empty, none⟩

instance : Inhabited Snapshot := ⟨empty⟩

def size (snapshot : Snapshot) : Nat := snapshot.values.size

def isEmpty (snapshot : Snapshot) : Bool := snapshot.values.isEmpty

def getRaw? (snapshot : Snapshot) (name : String) : Option Bytes := snapshot.values.get? name

/-- The value of a variable in a format. -/
def get {α : Type} (snapshot : Snapshot) (format : Format α) (name : String) :
    Except GetError α :=
  match snapshot.getRaw? name with
  | none => .error (.notFound name)
  | some bytes =>
      match format.decode bytes with
      | .ok value => .ok value
      | .error source => .error (.malformed name source)

def override (snapshot : Snapshot) (name : String) (bytes : Bytes) : Snapshot :=
  { snapshot with values := snapshot.values.insert name bytes }

/-- The bytes that the digest is taken of: the names with their values. -/
def canonicalBytes (snapshot : Snapshot) : Outcome IoError Bytes :=
  (Format.map .text .bytes).encode snapshot.values

/-- The hash of the names and values; the height does not enter. -/
def digest (snapshot : Snapshot) : Outcome IoError Digest := do
  return .ofMessage (← snapshot.canonicalBytes)

end Snapshot

end ChainVariables
