import ChainVariables.Codec.Strict
import ChainVariables.Text.Base64

/-! # Addresses of values

A store holds each value at a key inside a namespace, both arbitrary byte
strings. Addresses are compared by namespace first, then by key.
-/

namespace ChainVariables

/-- The place of one value in a store. -/
structure Address where
  space : Bytes
  key : Bytes
  deriving DecidableEq, Repr

namespace Address

def compare (first second : Address) : Ordering :=
  (ByteKey.compare first.space second.space).then (ByteKey.compare first.key second.key)

theorem compare_eq_iff {first second : Address} :
    first.compare second = .eq ↔ first = second := by
  unfold compare
  rw [Ordering.then_eq_eq, ByteKey.compare_eq_iff, ByteKey.compare_eq_iff]
  cases first
  cases second
  simp

/-- The Base64 texts of namespace and key with a slash between them. -/
def text (address : Address) : String :=
  Base64.encode address.space ++ "/" ++ Base64.encode address.key

def debug (address : Address) : String := "NamespacedKey(" ++ address.text ++ ")"

def format : Format Address :=
  .via (.pair .bytes .bytes) (fun (space, key) => ⟨space, key⟩)
    (fun address => (address.space, address.key)) (fun _ => rfl) (fun _ => rfl)

def sort (addresses : List Address) : List Address :=
  addresses.mergeSort fun first second => first.compare second != .gt

end Address

end ChainVariables
