import ChainVariables.Address
import ChainVariables.Height

/-! # Scheduled moves

A variable never moves at once. Its record names the address that holds it now,
the address that will hold it, and the height from which on the latter counts,
so that every node finds the same address from the record and the height alone.
-/

namespace ChainVariables

/-- Where a variable is kept, and its move to another address from a height on. -/
structure Relocation where
  current : Address
  future : Address
  /-- The first height at which the future address counts. -/
  changeOn : Height
  deriving DecidableEq, Repr

namespace Relocation

/-- The address that counts at a height. -/
def addressAt (relocation : Relocation) (height : Height) : Address :=
  if relocation.changeOn ≤ height then relocation.future else relocation.current

def debug (relocation : Relocation) : String :=
  "DeferredChange \x7b current: " ++ relocation.current.debug ++ ", future: "
    ++ relocation.future.debug ++ ", change_on: " ++ relocation.changeOn.debug ++ " \x7d"

def format : Format Relocation :=
  .via (.pair Address.format (.pair Address.format Height.format))
    (fun (current, future, changeOn) => ⟨current, future, changeOn⟩)
    (fun relocation => (relocation.current, relocation.future, relocation.changeOn))
    (fun _ => rfl) (fun _ => rfl)

end Relocation

end ChainVariables
