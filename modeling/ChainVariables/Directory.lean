import ChainVariables.Relocation

/-! # The directory of variables

The directory tells for every variable where it is kept at each height. Nodes
resolve an address from the directory's bytes and a height alone; a change is
installed only for heights above the current one, so it never alters what was
read before.
-/

namespace ChainVariables

/-- Why a directory cannot answer or change. -/
inductive DirectoryError where
  | notFound (name : String)
  | changeNotInFuture (name : String) (currentHeight changeOn : Height)
  deriving DecidableEq, Repr

def DirectoryError.message : DirectoryError → String
  | notFound name => "system variable " ++ name ++ " not found in location directory"
  | changeNotInFuture name currentHeight changeOn =>
      "change of system variable " ++ name ++ " scheduled on height " ++ changeOn.text
        ++ ", which is not after current height " ++ currentHeight.text

/-- The record of each variable, by name. -/
structure Directory where
  records : SortedMap String Relocation
  deriving DecidableEq

namespace Directory

def empty : Directory := ⟨.empty⟩

instance : Inhabited Directory := ⟨empty⟩

def get? (directory : Directory) (name : String) : Option Relocation :=
  directory.records.get? name

def contains (directory : Directory) (name : String) : Bool := directory.records.contains name

def size (directory : Directory) : Nat := directory.records.size

def isEmpty (directory : Directory) : Bool := directory.records.isEmpty

def toList (directory : Directory) : List (String × Relocation) := directory.records.toList

/-- Collects records in order: a later record replaces an earlier one of the same name. -/
def ofList (records : List (String × Relocation)) : Directory := ⟨.ofList records⟩

/-- The address of a variable at a height. -/
def resolve (directory : Directory) (name : String) (height : Height) :
    Except DirectoryError Address :=
  match directory.get? name with
  | some relocation => .ok (relocation.addressAt height)
  | none => .error (.notFound name)

/-- The address of every variable at a height, in ascending order of name. -/
def resolveAll (directory : Directory) (height : Height) : List (String × Address) :=
  directory.toList.map fun (name, relocation) => (name, relocation.addressAt height)

/-- The record that a change leads to: the variable stays, until the change, where it is at the
current height. A variable without a record is kept at the new address from the start. -/
def schedule (existing : Option Relocation) (address : Address) (currentHeight changeOn : Height) :
    Relocation where
  current := (existing.map (·.addressAt currentHeight)).getD address
  future := address
  changeOn := changeOn

/-- Schedules the move of a variable, which has to lie above the current height. -/
def install (directory : Directory) (name : String) (address : Address)
    (currentHeight changeOn : Height) : Except DirectoryError Directory :=
  if changeOn ≤ currentHeight then .error (.changeNotInFuture name currentHeight changeOn)
  else
    .ok ⟨directory.records.insert name
      (schedule (directory.get? name) address currentHeight changeOn)⟩

theorem install_eq_error_iff (directory : Directory) (name : String) (address : Address)
    (currentHeight changeOn : Height) {error : DirectoryError} :
    directory.install name address currentHeight changeOn = .error error ↔
      changeOn ≤ currentHeight ∧ error = .changeNotInFuture name currentHeight changeOn := by
  unfold install
  split
  next early => simp [early, eq_comm]
  next late => simp [late]

/-- A successful change is the record that the variable has from then on. -/
theorem get?_of_install {directory next : Directory} {name : String} {address : Address}
    {currentHeight changeOn : Height}
    (installed : directory.install name address currentHeight changeOn = .ok next) :
    next.get? name = some (schedule (directory.get? name) address currentHeight changeOn) := by
  unfold install at installed
  split at installed
  · cases installed
  · cases installed
    exact SortedMap.get?_insert_self ..

/-- A change touches no other variable. -/
theorem get?_of_install_of_ne {directory next : Directory} {name other : String}
    {address : Address} {currentHeight changeOn : Height}
    (installed : directory.install name address currentHeight changeOn = .ok next)
    (different : other ≠ name) : next.get? other = directory.get? other := by
  unfold install at installed
  split at installed
  · cases installed
  · cases installed
    exact SortedMap.get?_insert_of_ne _ _ different

def remove (directory : Directory) (name : String) : Directory := ⟨directory.records.erase name⟩

@[simp] theorem get?_remove_self (directory : Directory) (name : String) :
    (directory.remove name).get? name = none :=
  SortedMap.get?_erase_self ..

theorem get?_remove_of_ne (directory : Directory) {name other : String}
    (different : other ≠ name) : (directory.remove name).get? other = directory.get? other :=
  SortedMap.get?_erase_of_ne _ different

def format : Format Directory :=
  .via (.map .text Relocation.format) (fun records => ⟨records⟩) (·.records)
    (fun _ => rfl) (fun _ => rfl)

def toBytes (directory : Directory) : Outcome IoError Bytes := format.encode directory

/-- Reads a directory from exactly the bytes it is stored as. -/
def ofBytes (bytes : Bytes) : Except DecodeError Directory := format.decode bytes

end Directory

end ChainVariables
