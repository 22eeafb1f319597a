import ChainVariables.Codec.Strict

/-! # Block heights -/

namespace ChainVariables

/-- The height of a block, a number of 64 bits. -/
structure Height where
  toNat : Nat
  toNat_lt : toNat < UInt64.size := by decide
  deriving DecidableEq, Repr

/-- Ways to set a number into a line. -/
inductive Layout where
  | plain
  | right (width : Nat)
  | left (width : Nat)
  | zeros (width : Nat)
  | signed
  deriving DecidableEq, Repr

def Layout.text (layout : Layout) (number : Nat) : String :=
  let digits := Nat.toDigits 10 number
  String.ofList <|
    match layout with
    | plain => digits
    | right width => digits.leftpad width ' '
    | left width => digits.rightpad width ' '
    | zeros width => digits.leftpad width '0'
    | signed => '+' :: digits

namespace Height

instance : LE Height := ⟨fun first second => first.toNat ≤ second.toNat⟩

instance : LT Height := ⟨fun first second => first.toNat < second.toNat⟩

instance (first second : Height) : Decidable (first ≤ second) :=
  inferInstanceAs (Decidable (first.toNat ≤ second.toNat))

instance (first second : Height) : Decidable (first < second) :=
  inferInstanceAs (Decidable (first.toNat < second.toNat))

theorem eq_of_toNat_eq {first second : Height} (same : first.toNat = second.toNat) :
    first = second := by
  cases first
  cases second
  cases same
  rfl

theorem le_iff {first second : Height} : first ≤ second ↔ first.toNat ≤ second.toNat := .rfl

theorem lt_iff {first second : Height} : first < second ↔ first.toNat < second.toNat := .rfl

theorem not_le {first second : Height} : ¬ first ≤ second ↔ second < first := Nat.not_le

def text (height : Height) : String := height.toNat.repr

def debug (height : Height) : String := "BlockHeight(" ++ height.text ++ ")"

def format : Format Height :=
  .via (.word 8) (fun value => ⟨value.toNat, value.isLt⟩)
    (fun height => BitVec.ofNatLT height.toNat height.toNat_lt) (fun _ => rfl) (fun _ => rfl)

end Height

end ChainVariables
