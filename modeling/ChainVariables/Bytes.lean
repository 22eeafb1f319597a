/-! # Byte strings and keys ordered by their bytes

Values, namespaces and keys are byte strings. Names are texts, but wherever an
order shows they too are ordered by their bytes, so `ByteKey` gathers the key
types whose bytes identify them, and `ByteKey.compare` is the one order of the
library.
-/

namespace ChainVariables

abbrev Bytes := List UInt8

namespace Bytes

/-- The bytes in decimal between brackets, as in `[1, 2]`; `[]` when there are none. -/
def listing (bytes : Bytes) : String :=
  "[" ++ ", ".intercalate (bytes.map fun byte => byte.toNat.repr) ++ "]"

end Bytes

/-- Keys identified by a byte string, which also orders them. -/
class ByteKey (κ : Type) where
  bytes : κ → Bytes
  bytes_injective : ∀ {first second : κ}, bytes first = bytes second → first = second

namespace ByteKey

instance : ByteKey Bytes where
  bytes := id
  bytes_injective := id

variable {κ : Type} [ByteKey κ]

/-- Lexicographic comparison of the bytes of two keys. -/
def compare (first second : κ) : Ordering :=
  Ord.compare (bytes first) (bytes second)

abbrev Before (first second : κ) : Prop :=
  compare first second = .lt

theorem compare_eq_iff {first second : κ} : compare first second = .eq ↔ first = second := by
  unfold compare
  rw [Std.compare_eq_iff_eq]
  exact ⟨bytes_injective, fun same => same ▸ rfl⟩

@[simp] theorem compare_self (key : κ) : compare key key = .eq :=
  compare_eq_iff.mpr rfl

theorem compare_eq_gt_iff {first second : κ} : compare first second = .gt ↔ Before second first := by
  unfold Before compare
  exact Std.OrientedCmp.gt_iff_lt

theorem Before.trans {first second third : κ} (left : Before first second)
    (right : Before second third) : Before first third := by
  unfold Before compare at *
  exact Std.TransCmp.lt_trans left right

theorem Before.ne {first second : κ} (before : Before first second) : first ≠ second := by
  rintro rfl
  simp [Before] at before

theorem Before.asymm {first second : κ} (before : Before first second) : ¬ Before second first :=
  fun after => (before.trans after).ne rfl

end ByteKey

end ChainVariables
