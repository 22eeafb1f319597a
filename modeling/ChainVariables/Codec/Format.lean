import ChainVariables.Codec.Fault
import ChainVariables.Codec.Word
import ChainVariables.SortedMap

/-! # Binary formats

A `Format α` describes how values of `α` are laid out in bytes. Numbers are
little-endian and of fixed width. Texts, byte strings, lists and maps begin with
their count in four bytes. Alternatives begin with a byte that is 0 or 1.

`Format.read` takes one value from the front of some bytes and returns what is
left. `Format.write` produces the bytes of a value. A map is written in ascending
order of its keys but read in any order, so only the formats without maps have
one byte string per value (`Format.MapFree`).
-/

namespace ChainVariables

/-- The two binary floating-point formats. -/
inductive FloatShape where
  | single
  | double
  deriving DecidableEq, Repr

namespace FloatShape

def width : FloatShape → Nat
  | single => 4
  | double => 8

def infinity : FloatShape → Nat
  | single => 0x7F800000
  | double => 0x7FF0000000000000

def sign : FloatShape → Nat
  | single => 0x80000000
  | double => 0x8000000000000000

/-- Whether the bits are those of no number: apart from the sign they exceed infinity. -/
def isNaN (shape : FloatShape) (bits : BitVec (8 * shape.width)) : Bool :=
  shape.infinity < bits.toNat % shape.sign

end FloatShape

/-- How values of a type are laid out in bytes. -/
inductive Format : Type → Type 1 where
  | unit : Format Unit
  | bool : Format Bool
  | word (width : Nat) : Format (BitVec (8 * width))
  | nonzero (width : Nat) : Format { value : BitVec (8 * width) // value ≠ 0 }
  | float (shape : FloatShape) : Format (BitVec (8 * shape.width))
  | text : Format String
  | bytes : Format Bytes
  | block (length : Nat) : Format { bytes : Bytes // bytes.length = length }
  | pair {α β : Type} (first : Format α) (second : Format β) : Format (α × β)
  | option {α : Type} (item : Format α) : Format (Option α)
  | result {ε α : Type} (failure : Format ε) (success : Format α) : Format (Except ε α)
  | list {α : Type} (item : Format α) : Format (List α)
  | map {κ β : Type} [ByteKey κ] (key : Format κ) (value : Format β) : Format (SortedMap κ β)
  /-- The layout of another type, with which the values correspond one to one. -/
  | via {α β : Type} (source : Format α) (build : α → β) (parts : β → α)
      (build_parts : ∀ value, build (parts value) = value)
      (parts_build : ∀ value, parts (build value) = value) : Format β

namespace Format

variable {α β κ : Type}

/-- Whether the values take no bytes. -/
def isEmpty : {α : Type} → Format α → Bool
  | _, unit => true
  | _, word width => width == 0
  | _, block length => length == 0
  | _, pair first second => first.isEmpty && second.isEmpty
  | _, via source .. => source.isEmpty
  | _, _ => false

/-- Whether no map occurs in the format. -/
def MapFree : {α : Type} → Format α → Prop
  | _, pair first second => first.MapFree ∧ second.MapFree
  | _, option item => item.MapFree
  | _, result failure success => failure.MapFree ∧ success.MapFree
  | _, list item => item.MapFree
  | _, map .. => False
  | _, via source .. => source.MapFree
  | _, _ => True

/-! ## Reading -/

/-- Takes so many bytes from the front. -/
def take (count : Nat) (input : Bytes) : Except ReadFault (Bytes × Bytes) :=
  let taken := input.take count
  if taken.length = count then .ok (taken, input.drop count) else .error .endOfInput

def takeByte : Bytes → Except ReadFault (UInt8 × Bytes)
  | [] => .error .endOfInput
  | byte :: rest => .ok (byte, rest)

def takeWord (width : Nat) (input : Bytes) : Except ReadFault (BitVec (8 * width) × Bytes) := do
  let (taken, rest) ← take width input
  return (BitVec.ofNat _ (Word.ofBytes taken), rest)

def takeCounted (input : Bytes) : Except ReadFault (Bytes × Bytes) := do
  let (count, rest) ← takeWord 4 input
  take count.toNat rest

/-- Reads so many items, one after another; those read before are held last first. -/
def readItems (item : Bytes → Except ReadFault (α × Bytes)) :
    (count : Nat) → (before : List α) → Bytes → Except ReadFault (List α × Bytes)
  | 0, before, input => .ok (before.reverse, input)
  | count + 1, before, input =>
      match item input with
      | .ok (value, rest) => readItems item count (value :: before) rest
      | .error fault => .error fault

/-- Reads one value from the front of some bytes, and returns the bytes after it. -/
def read : {α : Type} → Format α → Bytes → Except ReadFault (α × Bytes)
  | _, unit, input => .ok ((), input)
  | _, bool, input => do
      let (tag, rest) ← takeByte input
      if tag = 0 then return (false, rest)
      else if tag = 1 then return (true, rest)
      else throw (.boolTag tag)
  | _, word width, input => takeWord width input
  | _, nonzero width, input => do
      let (value, rest) ← takeWord width input
      if nonzero : value ≠ 0 then return (⟨value, nonzero⟩, rest) else throw .zero
  | _, float shape, input => do
      let (bits, rest) ← takeWord shape.width input
      if shape.isNaN bits then throw .notANumber else return (bits, rest)
  | _, text, input => do
      let (taken, rest) ← takeCounted input
      match Utf8.decode taken with
      | .ok value => return (value, rest)
      | .error fault => throw (.text fault)
  | _, bytes, input => takeCounted input
  | _, block length, input =>
      let taken := input.take length
      if exact : taken.length = length then .ok (⟨taken, exact⟩, input.drop length)
      else .error .endOfInput
  | _, pair first second, input => do
      let (left, rest) ← first.read input
      let (right, rest) ← second.read rest
      return ((left, right), rest)
  | _, option item, input => do
      let (tag, rest) ← takeByte input
      if tag = 0 then return (none, rest)
      else if tag = 1 then
        let (value, rest) ← item.read rest
        return (some value, rest)
      else throw (.optionTag tag)
  | _, result failure success, input => do
      let (tag, rest) ← takeByte input
      if tag = 0 then
        let (reason, rest) ← failure.read rest
        return (.error reason, rest)
      else if tag = 1 then
        let (value, rest) ← success.read rest
        return (.ok value, rest)
      else throw (.resultTag tag)
  | _, list item, input =>
      if item.isEmpty then .error .emptyItems
      else do
        let (count, rest) ← takeWord 4 input
        readItems item.read count.toNat [] rest
  | _, map key value, input => do
      let (count, rest) ← takeWord 4 input
      let (entries, rest) ← readItems
        (fun input => do
          let (left, rest) ← key.read input
          let (right, rest) ← value.read rest
          return ((left, right), rest))
        count.toNat [] rest
      return (SortedMap.ofList entries, rest)
  | _, via source build .., input => do
      let (value, rest) ← source.read input
      return (build value, rest)

/-! ## Writing -/

/-- The bytes of a count, which has to fit in four bytes. -/
def writeCount (count : Nat) : Except WriteFault Bytes :=
  if count < UInt32.size then .ok (Word.toBytes 4 count) else .error .tooLong

def writeCounted (bytes : Bytes) : Except WriteFault Bytes := do
  return (← writeCount bytes.length) ++ bytes

def writeItems (item : α → Except WriteFault Bytes) (items : List α) :
    Except WriteFault Bytes := do
  let count ← writeCount items.length
  let parts ← items.mapM item
  return count ++ parts.flatten

def write : {α : Type} → Format α → α → Except WriteFault Bytes
  | _, unit, _ => .ok []
  | _, bool, value => .ok [if value then 1 else 0]
  | _, word width, value => .ok (Word.toBytes width value.toNat)
  | _, nonzero width, value => .ok (Word.toBytes width value.1.toNat)
  | _, float shape, bits =>
      if shape.isNaN bits then .error .notANumber else .ok (Word.toBytes shape.width bits.toNat)
  | _, text, value => writeCounted (Utf8.encode value)
  | _, bytes, value => writeCounted value
  | _, block _, value => .ok value.1
  | _, pair first second, (left, right) => do
      return (← first.write left) ++ (← second.write right)
  | _, option _, none => .ok [0]
  | _, option item, some value => do return 1 :: (← item.write value)
  | _, result failure _, .error reason => do return 0 :: (← failure.write reason)
  | _, result _ success, .ok value => do return 1 :: (← success.write value)
  | _, list item, items =>
      if item.isEmpty then .error .emptyItems else writeItems item.write items
  | _, map key value, source =>
      writeItems (fun entry => do return (← key.write entry.1) ++ (← value.write entry.2))
        source.toList
  | _, via source _ parts .., value => source.write (parts value)

end Format

end ChainVariables
