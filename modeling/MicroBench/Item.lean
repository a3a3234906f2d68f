import MicroBench.Pattern.Occurrence

/-! # Items

  The engine sorts anything that a comparator can compare. This module lists the item types that
  come with an order of their own: integers of three widths, a type whose items are all equal,
  tagged integers, and text.
-/

namespace MicroBench

/-- A type of items that can be sorted as they are. -/
class Item (α : Type) where
  /-- The natural order of the items. -/
  order : α → α → Ordering
  /-- A number that stands for an item where items are compared by key. -/
  key : α → Int
  /-- The item that fills fresh buffers. -/
  filler : α
  /-- How many bytes an item takes. -/
  byteSize : Nat
  /-- Makes items out of 32-bit integers. -/
  ofIntegers : List Int32 → List α

instance : Item Int32 where
  order := compare
  key := Int32.toInt
  filler := 0
  byteSize := 4
  ofIntegers := id

/-- An integer of 32 bits becomes one of 8 bits by keeping its lowest bits. -/
instance : Item Int8 where
  order := compare
  key := Int8.toInt
  filler := 0
  byteSize := 1
  ofIntegers := List.map Int32.toInt8

/-- An integer of 32 bits becomes a word of 64 bits by repeating its sign. -/
instance : Item UInt64 where
  order := compare
  key := fun word => word.toNat
  filler := 0
  byteSize := 8
  ofIntegers := List.map fun integer => integer.toInt64.toUInt64

/-- Items without any content are all equal and take no space. -/
instance : Item Unit where
  order := fun _ _ => .eq
  key := fun _ => 0
  filler := ()
  byteSize := 0
  ofIntegers := List.map fun _ => ()

/-- Tagged integers are ordered by the integer, then by the tag. -/
instance : Item (Int32 × UInt32) where
  order := fun a b => (compare a.1 b.1).then (compare a.2 b.2)
  key := fun item => item.1.toInt
  filler := (0, 0)
  byteSize := 8
  ofIntegers := Pattern.tagOccurrences

/-- Texts are ordered by their code points. An item is a reference: an address and a length. -/
instance : Item String where
  order := compare
  key := fun text => text.length
  filler := ""
  byteSize := 16
  ofIntegers := List.map fun integer => toString integer.toInt

/-- The ways to compare items that a caller can name. -/
inductive Criterion where
  /-- By the natural order. -/
  | natural
  /-- By the natural order, largest first. -/
  | reverse
  /-- By key. -/
  | key
  /-- By key, largest first. -/
  | keyReverse
  /-- By the absolute value of the key. -/
  | magnitude
  /-- The same answer every time. -/
  | constant (answer : Ordering)
  /-- By the key's remainder, which is never negative. -/
  | residue (modulus : Nat)
  /-- Answers from a script, which starts again at its end. -/
  | script (answers : Array Ordering)
  deriving DecidableEq, Repr

end MicroBench
