import MicroBench.Sort.Session

/-! # Integers out of bytes

  A byte string stands for the 32-bit integers whose bytes it lists, the lowest byte of each first.
  Up to three bytes at the end that make no whole integer are dropped.

  - `decodeIntegers` reads the integers off the bytes.
  - `checkSorted` compares a sorted sequence with what sorting the integers has to give.
  - `trySort` puts an engine to the test on the integers of a byte string.
-/

namespace MicroBench

/-- The integer with the given four bytes, the lowest first, in two's complement. -/
def integerOfBytes (b₀ b₁ b₂ b₃ : UInt8) : Int32 :=
  (b₀.toUInt32 ||| b₁.toUInt32 <<< 8 ||| b₂.toUInt32 <<< 16 ||| b₃.toUInt32 <<< 24).toInt32

/-- Appends the integers that a list of bytes stands for to those already read. -/
def decodeOnto (done : Array Int32) : List UInt8 → Array Int32
  | b₀ :: b₁ :: b₂ :: b₃ :: rest => decodeOnto (done.push (integerOfBytes b₀ b₁ b₂ b₃)) rest
  | _ => done

/-- The integers that a list of bytes stands for. -/
def decodeIntegers (bytes : List UInt8) : List Int32 := (decodeOnto #[] bytes).toList

/-- The items in their natural order; equal items keep their order. -/
def stableSort {α : Type} [Item α] (items : List α) : List α :=
  items.mergeSort fun a b => Item.order a b != .gt

/-- Tells whether `sorted` is what sorting the input has to give. -/
def checkSorted (input sorted : List Int32) : Bool := stableSort input == sorted

/-- Sorts the integers that a list of bytes stands for with the given engine. Gives what the engine
    left, and tells whether that is what it has to be. -/
def trySort (engine : Engine) (schedule : Schedule) (bytes : List UInt8) :
    Except Fault (Array Int32 × Bool) := do
  let input := decodeIntegers bytes
  let (sorted, ()) ← engine.sortBy naturalComparator schedule input.toArray ()
  pure (sorted, checkSorted input sorted.toList)

end MicroBench
