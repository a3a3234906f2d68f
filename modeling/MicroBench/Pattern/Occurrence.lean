import Std.Data.HashMap

/-! # Tagged occurrences

  To see whether a sort is stable, equal values have to be told apart. `tagOccurrences` pairs each
  value with the number of its occurrences so far: `6, 5, 6` becomes `(6, 1), (5, 1), (6, 2)`. A
  stable sort by the first component keeps the second components of equal values ascending.
-/

namespace MicroBench.Pattern

/-- The occurrence numbers reached so far, and the pairs made so far. -/
structure Tagging where
  counts : Std.HashMap Int32 UInt32 := ∅
  tagged : Array (Int32 × UInt32) := #[]

/-- Pairs one more value with its occurrence number. -/
def Tagging.next (tagging : Tagging) (value : Int32) : Tagging :=
  let count := tagging.counts.getD value 0 + 1
  ⟨tagging.counts.insert value count, tagging.tagged.push (value, count)⟩

/-- Pairs each value with the number of its occurrences up to and including this one. -/
def tagOccurrences (values : List Int32) : List (Int32 × UInt32) :=
  (values.foldl Tagging.next {}).tagged.toList

end MicroBench.Pattern
