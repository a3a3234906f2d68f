import MicroBench.Bytes
import MicroBench.Conformance.Candidate
import MicroBench.Pattern.Random
import MicroBench.Pattern.Seed
import MicroBench.Pattern.Shape
import MicroBench.Sequence

/-! # Conformance suites

  A suite checks one aspect of a candidate on sequences of many lengths. Most suites compare the
  candidate's result with a stable sort; the others look at stability, at repeated sorting, at the
  number of comparisons or at the seeds.

  - `Suite` lists the suites and `Suite.run` runs one of them.
  - `Failure` says how a candidate failed, and `Failure.message` what is said about it.
-/

namespace MicroBench.Conformance

/-- The lengths that the suites try. The last two are long enough to fork. -/
def testSizes : List Nat :=
  [0, 1, 2, 3, 4, 5, 6, 7, 8, 9, 10, 15, 16, 17, 20, 24, 30, 32, 33, 35, 50, 100, 200, 500, 1000,
    2048, 5000, 10000]

/-- A file that is written to keep a sequence. -/
structure DumpFile where
  name : String
  content : String
  deriving DecidableEq, Repr

/-- How a candidate failed. -/
inductive Failure where
  /-- The result differs from the stable sort. Long sequences may be kept in files. -/
  | mismatch (files : List DumpFile)
  /-- More comparisons were made than allowed. -/
  | tooManyComparisons (made len bound : Nat)
  /-- Some other fact that the suite asserts does not hold. -/
  | assertion
  /-- The candidate faulted. -/
  | fault (cause : Fault)
  deriving DecidableEq, Repr

/-- What is said about a failure, if there is anything to say. -/
def Failure.message : Failure → Option String
  | mismatch _ => some "Test assertion failed!"
  | tooManyComparisons made len bound =>
    some s!"{made} comparisons for {len} elements, bound {bound}"
  | assertion | fault _ => none

/-- The files written on the way to a failure. -/
def Failure.files : Failure → List DumpFile
  | mismatch files => files
  | _ => []

/-- The surroundings of a suite. -/
structure Setup where
  policy : Pattern.SeedPolicy := {}
  /-- The words that the process can draw at random. -/
  entropy : Nat → UInt64
  /-- Whether long sequences are kept in files when a comparison fails. -/
  keepLarge : Bool := false

/-- The seed of all random patterns. -/
def Setup.seed (setup : Setup) : UInt64 := setup.policy.seed setup.entropy 0

/-- The draws of all random patterns. -/
def Setup.draws (setup : Setup) : Pattern.Draws := Pattern.splitMix setup.seed

/-- Goes on if the condition holds and fails otherwise. -/
def assert (condition : Bool) : Except Failure Unit :=
  if condition then .ok () else .error .assertion

/-- A candidate's result, or its fault as a failure. -/
def tried {β : Type} (result : Except Fault β) : Except Failure β := result.mapError .fault

/-! ## Comparison with a stable sort -/

/-- A list between brackets, its items divided by comma and blank. -/
def listText {α : Type} (itemText : α → String) (items : List α) : String :=
  "[" ++ ", ".intercalate (items.map itemText) ++ "]"

/-- The files that keep a failed comparison. -/
def dumpFiles {α : Type} (itemText : α → String) (seed : UInt64) (input expected got : List α) :
    List DumpFile :=
  let file (kind : String) (items : List α) : DumpFile :=
    ⟨kind ++ "_" ++ toString seed.toNat ++ ".txt", listText itemText items⟩
  [file "original" input, file "stdlib_sorted" expected, file "testsort_sorted" got]

/-- Sequences up to this length are not kept in files. -/
def smallLen : Nat := 100

/-- Compares the candidate's result with the stable sort. -/
def compareSorts {α : Type} [Item α] [BEq α] (itemText : α → String) (setup : Setup)
    (candidate : Candidate) (input : List α) : Except Failure Unit := do
  let expected := stableSort input
  let got ← tried (candidate.sort Item.order input.toArray)
  let got := got.toList
  if expected == got then pure ()
  else if setup.keepLarge && smallLen < input.length then
    throw (.mismatch (dumpFiles itemText setup.seed input expected got))
  else throw (.mismatch [])

/-- Compares integers. -/
def compareIntegers (setup : Setup) (candidate : Candidate) (input : List Int32) :
    Except Failure Unit :=
  compareSorts (fun n : Int32 => toString n.toInt) setup candidate input

/-- Compares words. -/
def compareWords (setup : Setup) (candidate : Candidate) (input : List UInt64) :
    Except Failure Unit :=
  compareSorts (fun n : UInt64 => toString n.toNat) setup candidate input

/-- Compares items without content. -/
def compareUnits (setup : Setup) (candidate : Candidate) (len : Nat) : Except Failure Unit :=
  compareSorts (fun _ : Unit => "()") setup candidate (List.replicate len ())

/-- Compares a pattern of integers at all test sizes. A pattern that does not exist is a failed
    assertion. -/
def comparePattern (setup : Setup) (candidate : Candidate)
    (pattern : Nat → Option (List Int32)) : Except Failure Unit :=
  testSizes.forM fun size =>
    match pattern size with
    | some values => compareIntegers setup candidate values
    | none => throw .assertion

/-! ## Numbers derived from lengths -/

/-- The binary logarithm of a length, rounded to the nearest number; zero for zero. -/
def roundLog2 (n : Nat) : Nat :=
  if 1 <<< (2 * n.log2 + 1) ≤ n * n then n.log2 + 1 else n.log2

/-- The binary logarithm of a positive length, rounded up. -/
def ceilLog2 (n : Nat) : Nat := if n ≤ 1 then 0 else (n - 1).log2 + 1

/-! ## Stability -/

/-- Tells whether tagged integers are in order, tags included. -/
def isStablySorted (items : List (Int32 × UInt32)) : Bool :=
  adjacent (fun a b => Item.order a b != .gt) items

/-- Tags the keys, sorts them by key alone and checks that the tags of equal keys ascend. -/
def checkStable (candidate : Candidate) (keys : List Int32) : Except Failure Unit := do
  let tagged := (Pattern.tagOccurrences keys).toArray
  let byKey : Comparator Unit (Int32 × UInt32) := .ofOrder fun a b => compare a.1 b.1
  let (sorted, ()) ← tried (candidate.sortBy byKey tagged ())
  assert (isStablySorted sorted.toList)

/-- The lengths that the stability suite tries, ten times each. -/
def stabilityLens : List Nat :=
  (List.range' 2 53 ++ List.range' 3000 10).flatMap (List.replicate 10)

/-- The keys from position `start` on; behind the last value the first one follows again. -/
def cyclicKeys (values : Array Int32) (start len : Nat) : List Int32 :=
  (List.range len).map fun i => values.getD ((start + i) % values.size) 0

/-- Checks sequences of few different keys. -/
def stability (setup : Setup) (candidate : Candidate) : Except Failure Unit := do
  let some values := Pattern.randomUniform setup.draws (.closed 0 9) 5000 | throw .assertion
  let values := values.toArray
  let _ ← stabilityLens.foldlM
    (fun start len => do
      checkStable candidate (cyclicKeys values start len)
      pure ((start + len) % values.size))
    0

/-- The magnitude of an integer; the least integer counts as the greatest one. -/
def saturatingAbs (n : Int32) : Int32 :=
  if n = Int32.minValue then Int32.maxValue else if n < 0 then -n else n

/-- The patterns that the stability suite with patterns tries. -/
def stabilityPatterns (draws : Pattern.Draws) : List (Nat → Option (List Int32)) :=
  [fun size => some (Pattern.random draws size),
    fun size => Pattern.randomUniform draws (.closed 0 (Int32.ofNat (roundLog2 size))) size,
    fun size => Pattern.randomUniform draws (.closed 0 1) size,
    fun size => some (Pattern.ascending size),
    fun size => some (Pattern.descending size),
    fun size => Pattern.sawMixed draws draws size (roundLog2 size),
    fun size => Pattern.sawMixed draws draws size ((size + 11) / 22)]

/-- Checks patterns whose keys are brought into the range from `0` to `127`. -/
def stabilityWithPatterns (setup : Setup) (candidate : Candidate) : Except Failure Unit :=
  (stabilityPatterns setup.draws).forM fun pattern =>
    (testSizes.filter (2 ≤ ·)).forM fun size =>
      match pattern size with
      | some values => checkStable candidate (values.map fun n => saturatingAbs n % 128)
      | none => throw .assertion

/-- Checks one small sequence with tags of another kind. -/
def stabilityTagged (candidate : Candidate) : Except Failure Unit := do
  let byKey : Comparator Unit (Int32 × Char) := .ofOrder fun a b => compare a.1 b.1
  let (sorted, ()) ← tried (candidate.sortBy byKey #[(2, 'a'), (2, 'b'), (1, 'c'), (1, 'd')] ())
  assert (sorted == #[(1, 'c'), (1, 'd'), (2, 'a'), (2, 'b')])

/-! ## The other suites -/

/-- A few small sequences. -/
def basic (setup : Setup) (candidate : Candidate) : Except Failure Unit := do
  compareIntegers setup candidate []
  [0, 1, 2, 3].forM (compareUnits setup candidate)
  [[2, 3], [2, 3, 6], [2, 3, 99, 6], [2, 7709, 400, 90932], [15, -1, 3, -1, -3, -1, 7],
    [5, 3, 1, 4, 2]].forM (compareIntegers setup candidate)

/-- The least and the greatest integers, alone and behind a long random sequence. -/
def intEdge (setup : Setup) (candidate : Candidate) : Except Failure Unit := do
  let least := Int32.minValue
  let greatest := Int32.maxValue
  [[least, greatest], [greatest, least], [least, 3], [least, -3], [least, -3, greatest],
    [least, -3, greatest, least, 5],
    [greatest, 3, least, 5, least, -3, 60, 200, 50, 7, 10]].forM (compareIntegers setup candidate)
  let top : UInt64 := 0xffffffffffffffff
  [[0, top], [top, 0], [0, top - 3, top, 0, 5]].forM (compareWords setup candidate)
  compareIntegers setup candidate
    (Pattern.random setup.draws 5000 ++ [greatest, least, greatest])

/-- Random words that are spread over their whole range in the order of random integers. -/
def spreadWord (n : Int32) : UInt64 := UInt64.ofNat ((n.toInt + 0x80000000).toNat * 0x7fffffff)

/-- Words in place of integers. -/
def randomWords (setup : Setup) (candidate : Candidate) : Except Failure Unit :=
  testSizes.forM fun size =>
    compareWords setup candidate ((Pattern.random setup.draws size).map spreadWord)

/-- Integers of 8 bits in place of integers of 32 bits. -/
def randomBytes (setup : Setup) (candidate : Candidate) : Except Failure Unit :=
  testSizes.forM fun size =>
    compareSorts (fun n : Int8 => toString n.toInt) setup candidate
      ((Pattern.random setup.draws size).map Int32.toInt8)

/-- Sorting a countdown has to give the numbers from one on. -/
def countdown (candidate : Candidate) : Except Failure Unit :=
  testSizes.forM fun size => do
    let sorted ← tried (candidate.sort Item.order (Pattern.countdown size).toArray)
    assert (sorted.toList == (List.range' 1 size).map Int32.ofNat)

/-- Sorting a sorted sequence must not change it. -/
def idempotent (setup : Setup) (candidate : Candidate) : Except Failure Unit :=
  testSizes.forM fun size => do
    let some values := Pattern.randomUniform setup.draws (.halfOpen (-50) 50) size
      | throw .assertion
    let once ← tried (candidate.sort Item.order values.toArray)
    let twice ← tried (candidate.sort Item.order once)
    assert (twice == once)

/-- Both sorts of a candidate have to give the same result. -/
def sortVsSortBy (candidate : Candidate) : Except Failure Unit := do
  let input : Array Int32 := #[800, 3, -801, 5, -801, -3, 60, 200, 50, 7, 10]
  let expected : Array Int32 := #[-801, -801, -3, 3, 5, 7, 10, 50, 60, 200, 800]
  let byOrder ← tried (candidate.sort Item.order input)
  let natural : Comparator Unit Int32 := .ofOrder compare
  let (byComparator, ()) ← tried (candidate.sortBy natural input ())
  assert (byOrder == expected)
  assert (byComparator == expected)

/-- The reversed order has to give the sequence from its greatest value down. -/
def reverseComparator (setup : Setup) (candidate : Candidate) : Except Failure Unit :=
  testSizes.forM fun size => do
    let values := Pattern.random setup.draws size
    let reversed : Comparator Unit Int32 := .ofOrder fun a b => compare b a
    let (sorted, ()) ← tried (candidate.sortBy reversed values.toArray ())
    assert (sorted.toList == values.mergeSort fun a b => compare b a != .gt)

/-- A top-down merge sort of `n` items never needs more than `n ⌈log₂ n⌉` comparisons. -/
def comparisonBound (setup : Setup) (candidate : Candidate) : Except Failure Unit :=
  (testSizes.filter (2 ≤ ·)).forM fun size => do
    let counting : Comparator Nat Int32 := fun a b made => (compare a b, made + 1)
    let values := (Pattern.random setup.draws size).toArray
    let (_, made) ← tried (candidate.sortBy counting values 0)
    let bound := size * ceilLog2 size
    if made ≤ bound then pure () else throw (.tooManyComparisons made size bound)

/-- A process has to keep its seed. -/
def fixedSeed (setup : Setup) : Except Failure Unit :=
  assert (setup.policy.seed setup.entropy 0 == setup.policy.seed setup.entropy 1)

/-! ## All suites -/

/-- The suites by name. -/
inductive Suite where
  | allEqual
  | ascending
  | basic
  | comparisonBound
  | countdown
  | descending
  | fixedSeed
  | idempotent
  | intEdge
  | pipeOrgan
  | random
  | randomBinary
  | randomBytes
  | randomNarrow
  | randomWords
  /-- Random integers from `0` up to, but not including, the given number. -/
  | randomBelow (bound : Int32)
  /-- Random integers of which the given percentage is sorted. -/
  | randomSorted (percent : Float)
  | reverseComparator
  | sawMixed
  | sortVsSortBy
  | stability
  | stabilityTagged
  | stabilityWithPatterns

/-- Runs a suite against a candidate. -/
def Suite.run (setup : Setup) (candidate : Candidate) : Suite → Except Failure Unit
  | .allEqual => comparePattern setup candidate fun size => some (Pattern.allEqual size)
  | .ascending => comparePattern setup candidate fun size => some (Pattern.ascending size)
  | .basic => Conformance.basic setup candidate
  | .comparisonBound => Conformance.comparisonBound setup candidate
  | .countdown => Conformance.countdown candidate
  | .descending => comparePattern setup candidate fun size => some (Pattern.descending size)
  | .fixedSeed => Conformance.fixedSeed setup
  | .idempotent => Conformance.idempotent setup candidate
  | .intEdge => Conformance.intEdge setup candidate
  | .pipeOrgan =>
    comparePattern setup candidate fun size => some (Pattern.pipeOrgan setup.draws size)
  | .random => comparePattern setup candidate fun size => some (Pattern.random setup.draws size)
  | .randomBinary =>
    comparePattern setup candidate (Pattern.randomUniform setup.draws (.closed 0 1))
  | .randomBytes => Conformance.randomBytes setup candidate
  | .randomNarrow =>
    comparePattern setup candidate fun size =>
      if 3 < size then
        Pattern.randomUniform setup.draws (.closed 0 (Int32.ofNat (roundLog2 size * 100))) size
      else some []
  | .randomWords => Conformance.randomWords setup candidate
  | .randomBelow bound =>
    comparePattern setup candidate (Pattern.randomUniform setup.draws (.halfOpen 0 bound))
  | .randomSorted percent =>
    comparePattern setup candidate fun size => Pattern.randomSorted setup.draws size percent
  | .reverseComparator => Conformance.reverseComparator setup candidate
  | .sawMixed =>
    comparePattern setup candidate fun size =>
      Pattern.sawMixed setup.draws setup.draws size (roundLog2 size)
  | .sortVsSortBy => Conformance.sortVsSortBy candidate
  | .stability => Conformance.stability setup candidate
  | .stabilityTagged => Conformance.stabilityTagged candidate
  | .stabilityWithPatterns => Conformance.stabilityWithPatterns setup candidate

end MicroBench.Conformance
