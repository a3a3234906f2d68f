import MicroBench.Prime.Division

/-! # Scanning for primes

  A scan gives the primes in ascending order, by testing one candidate after the other. It ends
  after the last candidate that is a 32-bit number.

  - `Scan.next` gives the next prime.
  - `Scan.take` gives the next few primes and `firstPrimes` those from the beginning.
-/

namespace MicroBench.Prime

/-- The number of primes below `2 ^ 32`, the most that a scan can give. -/
def maxPrimeCount : Nat := 203280221

/-- A scan for primes: the next number to test, or nothing when all are tested. -/
structure Scan where
  candidate : Option UInt32
  deriving DecidableEq, Repr

namespace Scan

/-- The scan that starts at the first candidate. -/
def start : Scan := ⟨some 1⟩

/-- The candidate after a number, if there is one. -/
def after (n : UInt32) : Option UInt32 := if n.toNat + 1 < 1 <<< 32 then some (n + 1) else none

/-- Tests candidates from `n` on until one of them is prime. -/
def nextFrom (n : UInt32) : Except Fault (Option UInt32 × Scan) := do
  if ← isPrime n then pure (some n, ⟨after n⟩)
  else if n.toNat + 1 < 1 <<< 32 then nextFrom (n + 1)
  else pure (none, ⟨none⟩)
termination_by (1 <<< 32) - n.toNat
decreasing_by
  rename_i h
  have : (n + 1).toNat = n.toNat + 1 := by
    rw [UInt32.toNat_add]
    exact Nat.mod_eq_of_lt h
  omega

/-- The next prime, or nothing if the candidates are used up, and the scan after it. -/
def next (scan : Scan) : Except Fault (Option UInt32 × Scan) :=
  match scan.candidate with
  | some n => nextFrom n
  | none => .ok (none, scan)

/-- Adds the next `count` primes to those already found; stops early when there are no more. -/
def takeOnto : (count : Nat) → (found : Array UInt32) → Scan → Except Fault (Array UInt32 × Scan)
  | 0, found, scan => .ok (found, scan)
  | count + 1, found, scan =>
    match scan.next with
    | .ok (some p, scan) => takeOnto count (found.push p) scan
    | .ok (none, scan) => .ok (found, scan)
    | .error fault => .error fault

/-- The next `count` primes, or fewer if there are no more, and the scan after them. -/
def take (count : Nat) (scan : Scan) : Except Fault (Array UInt32 × Scan) :=
  takeOnto count #[] scan

/-- Adds the results of `count` calls of `next` to those of earlier calls. -/
def nextsOnto : (count : Nat) → (results : Array (Option UInt32)) → Scan →
    Except Fault (Array (Option UInt32) × Scan)
  | 0, results, scan => .ok (results, scan)
  | count + 1, results, scan =>
    match scan.next with
    | .ok (result, scan) => nextsOnto count (results.push result) scan
    | .error fault => .error fault

/-- The results of `count` calls of `next`. -/
def nexts (count : Nat) (scan : Scan) : Except Fault (Array (Option UInt32) × Scan) :=
  nextsOnto count #[] scan

/-- Leaves out `skipped` primes and gives the one after them. -/
def nth : (skipped : Nat) → Scan → Except Fault (Option UInt32 × Scan)
  | 0, scan => scan.next
  | skipped + 1, scan =>
    match scan.next with
    | .ok (some _, scan) => nth skipped scan
    | .ok (none, scan) => .ok (none, scan)
    | .error fault => .error fault

/-- The scan's state in words. -/
def detail (scan : Scan) : String :=
  let candidate := match scan.candidate with
    | some n => s!"Some({n.toNat})"
    | none => "None"
  "Primes \x7b next_candidate: " ++ candidate ++ " \x7d"

end Scan

/-- The first `count` primes, or all primes below `2 ^ 32` if there are fewer. -/
def firstPrimes (count : Nat) : Except Fault (Array UInt32) := do
  pure (← Scan.start.take count).1

end MicroBench.Prime
