import MicroBench.Config
import MicroBench.Text.Numeral

/-! # What the command line can set

  The program has two commands, one per benchmark. Each has settings: numbers, which can also come
  from the environment, and flags. This module lists them with their names and says which texts a
  number accepts.
-/

namespace MicroBench.CommandLine

/-- The two benchmarks by name. -/
inductive Command where
  | sort
  | primes
  deriving DecidableEq, Repr

/-- The word that selects a command. -/
def Command.name : Command → String
  | .sort => "sort"
  | .primes => "primes"

/-- The settings that take a number. -/
inductive Quantity where
  | len
  | runs
  | count
  deriving DecidableEq, Repr

/-- The settings that are on or off. -/
inductive Flag where
  | parallel
  | verify
  deriving DecidableEq, Repr

/-- The setting's name, without the dashes in front of it. -/
def Quantity.name : Quantity → String
  | .len => "len"
  | .runs => "runs"
  | .count => "count"

/-- The setting's name, without the dashes in front of it. -/
def Flag.name : Flag → String
  | .parallel => "parallel"
  | .verify => "verify"

/-- The option as messages show it, with a placeholder for its value. -/
def Quantity.usage : Quantity → String
  | .len => "--len <LEN>"
  | .runs => "--runs <RUNS>"
  | .count => "--count <COUNT>"

/-- The option as messages show it. -/
def Flag.usage (flag : Flag) : String := "--" ++ flag.name

/-- The environment variable that stands in for a missing option. -/
def Quantity.envName : Quantity → String
  | .len => "MERGE_BENCH_LEN"
  | .runs => "MERGE_BENCH_RUNS"
  | .count => "MERGE_BENCH_PRIME_COUNT"

/-- The value of a setting that is given nowhere. -/
def Quantity.default : Quantity → Nat
  | .len => defaultSortLen
  | .runs => 1
  | .count => defaultPrimeCount

/-- The numbers that a command takes, in the order in which they are listed. -/
def Command.quantities : Command → List Quantity
  | .sort => [.len, .runs]
  | .primes => [.count, .runs]

/-- The flags that a command takes, in the order in which they are listed. -/
def Command.flags : Command → List Flag
  | .sort => [.parallel, .verify]
  | .primes => []

/-! ## Values -/

/-- Why a text is no value of a setting. -/
inductive ValueError where
  /-- The text is no integer of the word that it is read into. -/
  | numeral (cause : Text.NumeralError)
  /-- The integer lies outside of the admitted range. -/
  | outOfRange (value : Int) (least greatest : Nat)
  deriving DecidableEq, Repr

/-- The end of the sentence that refuses a value. -/
def ValueError.message : ValueError → String
  | .numeral cause => cause.message
  | .outOfRange value least greatest => s!"{value} is not in {least}..={greatest}"

/-- Reads a signed word and checks that it lies in a range. -/
def readInRange (least greatest : Nat) (text : String) : Except ValueError Nat :=
  match Text.readInteger text with
  | .error cause => .error (.numeral cause)
  | .ok value =>
    if (least : Int) ≤ value ∧ value ≤ (greatest : Int) then .ok value.toNat
    else .error (.outOfRange value least greatest)

/-- Reads the value of a setting. A length is any word without sign; the other numbers are read
    with a sign and have to lie in a range. -/
def Quantity.read : Quantity → String → Except ValueError Nat
  | .len, text => (Text.readWord text).mapError .numeral
  | .runs, text => readInRange 1 ((1 <<< 32) - 1) text
  | .count, text => readInRange 0 Prime.maxPrimeCount text

end MicroBench.CommandLine
