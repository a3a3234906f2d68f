import MicroBench.Prime.Scan

/-! # Benchmark settings

  The settings of the two benchmarks and their default values.
-/

namespace MicroBench

/-- How many integers the sort benchmark sorts unless told otherwise. -/
def defaultSortLen : Nat := 10000000

/-- How many integers an embedding host sorts. -/
def hostSortLen : Nat := 100000000

/-- How many primes the prime benchmark collects unless told otherwise. -/
def defaultPrimeCount : Nat := 1000000

/-- The environment variable that holds the log filter. -/
def logVariable : String := "MERGE_BENCH_LOG"

/-- The settings of the sort benchmark. -/
structure SortConfig where
  /-- How many integers to sort. -/
  len : Nat := defaultSortLen
  /-- How often to sort them. -/
  runs : Nat := 1
  /-- Whether long ranges are sorted by fork and join. -/
  parallel : Bool := false
  /-- Whether each result is checked. -/
  verify : Bool := false
  deriving DecidableEq, Repr

/-- The settings of the prime benchmark. -/
structure PrimeConfig where
  /-- How many primes to collect. -/
  count : Nat := defaultPrimeCount
  /-- How often to collect them. -/
  runs : Nat := 1
  deriving DecidableEq, Repr

/-- A benchmark to run, with its settings. -/
inductive Job where
  | sort (config : SortConfig)
  | primes (config : PrimeConfig)
  deriving DecidableEq, Repr

end MicroBench
