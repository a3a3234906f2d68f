import MicroBench.Arena
import MicroBench.Config
import MicroBench.Log.Event
import MicroBench.Timing.Measure
import MicroBench.Timing.Summary

/-! # The benchmarks

  A benchmark runs a task several times and sums up how long the runs took. The clock and the log
  belong to the host: the benchmarks are written for any monad in which a host has a clock and takes
  events. So does the order in which the forks of a sort happen to run.

  - `benchSort` sorts a countdown; only the sorting is timed, not the refill between two runs.
  - `benchPrimes` collects primes from the beginning.
  - `BenchError` lists what can go wrong, and `BenchError.chain` says it in words, from the
    outermost cause to the innermost.
-/

namespace MicroBench

/-- What a benchmark needs from its surroundings. -/
structure Host (m : Type → Type) extends Clock m where
  /-- Takes an event. -/
  emit : Log.Event → m Unit
  /-- The schedules that the forks of the runs follow, by the number of runs before them. -/
  timetable : Timetable := .leftFirst

/-- Why a benchmark has no result. -/
inductive BenchError where
  /-- The arena could not be made. -/
  | setup (len : Nat) (cause : ArenaError)
  /-- The arena could not be sorted. -/
  | sort (cause : ArenaError)
  /-- A run left the values unsorted. -/
  | unsorted (run : Nat)
  /-- There was nothing to sum up. -/
  | noRuns
  /-- A computation left its limits. -/
  | fault (cause : Fault)
  deriving DecidableEq, Repr

/-- The causes in words, the outermost first. -/
def BenchError.chain : BenchError → List String
  | setup len cause =>
    [s!"setting up a sort of {len} elements", cause.message] ++ cause.source.toList
  | sort cause => [cause.message] ++ cause.source.toList
  | unsorted run => [s!"run {run} left the sequence unsorted"]
  | noRuns => ["no runs were measured"]
  | fault _ => ["a computation left its limits"]

section

variable {m : Type → Type} [Monad m]

/-- The events of the benchmarks. -/
def allocatedEvent (len : Nat) : Log.Event :=
  ⟨.debug, "merge_bench::host", "allocated sort arena", [("len", .number len)]⟩

/-- A finished run of a benchmark. -/
def finishedEvent (message : String) (run : Nat) (duration : Duration) : Log.Event :=
  ⟨.debug, "merge_bench::cli", message,
    [("run", .number run), ("seconds", .measured duration.toSeconds)]⟩

/-- The largest prime that the last run found. -/
def largestEvent (count : Nat) (largest : Option UInt32) : Log.Event :=
  let text := match largest with
    | some p => s!"Some({p.toNat})"
    | none => "None"
  ⟨.debug, "merge_bench::cli", "largest prime found",
    [("count", .number count), ("largest", .plain text)]⟩

/-- The result of a benchmark. -/
def doneEvent (name : String) (len : Nat) (summary : Summary) : Log.Event :=
  ⟨.info, "merge_bench::cli", "benchmark done",
    [("bench", .quoted name), ("len", .number len), ("runs", .number summary.samples),
      ("median", .measured summary.median.toSeconds), ("min", .measured summary.min.toSeconds),
      ("max", .measured summary.max.toSeconds), ("spread", .measured summary.spread)]⟩

/-- A computation that may fault, as a step of a benchmark. -/
def checked {β : Type} (result : Except Fault β) : ExceptT BenchError m β :=
  ExceptT.mk (pure (result.mapError .fault))

/-- The sorted arena, or what went wrong. -/
def sortArena (config : SortConfig) (schedule : Schedule) (arena : Arena) :
    Except BenchError Arena :=
  let engine := if config.parallel then Engine.forkJoin else Engine.sequential
  match arena.sort engine schedule with
  | .ok (.ok _, arena) => .ok arena
  | .ok (.error cause, _) => .error (.sort cause)
  | .error cause => .error (.fault cause)

/-- Sums up the durations of the runs. -/
def summarize (host : Host m) (name : String) (len : Nat) (durations : Array Duration) :
    ExceptT BenchError m Summary := do
  match (Summary.ofSamples durations.toList).1 with
  | none => throw .noRuns
  | some summary =>
    host.emit (doneEvent name len summary)
    pure summary

/-- The arena for run number `run`: before each run but the first it is refilled. -/
def refilled (run : Nat) (arena : Arena) : Except Fault Arena :=
  if run = 0 then .ok arena else arena.fillDescending

/-- The runs of the sort benchmark from number `run` on. -/
def sortRuns (host : Host m) (config : SortConfig) :
    (remaining run : Nat) → Arena → Array Duration → ExceptT BenchError m (Array Duration)
  | 0, _, _, durations => pure durations
  | remaining + 1, run, arena, durations => do
    let arena ← checked (refilled run arena)
    let (arena, duration) ← ExceptT.mk
      (host.tryMeasure fun _ => pure (sortArena config (host.timetable run) arena))
    host.emit (finishedEvent "sort finished" run duration)
    if config.verify && !arena.isSorted then throw (.unsorted run)
    sortRuns host config remaining (run + 1) arena (durations.push duration)

/-- Sorts the countdown of the given length as often as asked for. -/
def benchSort (host : Host m) (config : SortConfig) : ExceptT BenchError m Summary := do
  match ← checked (Arena.withLen config.len) with
  | .error cause => throw (.setup config.len cause)
  | .ok arena =>
    host.emit (allocatedEvent config.len)
    let durations ← sortRuns host config config.runs 0 arena #[]
    summarize host "sort" config.len durations

/-- The runs of the prime benchmark from number `run` on. -/
def primeRuns (host : Host m) (config : PrimeConfig) :
    (remaining run : Nat) → Option UInt32 → Array Duration →
      ExceptT BenchError m (Option UInt32 × Array Duration)
  | 0, _, largest, durations => pure (largest, durations)
  | remaining + 1, run, _, durations => do
    let (result, duration) ← host.measure fun _ => pure (Prime.firstPrimes config.count)
    let found ← checked result
    host.emit (finishedEvent "prime scan finished" run duration)
    primeRuns host config remaining (run + 1) found.back? (durations.push duration)

/-- Collects the first primes as often as asked for. -/
def benchPrimes (host : Host m) (config : PrimeConfig) : ExceptT BenchError m Summary := do
  let (largest, durations) ← primeRuns host config config.runs 0 none #[]
  host.emit (largestEvent config.count largest)
  summarize host "primes" config.count durations

/-- Runs a benchmark. -/
def Job.run (host : Host m) : Job → ExceptT BenchError m Summary
  | .sort config => benchSort host config
  | .primes config => benchPrimes host config

end

end MicroBench
