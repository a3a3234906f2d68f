import MicroBench.Bench
import MicroBench.CommandLine.Parse
import MicroBench.Log.Filter

/-! # The program

  From arguments and environment to texts and an exit code. The program reads its command line,
  runs the benchmark that it names, and prints the median in seconds. Events go to the host's log as
  far as the filter lets them pass.
-/

namespace MicroBench

/-- How the program ends. -/
structure Ending where
  exitCode : Nat
  /-- What is printed as the result. -/
  output : String := ""
  /-- What is printed besides the log when something went wrong. -/
  complaint : String := ""
  deriving DecidableEq, Repr

/-- The causes of a failure on one line. -/
def BenchError.sentence (error : BenchError) : String := ": ".intercalate error.chain

/-- The inner causes below a failure: indented, and numbered if there are several. -/
def causeLines : List String → List String
  | [] => []
  | [cause] => ["    " ++ cause]
  | causes => causes.zipIdx.map fun (cause, i) => s!"    {i}: " ++ cause

/-- A failure over several lines: the outermost cause, then the ones below it. -/
def BenchError.report (error : BenchError) : String :=
  match error.chain with
  | [] => ""
  | [outer] => "Error: " ++ outer ++ "\n"
  | outer :: inner =>
    String.join ((["Error: " ++ outer, "", "Caused by:"] ++ causeLines inner).map (· ++ "\n"))

/-- How the program ends when its arguments name no job. -/
def CommandLine.Refusal.ending (environment : CommandLine.Environment)
    (refusal : CommandLine.Refusal) : Ending :=
  let text := refusal.text environment
  match refusal with
  | .help _ | .version => ⟨refusal.exitCode, text.written, ""⟩
  | .nothingAsked => ⟨refusal.exitCode, "", text.written⟩
  | _ =>
    let hint : Text.Styled := [.prose "\n\nFor more information, try '--help'.\n"]
    ⟨refusal.exitCode, "", (text ++ hint).written⟩

/-- A host that drops the events which the filter does not let pass. -/
def Host.filtered {m : Type → Type} [Monad m] (host : Host m) (filter : Log.Filter) : Host m where
  now := host.now
  emit := fun event => if filter.passes event then host.emit event else pure ()
  timetable := host.timetable

/-- Runs the program on a host that is ready to take its events. -/
def runOn {m : Type → Type} [Monad m] (host : Host m) (environment : CommandLine.Environment)
    (arguments : List String) : m Ending := do
  match CommandLine.parse environment arguments with
  | .error refusal => pure (refusal.ending environment)
  | .ok job =>
    match ← (job.run host).run with
    | .ok summary => pure ⟨0, summary.median.text ++ "\n", ""⟩
    | .error error =>
      host.emit ⟨.error, "merge_bench", error.sentence, []⟩
      pure ⟨1, "", error.report⟩

/-- Runs the program. The log is set up first; a log variable that cannot be cut into its parts is a
    fault. -/
def runProgram {m : Type → Type} [Monad m] (host : Host m) (environment : CommandLine.Environment)
    (arguments : List String) : m (Except Fault Ending) :=
  match Log.Filter.ofSetting (environment.lookup logVariable) with
  | .error cause => pure (.error cause)
  | .ok filter => do pure (.ok (← runOn (host.filtered filter) environment arguments))

end MicroBench
