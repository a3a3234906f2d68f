import MicroBench.CommandLine.Setting
import MicroBench.Text.Styled

/-! # Help texts

  Each command has a help text, and so have the program and the command `help` itself. A help text
  is made of a sentence, a usage line and tables; a table puts its second column two blanks behind
  the longest entry of its first.

  Help shows values from the environment. They are shown without control sequences, and if they have
  several lines, these stay in the second column. The names in the first column are styled: a control
  string in a value goes on until the next name.
-/

namespace MicroBench.CommandLine

/-- The name under which the program runs. -/
def programName : String := "merge_bench"

/-- The program's name and version, on a line of their own. -/
def versionText : String := programName ++ " 0.1.0\n"

/-- The values of environment variables that are set. -/
abbrev Environment := List (String × String)

/-- What a help text is about. -/
inductive Topic where
  /-- The program as a whole. -/
  | program
  /-- One of the benchmarks. -/
  | benchmark (command : Command)
  /-- The command that prints help. -/
  | help
  deriving DecidableEq, Repr

/-- What a command does, in one sentence. -/
def Command.summary : Command → String
  | .sort => "Sort a descending sequence and print the elapsed seconds"
  | .primes => "Collect the first N primes and print the elapsed seconds"

/-- What the help command does, in one sentence. -/
def helpSummary : String := "Print this message or the help of the given subcommand(s)"

/-- What a topic does, in one sentence. -/
def Topic.summary : Topic → String
  | .program => "Merge sort and prime scan micro-benchmarks"
  | .benchmark command => command.summary
  | .help => helpSummary

/-- How a topic is called. -/
def Topic.usage : Topic → String
  | .program => programName ++ " <COMMAND>"
  | .benchmark command => programName ++ " " ++ command.name ++ " [OPTIONS]"
  | .help => programName ++ " help [COMMAND]..."

/-- What a number means to a command. -/
def Quantity.meaning : Command → Quantity → String
  | _, .len => "Number of elements, the input is len, len - 1, ..., 1"
  | .sort, .runs => "How often to refill and sort, the median is reported"
  | .primes, .runs => "How often to repeat the scan, the median is reported"
  | _, .count => "Number of primes to collect, at most the number of primes below 2^32"

/-- What a flag does. -/
def Flag.meaning : Flag → String
  | .parallel => "Sort the two halves of large ranges concurrently"
  | .verify => "Check the result is sorted after every run"

/-- A line of a table. -/
structure Row where
  /-- The blanks in front of the name. -/
  indent : String
  name : String
  meaning : String
  deriving DecidableEq, Repr

/-- How far the first column of a row reaches. -/
def Row.width (row : Row) : Nat := row.indent.length + row.name.length

/-- A number of blanks. -/
def blanks (n : Nat) : String := String.ofList (List.replicate n ' ')

/-- A table whose second column starts two blanks behind the longest entry of its first. Further
    lines of a meaning start in the second column, too. -/
def table (rows : List Row) : Text.Styled :=
  let column := (rows.map Row.width).foldl max 0 + 2
  rows.flatMap fun row =>
    let meaning := ("\n" ++ blanks column).intercalate (row.meaning.splitOn "\n")
    [.prose row.indent, .styled row.name,
      .prose (blanks (column - row.width) ++ meaning ++ "\n")]

/-- The row of a number, with the current value of its variable and its default. -/
def quantityRow (environment : Environment) (command : Command) (quantity : Quantity) : Row :=
  let current := (environment.lookup quantity.envName).getD ""
  ⟨"      ", quantity.usage,
    quantity.meaning command ++ " [env: " ++ quantity.envName ++ "=" ++ current ++ "] [default: " ++
      toString quantity.default ++ "]"⟩

/-- The row of a flag. -/
def flagRow (flag : Flag) : Row := ⟨"      ", flag.usage, flag.meaning⟩

/-- The row of the option that asks for help. -/
def helpRow : Row := ⟨"  ", "-h, --help", "Print help"⟩

/-- The tables below the usage line. -/
def Topic.tables (environment : Environment) : Topic → Text.Styled
  | .program =>
    [.styled "Commands:", .prose "\n"] ++
      table [⟨"  ", "sort", Command.sort.summary⟩, ⟨"  ", "primes", Command.primes.summary⟩,
        ⟨"  ", "help", helpSummary⟩] ++
      [.prose "\n", .styled "Options:", .prose "\n"] ++
      table [helpRow, ⟨"  ", "-V, --version", "Print version"⟩]
  | .benchmark command =>
    [.styled "Options:", .prose "\n"] ++
      table (command.quantities.map (quantityRow environment command) ++
        command.flags.map flagRow ++ [helpRow])
  | .help =>
    [.styled "Arguments:", .prose "\n"] ++
      table [⟨"  ", "[COMMAND]...", "Print help for the subcommand(s)"⟩]

/-- The help text of a topic. -/
def Topic.text (environment : Environment) (topic : Topic) : Text.Styled :=
  [.prose (topic.summary ++ "\n\n"), .styled "Usage:", .prose (" " ++ topic.usage ++ "\n\n")] ++
    topic.tables environment

end MicroBench.CommandLine
