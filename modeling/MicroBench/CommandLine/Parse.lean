import MicroBench.CommandLine.Help

/-! # Reading the command line

  The arguments are read from left to right. The first word selects the command; what follows are
  its options. A number's value follows as the next argument or, after an equals sign, in the same
  argument. An option that is missing takes the value of its environment variable, and its default
  if that is not set either.

  A value in an argument of its own waits until the next option, or the end, shows that it is
  complete, and is checked only then. An argument that the command does not know is refused at
  once, before a waiting value is looked at.

  - `Refusal` lists the ways in which reading can end without a job.
  - `Draft.feed` reads one argument of a command, `Draft.finish` ends the command.
  - `parse` reads a whole command line.
-/

namespace MicroBench.CommandLine

/-- Why no job came out of the arguments. -/
inductive Refusal where
  /-- A value does not fit its setting. -/
  | invalidValue (quantity : Quantity) (value : String) (cause : ValueError)
  /-- An option lacks its value. -/
  | missingValue (quantity : Quantity)
  /-- An argument is not known here. -/
  | unknownArgument (argument : String)
  /-- An option is given twice. -/
  | repeated (usage : String)
  /-- An option got a value but takes none. -/
  | unneededValue (usage value : String)
  /-- There is no such command. -/
  | unknownCommand (name : String)
  /-- Help was asked for. -/
  | help (topic : Topic)
  /-- The version was asked for. -/
  | version
  /-- There are no arguments at all. -/
  | nothingAsked
  deriving DecidableEq, Repr

/-- The text of a refusal: the help or version that was asked for, or a sentence. What the sentence
    quotes from the arguments or the environment is styled. -/
def Refusal.text (environment : Environment) : Refusal → Text.Styled
  | .invalidValue quantity value cause =>
    [.prose "error: invalid value '", .styled value,
      .prose ("' for '" ++ quantity.usage ++ "': " ++ cause.message)]
  | .missingValue quantity =>
    [.prose ("error: a value is required for '" ++ quantity.usage ++ "' but none was supplied")]
  | .unknownArgument argument =>
    [.prose "error: unexpected argument '", .styled argument, .prose "' found"]
  | .repeated usage =>
    [.prose ("error: the argument '" ++ usage ++ "' cannot be used multiple times")]
  | .unneededValue usage value =>
    [.prose "error: unexpected value '", .styled value,
      .prose ("' for '" ++ usage ++ "' found; no more were expected")]
  | .unknownCommand name => [.prose "error: unrecognized subcommand '", .styled name, .prose "'"]
  | .help topic => topic.text environment
  | .version => [.prose versionText]
  | .nothingAsked => Topic.program.text environment

/-- The message of a refusal. -/
def Refusal.message (environment : Environment) (refusal : Refusal) : String :=
  (refusal.text environment).shown

/-- The exit code that goes with a refusal: asking for help or the version is no error. -/
def Refusal.exitCode : Refusal → Nat
  | .help _ | .version => 0
  | _ => 2

/-! ## Arguments -/

/-- The forms that an argument can have. -/
inductive Token where
  /-- Two dashes: no options follow. -/
  | escape
  /-- A name behind two dashes, with the text behind an equals sign if there is one. -/
  | long (name : String) (value : Option String)
  /-- Letters behind one dash. -/
  | short (first : Char) (rest : List Char)
  /-- Anything else. -/
  | plain
  deriving DecidableEq, Repr

/-- Splits a text at its first equals sign. -/
def splitAtEquals (chars : List Char) : String × Option String :=
  match chars.span (· != '=') with
  | (name, []) => (String.ofList name, none)
  | (name, _ :: value) => (String.ofList name, some (String.ofList value))

/-- The form of an argument. -/
def Token.ofArgument (argument : String) : Token :=
  match argument.toList with
  | ['-', '-'] => .escape
  | '-' :: '-' :: rest =>
    let (name, value) := splitAtEquals rest
    .long name value
  | '-' :: first :: rest => .short first rest
  | _ => .plain

/-! ## The options of a command -/

/-- What is known of a command's settings before the end of its arguments. -/
structure Draft where
  /-- The numbers given so far. -/
  numbers : List (Quantity × Nat) := []
  /-- The flags given so far. -/
  flags : List Flag := []
  /-- A number whose value is still to come or is not yet checked. -/
  waiting : Option (Quantity × Option String) := none
  /-- Whether the options have been ended. -/
  ended : Bool := false
  deriving DecidableEq, Repr

namespace Draft

/-- Records the value of a number. A number that is already there is refused before its value is
    looked at. -/
def record (draft : Draft) (quantity : Quantity) (value : String) : Except Refusal Draft :=
  if (draft.numbers.lookup quantity).isSome then .error (.repeated quantity.usage)
  else
    match quantity.read value with
    | .ok number => .ok { draft with numbers := (quantity, number) :: draft.numbers }
    | .error cause => .error (.invalidValue quantity value cause)

/-- Checks the waiting value, if there is one. -/
def settle (draft : Draft) : Except Refusal Draft :=
  match draft.waiting with
  | none => .ok draft
  | some (quantity, none) => .error (.missingValue quantity)
  | some (quantity, some value) => { draft with waiting := none }.record quantity value

/-- Records a flag. -/
def raise (draft : Draft) (flag : Flag) : Except Refusal Draft :=
  if draft.flags.contains flag then .error (.repeated flag.usage)
  else .ok { draft with flags := flag :: draft.flags }

/-- Reads an option with a long name. -/
def feedLong (command : Command) (draft : Draft) (name : String) (value : Option String) :
    Except Refusal Draft :=
  match command.quantities.find? (·.name == name), command.flags.find? (·.name == name) with
  | some quantity, _ => do
    let draft ← draft.settle
    match value with
    | some value => draft.record quantity value
    | none => pure { draft with waiting := some (quantity, none) }
  | none, some flag =>
    match value with
    | some value => .error (.unneededValue flag.usage value)
    | none => do (← draft.settle).raise flag
  | none, none =>
    if name == "help" then
      match value with
      | some value => .error (.unneededValue "--help" value)
      | none => do
        let _ ← draft.settle
        .error (.help (.benchmark command))
    else .error (.unknownArgument ("--" ++ name))

/-- Reads one argument. -/
def feed (command : Command) (draft : Draft) (argument : String) : Except Refusal Draft :=
  if draft.ended then .error (.unknownArgument argument)
  else
    match Token.ofArgument argument with
    | .escape => .ok { draft with ended := true }
    | .long name value => draft.feedLong command name value
    | .short first _ =>
      if first = 'h' then do
        let _ ← draft.settle
        .error (.help (.benchmark command))
      else .error (.unknownArgument (String.ofList ['-', first]))
    | .plain =>
      match draft.waiting with
      | some (quantity, none) => .ok { draft with waiting := some (quantity, some argument) }
      | _ => .error (.unknownArgument argument)

/-- Takes the value of a missing number from the environment, if it is set there. -/
def consult (environment : Environment) (draft : Draft) (quantity : Quantity) :
    Except Refusal Draft :=
  if (draft.numbers.lookup quantity).isSome then .ok draft
  else
    match environment.lookup quantity.envName with
    | some value => draft.record quantity value
    | none => .ok draft

/-- The value of a number, or its default. -/
def number (draft : Draft) (quantity : Quantity) : Nat :=
  (draft.numbers.lookup quantity).getD quantity.default

/-- The job with the settings of a complete draft. -/
def job (draft : Draft) : Command → Job
  | .sort => .sort ⟨draft.number .len, draft.number .runs, draft.flags.contains .parallel,
      draft.flags.contains .verify⟩
  | .primes => .primes ⟨draft.number .count, draft.number .runs⟩

/-- Ends a command: the waiting value is checked, then the environment is consulted. -/
def finish (environment : Environment) (command : Command) (draft : Draft) : Except Refusal Job := do
  let draft ← draft.settle
  let draft ← command.quantities.foldlM (consult environment) draft
  pure (draft.job command)

end Draft

/-- Reads the arguments of a command. -/
def parseCommand (environment : Environment) (command : Command) (arguments : List String) :
    Except Refusal Job := do
  let draft ← arguments.foldlM (Draft.feed command) {}
  draft.finish environment command

/-! ## The whole command line -/

/-- The command with a given name. -/
def Command.ofName? (name : String) : Option Command :=
  [Command.sort, Command.primes].find? (·.name == name)

/-- Reads the arguments of the command that prints help: the name of a command, and no more. -/
def parseHelp (arguments : List String) : Refusal :=
  match arguments with
  | [] => .help .program
  | name :: rest =>
    match Command.ofName? name, rest with
    | some command, [] => .help (.benchmark command)
    | none, [] => if name = "help" then .help .help else .unknownCommand name
    | some _, other :: _ => .unknownCommand other
    | none, other :: _ => .unknownCommand (if name = "help" then other else name)

/-- Reads the arguments after the end of the options: commands are not taken there. -/
def parseEnded : List String → Refusal
  | [] => .nothingAsked
  | argument :: _ =>
    if argument = "help" ∨ (Command.ofName? argument).isSome then .unknownArgument argument
    else .unknownCommand argument

/-- Reads a command line. -/
def parse (environment : Environment) (arguments : List String) : Except Refusal Job :=
  match arguments with
  | [] => .error .nothingAsked
  | argument :: rest =>
    match Command.ofName? argument with
    | some command => parseCommand environment command rest
    | none =>
      if argument = "help" then .error (parseHelp rest)
      else
        match Token.ofArgument argument with
        | .escape => .error (parseEnded rest)
        | .plain => .error (.unknownCommand argument)
        | .short first _ =>
          if first = 'h' then .error (.help .program)
          else if first = 'V' then .error .version
          else .error (.unknownArgument (String.ofList ['-', first]))
        | .long name none =>
          if name = "help" then .error (.help .program)
          else if name = "version" then .error .version
          else .error (.unknownArgument ("--" ++ name))
        | .long name (some value) =>
          if name = "help" ∨ name = "version" then .error (.unneededValue ("--" ++ name) value)
          else .error (.unknownArgument ("--" ++ name))

end MicroBench.CommandLine
