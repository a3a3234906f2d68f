import MicroBench.Timing.Fixed

/-! # Log events

  The program tells what it does by events. An event has a level, the part of the program that it
  comes from, a message and named values. `Event.line` writes an event on one line.
-/

namespace MicroBench.Log

/-- How much an event matters, from the most to the least important. -/
inductive Level where
  | error
  | warn
  | info
  | debug
  | trace
  deriving DecidableEq, Repr

namespace Level

/-- Levels in order: the larger the rank, the less an event matters. -/
def rank : Level → Nat
  | error => 1
  | warn => 2
  | info => 3
  | debug => 4
  | trace => 5

/-- The level's name in a log line. -/
def name : Level → String
  | error => "ERROR"
  | warn => "WARN"
  | info => "INFO"
  | debug => "DEBUG"
  | trace => "TRACE"

end Level

/-- A value that an event carries. -/
inductive Value where
  /-- A whole number. -/
  | number (n : Nat)
  /-- A text, which is written between quotation marks. -/
  | quoted (text : String)
  /-- A text that is written as it is. -/
  | plain (text : String)
  /-- A measured quantity, which differs from run to run. -/
  | measured (quantity : Float)

/-- The value as text. -/
def Value.text : Value → String
  | number n => toString n
  | quoted text => "\"" ++ text ++ "\""
  | plain text => text
  | measured quantity => fixedText 9 quantity

/-- Something that the program tells about its work. -/
structure Event where
  level : Level
  /-- The part of the program that the event comes from. -/
  target : String
  message : String
  /-- Named values, in the order in which they are written. -/
  fields : List (String × Value) := []

/-- The names under which an event carries values. The message is one of them. -/
def Event.fieldNames (event : Event) : List String := "message" :: event.fields.map (·.1)

/-- The event on one line, its values written by the given function. -/
def Event.lineWith (render : Value → String) (event : Event) : String :=
  let fields := event.fields.map fun (name, value) => " " ++ name ++ "=" ++ render value
  event.level.name ++ " " ++ event.target ++ ": " ++ event.message ++ String.join fields

/-- The event on one line. -/
def Event.line (event : Event) : String := event.lineWith Value.text

end MicroBench.Log
