import MicroBench.Log.Event
import MicroBench.Log.Pattern
import MicroBench.Text.Blank
import MicroBench.Text.Cut
import MicroBench.Text.Numeral

/-! # Log directives

  A directive is one rule of a log filter. It is

  - a level, which applies to every target,
  - a target, which lets everything of that target through,
  - a target or brackets or both, and a level behind an equals sign.

  Brackets hold the name of a span, and in braces a field that has to be there, perhaps with a
  pattern for its value. Spans are stretches of work around events. The program has none, so a
  directive that names a span or compares a value applies to no event.

  The marks of a directive are looked for in its text without the blanks at both ends, but its parts
  are cut out of the whole text at the positions found. Behind leading blanks the cuts are therefore
  off by the size of the blanks, and a cut inside a character is a fault.
-/

namespace MicroBench.Log

/-- The least important rank that passes; nothing passes a threshold of zero. -/
abbrev Threshold := Nat

/-- Lets everything through. -/
def passAll : Threshold := Level.trace.rank

/-- Reads a threshold: the name of a level or `off`, in any case, or a number from `0` to `5`. -/
def Threshold.ofText? (text : String) : Option Threshold :=
  match Text.readWord text with
  | .ok n => if n ≤ passAll then some n else none
  | .error _ =>
    match String.ofList (text.toList.map Char.toLower) with
    | "off" => some 0
    | "error" => some Level.error.rank
    | "warn" => some Level.warn.rank
    | "info" => some Level.info.rank
    | "debug" => some Level.debug.rank
    | "trace" => some Level.trace.rank
    | _ => none

/-- A field that a directive asks for. -/
structure FieldRule where
  name : String
  /-- What describes the field's value, if that matters. -/
  pattern : Option String
  deriving DecidableEq, Repr

/-- One rule of a filter. -/
structure Directive where
  /-- What the event's target has to begin with; nothing means every target. -/
  target : Option String := none
  /-- The span in which the event has to happen. -/
  span : Option String := none
  /-- The field that the event has to carry. -/
  field : Option FieldRule := none
  threshold : Threshold := passAll
  deriving DecidableEq, Repr

/-- Why a text is no directive. -/
inductive DirectiveError where
  /-- The text does not have the form of a directive. -/
  | unreadable
  /-- The text was cut inside a character. -/
  | fault (cause : Fault)
  deriving DecidableEq, Repr

/-- Tells whether a directive can begin with this character, unless it begins with a bracket. -/
def opensDirective (c : Char) : Bool :=
  c == '-' || c == ':' || c == '_' || Text.isAlphanumeric c

/-- Reads a field: a name, or a name and a pattern behind an equals sign. What follows a second
    equals sign does not count. -/
def FieldRule.ofText (text : String) : Except DirectiveError FieldRule :=
  match text.toList.span (· != '=') with
  | ([], []) => .error .unreadable
  | (name, []) => .ok ⟨String.ofList name, none⟩
  | (name, _ :: value) =>
    let pattern := String.ofList (value.takeWhile (· != '='))
    if Pattern.describesValues pattern then .ok ⟨String.ofList name, some pattern⟩
    else .error .unreadable

namespace Directive

/-- The part of a directive between two positions. -/
def part (whole : List Char) (start stop : Nat) : Except DirectiveError String :=
  (Text.cut whole start stop).mapError .fault

/-- Reads the level from a position to the end of the text; without text everything passes. -/
def level (whole : List Char) (start : Nat) : Except DirectiveError Threshold := do
  let text ← (Text.cutFrom whole start).mapError .fault
  if text.isEmpty then pure passAll
  else
    match Threshold.ofText? text with
    | some threshold => pure threshold
    | none => .error .unreadable

/-- Reads what follows a closing bracket at a position: nothing, or a level. -/
def behindBracket (whole : List Char) (directive : Directive) (start : Nat) :
    List Char → Except DirectiveError Directive
  | [] => .ok directive
  | '=' :: _ => do pure { directive with threshold := ← level whole (start + 1) }
  | _ => .error .unreadable

/-- Reads what follows an opening brace at a position: a field and both closing marks. -/
def behindBrace (whole : List Char) (directive : Directive) (start : Nat) (rest : List Char) :
    Except DirectiveError Directive :=
  match rest.span (· != '\x7d') with
  | (_, []) => .error .unreadable
  | (field, _ :: rest) => do
    let stop := start + Text.byteSize field
    let field ← FieldRule.ofText (← part whole start stop)
    match rest with
    | ']' :: rest => behindBracket whole { directive with field := some field } (stop + 2) rest
    | _ => .error .unreadable

/-- Reads what follows an opening bracket at a position: the name of a span, and perhaps a field.
    An empty name in front of a field means any span or none. -/
def bracketed (whole : List Char) (directive : Directive) (start : Nat) (rest : List Char) :
    Except DirectiveError Directive :=
  match rest.span fun c => c != ']' && c != '\x7b' with
  | (_, []) => .error .unreadable
  | (name, mark :: rest) => do
    let stop := start + Text.byteSize name
    let name ← part whole start stop
    if mark = ']' then behindBracket whole { directive with span := some name } (stop + 1) rest
    else
      let span := if name.isEmpty then none else some name
      behindBrace whole { directive with span := span } (stop + 1) rest

/-- A directive without marks: a level or a target. -/
def bare (text : String) : Directive :=
  match Threshold.ofText? text with
  | some threshold => { threshold := threshold }
  | none => { target := some text }

/-- Reads a directive. -/
def ofText (text : String) : Except DirectiveError Directive :=
  let whole := text.toList
  match Text.trimBlanks whole with
  | [] => .error .unreadable
  | '[' :: rest => bracketed whole {} 1 rest
  | first :: rest =>
    if opensDirective first then
      match (first :: rest).span fun c => c != '=' && c != '[' with
      | (_, []) => .ok (bare text)
      | (front, mark :: rest) => do
        let stop := Text.byteSize front
        let target ← part whole 0 stop
        if mark = '=' then pure { target := some target, threshold := ← level whole (stop + 1) }
        else bracketed whole { target := some target } (stop + 1) rest
    else .error .unreadable

/-- Tells whether a directive applies to an event. -/
def appliesTo (directive : Directive) (event : Event) : Bool :=
  directive.span.isNone &&
    directive.target.all (fun front => front.toList.isPrefixOf event.target.toList) &&
    directive.field.all fun field => field.pattern.isNone && event.fieldNames.contains field.name

/-- How closely two directives describe an event that both apply to. A longer target is closer, and
    so is a field; of two fields the one whose name comes later in the alphabet counts as closer. -/
def compareCloseness (a b : Directive) : Ordering :=
  (compare (a.target.map String.length) (b.target.map String.length)).then
    (compare (a.field.map FieldRule.name) (b.field.map FieldRule.name))

end Directive

end MicroBench.Log
