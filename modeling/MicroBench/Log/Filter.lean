import MicroBench.Log.Directive

/-! # Log filters

  A filter is a list of directives, separated by commas. For an event, the directive that describes
  it most closely among those that apply decides; of several equally close ones the last one counts.
  An event that no directive applies to is dropped.
-/

namespace MicroBench.Log

/-- The rules that decide which events are written. -/
abbrev Filter := List Directive

namespace Filter

/-- Reads a filter; empty directives are left out. -/
def ofText (text : String) : Except DirectiveError Filter :=
  ((text.splitOn ",").filter fun piece => !piece.isEmpty).mapM Directive.ofText

/-- The filter that is used if none is set, or one that cannot be read. -/
def fallback : Filter := [{ target := some "merge_bench", threshold := Level.info.rank }]

/-- The filter that a setting of the log variable stands for. -/
def ofSetting (setting : Option String) : Except Fault Filter :=
  match setting.map ofText with
  | some (.ok filter) => .ok filter
  | some (.error (.fault cause)) => .error cause
  | some (.error .unreadable) | none => .ok fallback

/-- The directive that decides about an event: of those that apply, the last one among the
    closest. -/
def decisive? (filter : Filter) (event : Event) : Option Directive :=
  (filter.filter (·.appliesTo event)).foldl
    (fun best directive =>
      match best with
      | some other => if other.compareCloseness directive = .gt then best else some directive
      | none => some directive)
    none

/-- Tells whether an event is written. -/
def passes (filter : Filter) (event : Event) : Bool :=
  (filter.decisive? event).any fun directive => event.level.rank ≤ directive.threshold

end Filter

end MicroBench.Log
