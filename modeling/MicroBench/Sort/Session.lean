import MicroBench.Item
import MicroBench.Sort.ForkJoin

/-! # Sessions

  A session runs a list of steps on one sequence and one pair of scratch buffers, which stay in use
  from step to step. Steps sort or merge with either engine, overwrite one item, or bring in a new
  sequence.

  - `Action` lists what a step can do, `Step` adds the engine and the oracle to use.
  - `Timetable` gives every step the schedule that its forks happen to follow.
  - `runStep` runs one step and gives its report; `runSteps` runs a whole session.
-/

namespace MicroBench

/-- The two ways to run a sort. -/
inductive Engine where
  | sequential
  | forkJoin
  deriving DecidableEq, Repr

/-- The oracle that compares items by the given criterion. -/
def Criterion.oracle {α : Type} [Item α] : Criterion → Oracle α
  | .natural => .ofOrder Item.order
  | .reverse => .ofOrder fun a b => Item.order b a
  | .key => .ofOrder fun a b => compare (Item.key a) (Item.key b)
  | .keyReverse => .ofOrder fun a b => compare (Item.key b) (Item.key a)
  | .magnitude => .ofOrder fun a b => compare (Item.key a).natAbs (Item.key b).natAbs
  | .constant answer => .constant answer
  | .residue modulus =>
    .ofOrder fun a b => compare (Item.key a % (modulus : Int)) (Item.key b % (modulus : Int))
  | .script answers => .script answers

/-- What a step of a session does. -/
inductive Action (α : Type) where
  /-- Sorts the whole sequence with scratch of its own. -/
  | sort
  /-- Sorts the range `[low, high]` with the session's scratch. -/
  | sortRange (low high : Nat)
  /-- Merges the runs `[low, mid]` and `[mid + 1, high]` with the session's scratch. There is one way
      to merge, whatever the engine. -/
  | merge (low mid high : Nat)
  /-- Overwrites one item. -/
  | put (index : Nat) (value : α)
  /-- Replaces the whole sequence. -/
  | load (values : Array α)

/-- One step of a session. A step without an oracle uses the natural order of the items. -/
structure Step (α : Type) where
  action : Action α
  engine : Engine := .sequential
  oracle : Option (Oracle α) := none

/-- The schedules of the steps of a session, by the number of steps before them. Nothing ties one
    step's schedule to another's. -/
abbrev Timetable := Nat → Schedule

/-- The timetable under which all forks run the left half first. -/
def Timetable.leftFirst : Timetable := fun _ => .leftFirst

/-- The timetable of the steps behind the first one. -/
def Timetable.later (timetable : Timetable) : Timetable := fun done => timetable (done + 1)

/-- What a step leaves to be seen. -/
structure Report (α : Type) where
  verdict : Except SortError Unit
  /-- The sequence after the step. -/
  values : Array α
  /-- The comparator calls in order, if the step brought an oracle; an action that compares nothing
      makes none. -/
  calls : Option (CallLog α)

/-- Why a session cannot go on. -/
inductive SessionError where
  /-- A step overwrites an item that the sequence does not have. -/
  | noSuchItem (index len : Nat)
  /-- A step ended in a fault. -/
  | fault (cause : Fault)
  deriving DecidableEq, Repr

section

variable {α : Type} [Item α]

/-- The comparator for the natural order, which needs no memory. -/
def naturalComparator : Comparator Unit α := .ofOrder Item.order

/-- Sorts a whole sequence with the given engine. -/
@[inline] def Engine.sortBy {σ : Type} (engine : Engine) (compare : Comparator σ α)
    (schedule : Schedule) (values : Array α) (memory : σ) : Except Fault (Array α × σ) :=
  match engine with
  | .sequential => Sequential.sortBy compare values memory
  | .forkJoin => ForkJoin.sortBy compare schedule values memory

/-- Sorts a range with the given engine. -/
@[inline] def Engine.sortRangeBy {σ : Type} (engine : Engine) (compare : Comparator σ α)
    (schedule : Schedule) (low high : Nat) (workspace : Workspace α) (memory : σ) :
    Except Fault (Outcome σ α) :=
  match engine with
  | .sequential => Sequential.sortRangeBy compare low high workspace memory
  | .forkJoin => ForkJoin.sortRangeBy compare schedule low high workspace memory

/-- Runs a task with the comparator of an optional oracle, or with the natural order, and gives
    the task's outcome together with the calls of the oracle. -/
def withOracle (oracle : Option (Oracle α))
    (task : {σ : Type} → Comparator σ α → σ → Except Fault (Outcome σ α)) :
    Except Fault (Workspace α × Report α) :=
  match oracle with
  | some oracle => do
    let outcome ← task oracle.comparator #[]
    pure (outcome.workspace, ⟨outcome.verdict, outcome.workspace.values, some outcome.memory⟩)
  | none => do
    let outcome ← task naturalComparator ()
    pure (outcome.workspace, ⟨outcome.verdict, outcome.workspace.values, none⟩)

/-- The end of a step that brings in values without comparing any. -/
def Step.replace (step : Step α) (scratch : Scratch α) (values : Array α) :
    Workspace α × Report α :=
  (⟨values, scratch⟩, ⟨.ok (), values, step.oracle.map fun _ => #[]⟩)

/-- Runs one step: the workspace after it and the step's report. -/
def runStep (schedule : Schedule) (workspace : Workspace α) (step : Step α) :
    Except SessionError (Workspace α × Report α) :=
  match step.action with
  | .sort =>
    let ⟨values, scratch⟩ := workspace
    (withOracle step.oracle fun compare memory => do
      let (values, memory) ← step.engine.sortBy compare schedule values memory
      pure ⟨.ok (), ⟨values, scratch⟩, memory⟩).mapError .fault
  | .sortRange low high =>
    (withOracle step.oracle fun compare memory =>
      step.engine.sortRangeBy compare schedule low high workspace memory).mapError .fault
  | .merge low mid high =>
    (withOracle step.oracle fun compare memory =>
      mergeBy compare low mid high workspace memory).mapError .fault
  | .put index value =>
    let ⟨values, scratch⟩ := workspace
    if h : index < values.size then .ok (step.replace scratch (values.set index value h))
    else .error (.noSuchItem index values.size)
  | .load values => .ok (step.replace workspace.scratch values)

/-- Runs the steps in order and gives the report of each. -/
def runSteps (timetable : Timetable) (workspace : Workspace α) :
    List (Step α) → Except SessionError (List (Report α))
  | [] => .ok []
  | step :: rest => do
    let (workspace, report) ← runStep (timetable 0) workspace step
    let reports ← runSteps timetable.later workspace rest
    pure (report :: reports)

end

/-- How many items a step can have in work at once, as far as its arguments tell. -/
def Action.span {α : Type} (len : Nat) : Action α → Nat
  | .sort => len
  | .sortRange low high => high - low + 1
  | _ => 0

/-- Tells whether a step on `len` items may compare items of two halves at the same time, so that
    its calls have no order. -/
def Step.concurrent {α : Type} (len : Nat) (step : Step α) : Bool :=
  step.engine = .forkJoin && minForkLen ≤ step.action.span len

end MicroBench
