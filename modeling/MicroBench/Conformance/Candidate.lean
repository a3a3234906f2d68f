import MicroBench.Sort.ForkJoin

/-! # Sorts under test

  The conformance suites are run against a candidate: a pair of sorts, one by natural order and one
  by a comparator. Beside the two engines there is a plain stable sort, and there are candidates
  with a known defect, on which some suites have to fail.
-/

namespace MicroBench.Conformance

/-- A sort under test. -/
structure Candidate where
  /-- Sorts by natural order. -/
  sort : {α : Type} → (α → α → Ordering) → Array α → Except Fault (Array α)
  /-- Sorts by a comparator. -/
  sortBy : {σ α : Type} → Comparator σ α → Array α → σ → Except Fault (Array α × σ)

/-- The candidate whose two sorts are the same. -/
def Candidate.ofSortBy
    (sortBy : {σ α : Type} → Comparator σ α → Array α → σ → Except Fault (Array α × σ)) :
    Candidate where
  sort := fun order items => do
    let (sorted, ()) ← sortBy (.ofOrder order) items ()
    pure sorted
  sortBy := sortBy

/-! ## A plain stable sort -/

section

variable {σ α : Type}

/-- Merges two lists behind the items already merged, which are held in reverse. Ties go left. -/
def mergeOnto (compare : Comparator σ α) :
    (done left right : List α) → σ → List α × σ
  | done, [], right, memory => (done.reverse ++ right, memory)
  | done, left, [], memory => (done.reverse ++ left, memory)
  | done, a :: left, b :: right, memory =>
    match compare b a memory with
    | (.lt, memory) => mergeOnto compare (b :: done) (a :: left) right memory
    | (_, memory) => mergeOnto compare (a :: done) left (b :: right) memory
termination_by _ left right => left.length + right.length

/-- Merges each pair of neighbouring lists. -/
def mergePairs (compare : Comparator σ α) : List (List α) → σ → List (List α) × σ
  | first :: second :: rest, memory =>
    let (merged, memory) := mergeOnto compare [] first second memory
    let (others, memory) := mergePairs compare rest memory
    (merged :: others, memory)
  | rest, memory => (rest, memory)

theorem length_mergePairs_le (compare : Comparator σ α) (runs : List (List α)) (memory : σ) :
    2 * (mergePairs compare runs memory).1.length ≤ runs.length + 1 := by
  fun_induction mergePairs compare runs memory with
  | case1 first second rest memory merged memory₁ h₁ others memory₂ h₂ ih =>
    simp only [h₂, List.length_cons] at ih ⊢
    omega
  | case2 runs memory h =>
    match runs, h with
    | [], _ => simp
    | [_], _ => simp
    | a :: b :: rest, h => exact absurd rfl (h a b rest)

/-- Merges neighbouring lists until one is left. -/
def mergeAll (compare : Comparator σ α) (runs : List (List α)) (memory : σ) : List α × σ :=
  if runs.length < 2 then (runs.flatten, memory)
  else
    mergeAll compare (mergePairs compare runs memory).1 (mergePairs compare runs memory).2
termination_by runs.length
decreasing_by
  have := length_mergePairs_le compare runs memory
  omega

/-- Sorts bottom-up; equal items keep their order. -/
def stableSortBy (compare : Comparator σ α) (items : Array α) (memory : σ) : Array α × σ :=
  let (sorted, memory) := mergeAll compare (items.toList.map fun item => [item]) memory
  (sorted.toArray, memory)

end

/-- The sequential engine. -/
def Candidate.sequential : Candidate := .ofSortBy Sequential.sortBy

/-- The fork-join engine. -/
def Candidate.forkJoin : Candidate :=
  .ofSortBy fun compare items memory => ForkJoin.sortBy compare .leftFirst items memory

/-- The plain stable sort. -/
def Candidate.plain : Candidate :=
  .ofSortBy fun compare items memory => .ok (stableSortBy compare items memory)

/-! ## Candidates with a defect -/

section

variable {σ α : Type}

/-- Does nothing. -/
def Candidate.noop : Candidate := .ofSortBy fun _ items memory => .ok (items, memory)

/-- Sorts with the comparator's arguments swapped. -/
def Candidate.backwards : Candidate :=
  .ofSortBy fun compare items memory =>
    .ok (stableSortBy (fun a b memory => compare b a memory) items memory)

/-- Reverses every run of equal neighbours. `run` holds the current run in reverse, and `done` what
    comes before it, in reverse as well. -/
def reverseTies (compare : Comparator σ α) :
    (done run rest : List α) → σ → List α × σ
  | done, run, [], memory => (done.reverse ++ run, memory)
  | done, run, item :: rest, memory =>
    match run with
    | [] => reverseTies compare done [item] rest memory
    | last :: _ =>
      match compare last item memory with
      | (.eq, memory) => reverseTies compare done (item :: run) rest memory
      | (_, memory) => reverseTies compare (run.reverse ++ done) [item] rest memory

/-- Sorts, then reverses every run of equal items. -/
def Candidate.unstable : Candidate :=
  .ofSortBy fun compare items memory =>
    let (sorted, memory) := stableSortBy compare items memory
    let (reversed, memory) := reverseTies compare [] [] sorted.toList memory
    .ok (reversed.toArray, memory)

/-- Splits the first smallest item off a list: `best` is the smallest item so far, `before` the
    items before it and `between` those after it, both in reverse. -/
def extractLeast (compare : Comparator σ α) (before : List α) (best : α) (between : List α) :
    List α → σ → (α × List α) × σ
  | [], memory => ((best, before.reverse ++ between.reverse), memory)
  | item :: rest, memory =>
    match compare item best memory with
    | (.lt, memory) => extractLeast compare (between ++ best :: before) item [] rest memory
    | (_, memory) => extractLeast compare before best (item :: between) rest memory

/-- Moves the smallest item to the front, `count` times. -/
def selectionLoop (compare : Comparator σ α) :
    (count : Nat) → (done : Array α) → List α → σ → Array α × σ
  | 0, done, _, memory => (done, memory)
  | _, done, [], memory => (done, memory)
  | count + 1, done, first :: rest, memory =>
    let ((least, others), memory) := extractLeast compare [] first [] rest memory
    selectionLoop compare count (done.push least) others memory

/-- Selects the smallest remaining item again and again. Stable, but slow. -/
def Candidate.selection : Candidate :=
  .ofSortBy fun compare items memory =>
    .ok (selectionLoop compare items.size #[] items.toList memory)

/-- Sorts, then overwrites the first item by the second. -/
def Candidate.loses : Candidate :=
  .ofSortBy fun compare items memory =>
    let (sorted, memory) := stableSortBy compare items memory
    match sorted[1]? with
    | some second => .ok (sorted.setIfInBounds 0 second, memory)
    | none => .ok (sorted, memory)

/-- Sorts up to a hundred items and leaves longer sequences alone. -/
def Candidate.largeNoop : Candidate :=
  .ofSortBy fun compare items memory =>
    if items.size ≤ 100 then .ok (stableSortBy compare items memory) else .ok (items, memory)

/-- Sorts by natural order, but does nothing when given a comparator. -/
def Candidate.byNoop : Candidate where
  sort := Candidate.plain.sort
  sortBy := fun _ items memory => .ok (items, memory)

end

/-! ## All candidates -/

/-- The candidates by name. -/
inductive Sample where
  | sequential
  | forkJoin
  | plain
  | noop
  | backwards
  | unstable
  | selection
  | loses
  | largeNoop
  | byNoop
  deriving DecidableEq, Repr

/-- The candidate with a given name. -/
def Sample.candidate : Sample → Candidate
  | .sequential => .sequential
  | .forkJoin => .forkJoin
  | .plain => .plain
  | .noop => .noop
  | .backwards => .backwards
  | .unstable => .unstable
  | .selection => .selection
  | .loses => .loses
  | .largeNoop => .largeNoop
  | .byNoop => .byNoop

end MicroBench.Conformance
