import MicroBench.Sort.ForkJoin

/-! # The sort on lists

  What the sort computes, told without arrays, places and scratch. A list is cut in two, both
  halves are sorted, and the sorted halves are merged. The comparator's memory is threaded through
  all calls, and a schedule tells which half comes first at every cut.

  - `listMerge` merges two lists, `listSort` sorts one.
  - `Schedule.forked` is a schedule as the fork-join sort follows it: the halves of a short range
    are always sorted from left to right.
  - `listMerge_perm` and `listSort_perm` hold for every comparator and every schedule.
-/

namespace MicroBench

variable {σ α : Type}

/-! ## Merging -/

/-- Merges two lists by taking the front item of one of them at a time. The comparator is asked
    about the right front and the left front; the right one is taken only if it is less. -/
def listMerge (compare : Comparator σ α) : List α → List α → σ → List α × σ
  | [], ys, memory => (ys, memory)
  | x :: xs, [], memory => (x :: xs, memory)
  | x :: xs, y :: ys, memory =>
    if (compare y x memory).1 = .lt then
      let rest := listMerge compare (x :: xs) ys (compare y x memory).2
      (y :: rest.1, rest.2)
    else
      let rest := listMerge compare xs (y :: ys) (compare y x memory).2
      (x :: rest.1, rest.2)
termination_by xs ys => xs.length + ys.length

/-- A merge loses and invents nothing, whatever the comparator answers. -/
theorem listMerge_perm (compare : Comparator σ α) (xs ys : List α) (memory : σ) :
    (listMerge compare xs ys memory).1.Perm (xs ++ ys) := by
  fun_induction listMerge compare xs ys memory with
  | case1 ys memory => simp
  | case2 x xs memory => simp
  | case3 x xs y ys memory hless rest ih =>
    have hfront : (y :: rest.1).Perm (y :: (x :: xs ++ ys)) := ih.cons y
    exact hfront.trans List.perm_middle.symm
  | case4 x xs y ys memory hless rest ih => exact ih.cons x

theorem listMerge_length (compare : Comparator σ α) (xs ys : List α) (memory : σ) :
    (listMerge compare xs ys memory).1.length = xs.length + ys.length := by
  rw [(listMerge_perm compare xs ys memory).length_eq, List.length_append]

/-! ## Sorting -/

/-- Runs two tasks one after the other, the named one first, and gives both results. -/
def inTurn {β γ : Type} (first : Side) (left : σ → β × σ) (right : σ → γ × σ) (memory : σ) :
    β × γ × σ :=
  match first with
  | .left =>
    let b := left memory
    let c := right b.2
    (b.1, c.1, c.2)
  | .right =>
    let c := right memory
    let b := left c.2
    (b.1, c.1, b.2)

/-- Sorts a list: both halves in the order of the schedule, then one merge. -/
def listSort (compare : Comparator σ α) (schedule : Schedule) (xs : List α) (memory : σ) :
    List α × σ :=
  if xs.length < 2 then (xs, memory)
  else
    let halves := inTurn (schedule [])
      (fun memory => listSort compare (schedule.inside .left)
        (xs.take (xs.length - xs.length / 2)) memory)
      (fun memory => listSort compare (schedule.inside .right)
        (xs.drop (xs.length - xs.length / 2)) memory) memory
    listMerge compare halves.1 halves.2.1 halves.2.2
termination_by xs.length
decreasing_by
  all_goals
    simp only [List.length_take, List.length_drop]
    omega

theorem listSort_of_short (compare : Comparator σ α) (schedule : Schedule) {xs : List α}
    (memory : σ) (hshort : xs.length < 2) :
    listSort compare schedule xs memory = (xs, memory) := by
  rw [listSort, if_pos hshort]

theorem listSort_of_long (compare : Comparator σ α) (schedule : Schedule) {xs : List α}
    (memory : σ) (hlong : ¬ xs.length < 2) :
    listSort compare schedule xs memory =
      (let halves := inTurn (schedule [])
        (listSort compare (schedule.inside .left) (xs.take (xs.length - xs.length / 2)))
        (listSort compare (schedule.inside .right) (xs.drop (xs.length - xs.length / 2))) memory
      listMerge compare halves.1 halves.2.1 halves.2.2) := by
  rw [listSort, if_neg hlong]

/-- The front half takes an odd item. -/
theorem length_frontHalf (xs : List α) :
    (xs.take (xs.length - xs.length / 2)).length = xs.length - xs.length / 2 :=
  List.length_take_of_le (Nat.sub_le _ _)

theorem length_backHalf (xs : List α) :
    (xs.drop (xs.length - xs.length / 2)).length = xs.length / 2 := by
  rw [List.length_drop]
  omega

/-- Facts about lists that are cut in two again and again, until they are too short. -/
theorem halving_induction {motive : List α → Prop}
    (short : ∀ xs : List α, xs.length < 2 → motive xs)
    (long : ∀ xs : List α, ¬ xs.length < 2 → motive (xs.take (xs.length - xs.length / 2)) →
      motive (xs.drop (xs.length - xs.length / 2)) → motive xs) (xs : List α) : motive xs := by
  induction hn : xs.length using Nat.strongRecOn generalizing xs with
  | ind n ih =>
    subst hn
    by_cases hshort : xs.length < 2
    · exact short xs hshort
    · refine long xs hshort (ih _ ?_ _ rfl) (ih _ ?_ _ rfl)
      · simp only [List.length_take]
        omega
      · simp only [List.length_drop]
        omega

/-- A relation between all pairs of a list holds inside both parts of a cut and across it. -/
theorem pairwise_cut {related : α → α → Prop} {xs : List α} (hxs : xs.Pairwise related)
    (count : Nat) :
    (xs.take count).Pairwise related ∧ (xs.drop count).Pairwise related ∧
      ∀ a ∈ xs.take count, ∀ b ∈ xs.drop count, related a b := by
  rw [← List.pairwise_append, List.take_append_drop]
  exact hxs

/-- A sort loses and invents nothing, whatever the comparator answers and whichever half comes
    first. -/
theorem listSort_perm (compare : Comparator σ α) (schedule : Schedule) (xs : List α)
    (memory : σ) : (listSort compare schedule xs memory).1.Perm xs := by
  induction xs using halving_induction generalizing schedule memory with
  | short xs hshort => rw [listSort_of_short compare schedule memory hshort]
  | long xs hlong ihl ihr =>
    rw [listSort_of_long compare schedule memory hlong]
    refine (listMerge_perm compare _ _ _).trans ?_
    conv => rhs; rw [← List.take_append_drop (xs.length - xs.length / 2) xs]
    cases hfirst : schedule [] with
    | left => exact (ihl _ _).append (ihr _ _)
    | right => exact (ihl _ _).append (ihr _ _)

theorem listSort_length (compare : Comparator σ α) (schedule : Schedule) (xs : List α)
    (memory : σ) : (listSort compare schedule xs memory).1.length = xs.length :=
  (listSort_perm compare schedule xs memory).length_eq

/-- Sorted halves hold the items of the halves, whichever comes first. -/
theorem inTurn_listSort_perm (compare : Comparator σ α) (first : Side) (before after : Schedule)
    (xs ys : List α) (memory : σ) :
    let halves := inTurn first (listSort compare before xs) (listSort compare after ys) memory
    halves.1.Perm xs ∧ halves.2.1.Perm ys := by
  cases first with
  | left => exact ⟨listSort_perm compare before xs _, listSort_perm compare after ys _⟩
  | right => exact ⟨listSort_perm compare before xs _, listSort_perm compare after ys _⟩

theorem inTurn_listSort_length (compare : Comparator σ α) (first : Side) (before after : Schedule)
    (xs ys : List α) (memory : σ) :
    let halves := inTurn first (listSort compare before xs) (listSort compare after ys) memory
    halves.1.length = xs.length ∧ halves.2.1.length = ys.length := by
  obtain ⟨hleft, hright⟩ := inTurn_listSort_perm compare first before after xs ys memory
  exact ⟨hleft.length_eq, hright.length_eq⟩

/-! ## Schedules of the fork-join sort -/

/-- The length of one half of `n` items. -/
def Side.half (n : Nat) : Side → Nat
  | .left => n - n / 2
  | .right => n / 2

/-- The length of the part of `n` items that a path of halves leads to. -/
def lengthAt (n : Nat) : List Side → Nat
  | [] => n
  | side :: path => lengthAt (side.half n) path

/-- A schedule for `n` items as the fork-join sort follows it: below `minForkLen` items there is
    no fork, and the left half comes first. -/
def Schedule.forked (schedule : Schedule) (n : Nat) : Schedule :=
  fun path => if lengthAt n path < minForkLen then .left else schedule path

theorem lengthAt_le (n : Nat) (path : List Side) : lengthAt n path ≤ n := by
  induction path generalizing n with
  | nil => exact Nat.le_refl n
  | cons side path ih =>
    have hhalf : side.half n ≤ n := by
      cases side <;> simp only [Side.half] <;> omega
    exact Nat.le_trans (ih (side.half n)) hhalf

/-- A short range has no forks, so no schedule matters. -/
theorem Schedule.forked_of_short (schedule : Schedule) {n : Nat} (hshort : n < minForkLen) :
    schedule.forked n = .leftFirst := by
  funext path
  have hpath : lengthAt n path < minForkLen := Nat.lt_of_le_of_lt (lengthAt_le n path) hshort
  simp only [Schedule.forked, if_pos hpath, Schedule.leftFirst]

theorem Schedule.forked_nil (schedule : Schedule) {n : Nat} (hlong : ¬ n < minForkLen) :
    schedule.forked n [] = schedule [] := by
  unfold Schedule.forked
  exact if_neg hlong

theorem Schedule.forked_inside (schedule : Schedule) (n : Nat) (side : Side) :
    (schedule.forked n).inside side = (schedule.inside side).forked (side.half n) := rfl

end MicroBench
