import MicroBench.Proofs.CallCount
import MicroBench.Proofs.Contract

/-! # Merges interleave their runs

  A merge does not need sorted runs, and it does not need a comparator that can be trusted. Whatever
  the answers are, each item that it writes is the next one of the left or of the right run. So the
  merged range is an interleaving of the two runs: each of them is still there, in its old order, and
  no place belongs to both or to none.

  - `Interleaves` says this by marking every item with the run that it comes from.
  - `listMerge_interleaves` is the merge on lists, one case for each way to go on.
  - `merge_interleaves_runs` is the result for the merge in place, with the number of its calls.
-/

namespace MicroBench

variable {σ α : Type}

/-! ## Interleavings -/

/-- The items with the given mark, in their order. -/
def takenFrom (side : Side) (marked : List (α × Side)) : List α :=
  (marked.filter fun item => item.2 = side).map Prod.fst

/-- `zs` interleaves `xs` and `ys`: the items of `zs` can be marked with sides so that those on the
    left are `xs` and those on the right are `ys`, each in its order. -/
def Interleaves (xs ys zs : List α) : Prop :=
  ∃ marked : List (α × Side), marked.map Prod.fst = zs ∧
    takenFrom .left marked = xs ∧ takenFrom .right marked = ys

theorem takenFrom_cons (side : Side) (item : α × Side) (marked : List (α × Side)) :
    takenFrom side (item :: marked) =
      if item.2 = side then item.1 :: takenFrom side marked else takenFrom side marked := by
  unfold takenFrom
  by_cases hside : item.2 = side
  · rw [List.filter_cons_of_pos (by simpa using hside), if_pos hside, List.map_cons]
  · rw [List.filter_cons_of_neg (by simpa using hside), if_neg hside]

section

variable {xs ys zs : List α}

theorem Interleaves.nil : Interleaves ([] : List α) [] [] := ⟨[], rfl, rfl, rfl⟩

/-- The next item comes from the left run. -/
theorem Interleaves.left (x : α) (h : Interleaves xs ys zs) :
    Interleaves (x :: xs) ys (x :: zs) := by
  obtain ⟨marked, rfl, rfl, rfl⟩ := h
  exact ⟨(x, .left) :: marked, rfl, takenFrom_cons .left _ marked, takenFrom_cons .right _ marked⟩

/-- The next item comes from the right run. -/
theorem Interleaves.right (y : α) (h : Interleaves xs ys zs) :
    Interleaves xs (y :: ys) (y :: zs) := by
  obtain ⟨marked, rfl, rfl, rfl⟩ := h
  exact ⟨(y, .right) :: marked, rfl, takenFrom_cons .left _ marked, takenFrom_cons .right _ marked⟩

theorem Interleaves.leftAlone (xs : List α) : Interleaves xs [] xs := by
  induction xs with
  | nil => exact .nil
  | cons x xs ih => exact ih.left x

theorem Interleaves.rightAlone (ys : List α) : Interleaves [] ys ys := by
  induction ys with
  | nil => exact .nil
  | cons y ys ih => exact ih.right y

end

/-! ## Merges -/

/-- A merge takes the next item of one of its runs until one is used up; then the rest of the other
    one follows as it stands. The answers decide which run it is, and nothing else. -/
theorem listMerge_interleaves (compare : Comparator σ α) (xs ys : List α) (memory : σ) :
    Interleaves xs ys (listMerge compare xs ys memory).1 := by
  fun_induction listMerge compare xs ys memory with
  | case1 ys memory => exact .rightAlone ys
  | case2 x xs memory => exact .leftAlone (x :: xs)
  | case3 x xs y ys memory hless rest ih => exact ih.right y
  | case4 x xs y ys memory hless rest ih => exact ih.left x

/-- There is nothing to ask if the right run is empty. -/
theorem listMerge_nil_right (compare : Comparator σ α) (xs : List α) (memory : σ) :
    listMerge compare xs [] memory = (xs, memory) := by
  cases xs with
  | nil => rw [listMerge]
  | cons x xs => rw [listMerge]

/-- Whatever the oracle answers and whether or not the runs are sorted, a merge of two runs of `l` and
    `r` items interleaves them and changes nothing else. It asks at least as often as the shorter run
    has items and less often than both have together; if the right run is empty, it does not ask. -/
theorem merge_interleaves_runs (oracle : Oracle α) (workspace : Workspace α)
    {low mid high l r : Nat} (hfits : workspace.values.size < wordLimit) (hlow : low ≤ mid)
    (hmid : mid ≤ high) (hhigh : high < workspace.values.size) (hl : l = mid - low + 1)
    (hr : r = high - mid) (hleft : l ≤ workspace.scratch.left.size)
    (hright : r ≤ workspace.scratch.right.size) :
    ∃ merged, mergeBy oracle.comparator low mid high workspace #[] = .ok merged ∧
      merged.verdict = .ok () ∧
      Interleaves (segment workspace.values low mid) (segment workspace.values (mid + 1) high)
        (segment merged.workspace.values low high) ∧
      AgreesOutside low high workspace.values merged.workspace.values ∧
      (0 < l → 0 < r → min l r ≤ merged.memory.size ∧ merged.memory.size ≤ l + r - 1) ∧
      (r = 0 → merged.memory.size = 0) := by
  subst hl hr
  obtain ⟨merged, hcall, hmerged⟩ :=
    mergeBy_performs oracle.comparator #[] hfits hlow hmid hhigh hleft hright
  have hxs : (segment workspace.values low mid).length = mid - low + 1 := by
    rw [segment_length _ low (by omega)]
    omega
  have hys : (segment workspace.values (mid + 1) high).length = high - mid := by
    rw [segment_length _ (mid + 1) hhigh]
    omega
  refine ⟨merged, hcall, hmerged.verdict, ?_, hmerged.outside, ?_, ?_⟩
  · rw [hmerged.range]
    exact listMerge_interleaves oracle.comparator _ _ #[]
  · intro _ _
    have hasks := listMerge_asksBetween oracle (segment workspace.values low mid)
      (segment workspace.values (mid + 1) high) #[]
    rw [hxs, hys, List.size_toArray, List.length_nil, Nat.zero_add, Nat.zero_add] at hasks
    rw [hmerged.memory]
    exact hasks
  · intro hnone
    have hempty : segment workspace.values (mid + 1) high = [] :=
      List.eq_nil_of_length_eq_zero (hys.trans hnone)
    rw [hmerged.memory, hempty, listMerge_nil_right]
    rfl

/-- Two runs out of order and answers from a script, with one item left alone on either side. -/
theorem merge_interleaves_runs_unsorted :
    let workspace : Workspace Nat := ⟨#[7, 5, 9, 1, 8, 2, 6], ⟨#[0, 0, 0], #[0, 0]⟩⟩
    let oracle : Oracle Nat := .script #[.lt, .eq, .gt]
    workspace.values.size < wordLimit ∧
    ∃ merged, mergeBy oracle.comparator 1 3 5 workspace #[] = .ok merged ∧
      merged.verdict = .ok () ∧
      Interleaves [5, 9, 1] [8, 2] (segment merged.workspace.values 1 5) ∧
      AgreesOutside 1 5 workspace.values merged.workspace.values ∧
      2 ≤ merged.memory.size ∧ merged.memory.size ≤ 4 := by
  intro workspace oracle
  have hfits : workspace.values.size < wordLimit := by decide
  obtain ⟨merged, hcall, hverdict, hrange, houtside, hcalls, -⟩ :=
    merge_interleaves_runs oracle workspace hfits (show 1 ≤ 3 by decide) (show 3 ≤ 5 by decide)
      (by decide) rfl rfl (by decide) (by decide)
  exact ⟨hfits, merged, hcall, hverdict, hrange, houtside, hcalls (by decide) (by decide)⟩

end MicroBench
