import MicroBench.Proofs.CallCount
import MicroBench.Proofs.Contract
import MicroBench.Proofs.StableSort

/-! # Ranges that are in order, or in reverse

  If no item of a range is less than one in front of it, every merge finds its left run in front of its
  right run and leaves them so. If every item is less than all those in front of it, every merge swaps
  its runs. In both cases each merge uses up one run before it touches the other, so the number of its
  questions is fixed as well.

  Nothing is asked of the order beyond these pairs; it need not be transitive. The items stay in their
  halves until these are merged, so no other pairs matter.

  - `mergeSort_of_reversed` is the counterpart of the library's fact about sorted lists.
  - `sortCalls_length` adds up the calls of merges that are decided beforehand.
  - `presorted_ranges_fix_the_sort` is the result for both engines.
-/

namespace MicroBench

variable {σ α : Type}

/-! ## Merges that are decided beforehand -/

section

variable {order : α → α → Ordering} {xs ys : List α}

/-- If every item of the right run is less than every item of the left run, the runs are swapped. -/
theorem merge_of_reversed (hcross : ∀ x ∈ xs, ∀ y ∈ ys, Precedes order y x) :
    xs.merge ys (mayPrecede order) = ys ++ xs := by
  induction ys with
  | nil => rw [List.merge_right, List.nil_append]
  | cons y ys ih =>
    cases xs with
    | nil => rw [List.nil_merge, List.append_nil]
    | cons x xs =>
      have hless : Precedes order y x := hcross x List.mem_cons_self y List.mem_cons_self
      have hright : ¬ mayPrecede order x y = true := by
        rw [mayPrecede_iff, not_not]
        exact hless
      rw [List.cons_merge_cons_neg _ _ _ hright, List.cons_append, ih]
      intro x' hx' y' hy'
      exact hcross x' hx' y' (List.mem_cons_of_mem y hy')

/-- If no item of the right run is less than one of the left run, there is one question for every item
    of the left run. -/
theorem mergeCalls_length_of_inOrder (hys : ys ≠ [])
    (hcross : ∀ x ∈ xs, ∀ y ∈ ys, ¬ Precedes order y x) :
    (mergeCalls order xs ys).length = xs.length := by
  induction xs with
  | nil => rw [mergeCalls, List.length_nil, List.length_nil]
  | cons x xs ih =>
    obtain ⟨y, ys, rfl⟩ := List.exists_cons_of_ne_nil hys
    have hnot : ¬ order y x = .lt := hcross x List.mem_cons_self y List.mem_cons_self
    rw [mergeCalls, if_neg hnot, List.length_cons, List.length_cons, ih]
    intro x' hx' y' hy'
    exact hcross x' (List.mem_cons_of_mem x hx') y' hy'

/-- If every item of the right run is less than every item of the left run, there is one question for
    every item of the right run. -/
theorem mergeCalls_length_of_reversed (hxs : xs ≠ [])
    (hcross : ∀ x ∈ xs, ∀ y ∈ ys, Precedes order y x) :
    (mergeCalls order xs ys).length = ys.length := by
  obtain ⟨x, xs, rfl⟩ := List.exists_cons_of_ne_nil hxs
  induction ys with
  | nil => rw [mergeCalls, List.length_nil, List.length_nil]
  | cons y ys ih =>
    have hless : order y x = .lt := hcross x List.mem_cons_self y List.mem_cons_self
    rw [mergeCalls, if_pos hless, List.length_cons, List.length_cons, ih]
    intro x' hx' y' hy'
    exact hcross x' hx' y' (List.mem_cons_of_mem y hy')

end

/-! ## Sorts -/

section

variable {order : α → α → Ordering} {xs : List α}

/-- Sorting a list in which every item is less than all those in front of it reverses it. The induction
    is on the halves: each is reversed, and their merge swaps them. -/
theorem mergeSort_of_reversed (hxs : xs.Pairwise fun a b => Precedes order b a) :
    xs.mergeSort (mayPrecede order) = xs.reverse := by
  induction xs using halving_induction with
  | short xs hshort =>
    match xs, hshort with
    | [], _ => rw [List.mergeSort_nil, List.reverse_nil]
    | [a], _ => rw [List.mergeSort_singleton, List.reverse_singleton]
  | long xs hlong ihl ihr =>
    obtain ⟨hfront, hback, hcross⟩ := pairwise_cut hxs (xs.length - xs.length / 2)
    rw [mergeSort_of_long _ hlong, ihl hfront, ihr hback, merge_of_reversed,
      ← List.reverse_append, List.take_append_drop]
    intro x hx y hy
    exact hcross x (List.mem_reverse.mp hx) y (List.mem_reverse.mp hy)

/-- If the pairs of a list decide how often the last merge of its sort asks, and they decide the same
    in both halves, the calls add up along the recursion. -/
theorem sortCalls_length {related : α → α → Prop} {join : Nat → Nat}
    (hjoin : ∀ xs : List α, ¬ xs.length < 2 → xs.Pairwise related →
      (mergeCalls order
        ((xs.take (xs.length - xs.length / 2)).mergeSort (mayPrecede order))
        ((xs.drop (xs.length - xs.length / 2)).mergeSort (mayPrecede order))).length =
          join xs.length)
    (hxs : xs.Pairwise related) : (sortCalls order xs).length = halvingCost join xs.length := by
  induction xs using halving_induction with
  | short xs hshort =>
    rw [sortCalls, if_pos hshort, halvingCost_of_short join hshort, List.length_nil]
  | long xs hlong ihl ihr =>
    obtain ⟨hfront, hback, -⟩ := pairwise_cut hxs (xs.length - xs.length / 2)
    rw [sortCalls, if_neg hlong, List.length_append, List.length_append, ihl hfront, ihr hback,
      hjoin xs hlong hxs, length_frontHalf, length_backHalf, ← halvingCost_of_long join hlong]

/-- A sort of items in order asks once for every item of a left half. -/
theorem sortCalls_length_of_inOrder (hxs : xs.Pairwise fun a b => ¬ Precedes order b a) :
    (sortCalls order xs).length = halvingCost (fun n => n - n / 2) xs.length := by
  refine sortCalls_length ?_ hxs
  intro xs hlong hxs
  obtain ⟨hfront, hback, hcross⟩ := pairwise_cut hxs (xs.length - xs.length / 2)
  have hback' : xs.drop (xs.length - xs.length / 2) ≠ [] := by
    rw [← List.length_pos_iff, length_backHalf]
    omega
  rw [List.mergeSort_of_pairwise (hfront.imp mayPrecede_iff.mpr),
    List.mergeSort_of_pairwise (hback.imp mayPrecede_iff.mpr),
    mergeCalls_length_of_inOrder hback' hcross, length_frontHalf]

/-- A sort of items in reverse asks once for every item of a right half. -/
theorem sortCalls_length_of_reversed (hxs : xs.Pairwise fun a b => Precedes order b a) :
    (sortCalls order xs).length = halvingCost (· / 2) xs.length := by
  refine sortCalls_length ?_ hxs
  intro xs hlong hxs
  obtain ⟨hfront, hback, hcross⟩ := pairwise_cut hxs (xs.length - xs.length / 2)
  have hfront' : (xs.take (xs.length - xs.length / 2)).reverse ≠ [] := by
    rw [← List.length_pos_iff, List.length_reverse, length_frontHalf]
    omega
  rw [mergeSort_of_reversed hfront, mergeSort_of_reversed hback,
    mergeCalls_length_of_reversed hfront', List.length_reverse, length_backHalf]
  intro x hx y hy
  exact hcross x (List.mem_reverse.mp hx) y (List.mem_reverse.mp hy)

end

/-- The log of a sort is as long as the list of its calls, under every schedule. -/
theorem listSort_calls_size (order : α → α → Ordering) (schedule : Schedule) (xs : List α) :
    (listSort (Oracle.ofOrder order).comparator schedule xs #[]).2.size =
      (sortCalls order xs).length := by
  have hcalls := (listSort_calls order schedule xs #[]).length_eq
  rw [List.nil_append] at hcalls
  exact hcalls

/-! ## The engines -/

/-- What the calls of a sort cost depends on the ends of its range only. A range of at most one item
    costs nothing, also if it lies outside the sequence. -/
theorem RangeFits.halvingCost_segment {workspace : Workspace α} {low high : Nat}
    (hargs : RangeFits workspace low high) (join : Nat → Nat) :
    halvingCost join (segment workspace.values low high).length =
      halvingCost join (high + 1 - low) := by
  by_cases hlow : low < high
  · rw [segment_length _ low (hargs hlow).1]
  · have hshort := segment_length_of_idle workspace.values (show high ≤ low by omega)
    rw [halvingCost_of_short join hshort, halvingCost_of_short join (by omega)]

/-- A sort leaves a range in order as it is. -/
theorem Performs.values_of_inOrder {compare : Comparator σ α} {order : α → α → Ordering}
    (hfollows : compare.Follows order) {schedule : Schedule} {low high : Nat}
    {workspace : Workspace α} {memory : σ} {outcome : Outcome σ α}
    (hsorted : Performs low high workspace
      (listSort compare schedule (segment workspace.values low high) memory) outcome)
    (hrange : (segment workspace.values low high).Pairwise fun a b => ¬ Precedes order b a) :
    outcome.workspace.values = workspace.values := by
  refine hsorted.outside.eq_of_segment (.refl low high _) ?_
  rw [hsorted.range, listSort_of_follows hfollows]
  exact List.mergeSort_of_pairwise (hrange.imp mayPrecede_iff.mpr)

/-- A sort of a range in order changes nothing, and a sort of a range in reverse turns it round; in both
    cases the number of calls is the same for all ranges of this length. Sorting by a strict weak order
    brings every range in order, so a second sort changes nothing. -/
theorem presorted_ranges_fix_the_sort (order : α → α → Ordering) (engine : Engine)
    (schedule : Schedule) (workspace : Workspace α) (hfits : workspace.values.size < wordLimit)
    {low high : Nat} (hargs : RangeFits workspace low high) :
    let compare := (Oracle.ofOrder order).comparator
    ∃ sorted, engine.sortRangeBy compare schedule low high workspace #[] = .ok sorted ∧
      sorted.verdict = .ok () ∧
      ((segment workspace.values low high).Pairwise (fun a b => ¬ Precedes order b a) →
        sorted.workspace.values = workspace.values ∧
        sorted.memory.size = halvingCost (fun n => n - n / 2) (high + 1 - low)) ∧
      ((segment workspace.values low high).Pairwise (fun a b => Precedes order b a) →
        segment sorted.workspace.values low high = (segment workspace.values low high).reverse ∧
        AgreesOutside low high workspace.values sorted.workspace.values ∧
        sorted.memory.size = ∑ i ∈ Finset.range (high + 1 - low), popcount i) ∧
      (IsStrictWeakOrder α (Precedes order) → ∀ (engine' : Engine) (schedule' : Schedule),
        ∃ again, engine'.sortRangeBy compare schedule' low high sorted.workspace #[] = .ok again ∧
          again.verdict = .ok () ∧
          again.workspace.values = sorted.workspace.values) := by
  intro compare
  have hfollows : compare.Follows order := Oracle.ofOrder_follows order
  obtain ⟨sorted, hcall, hsorted⟩ := engine.sortRangeBy_performs compare schedule #[] hfits hargs
  refine ⟨sorted, hcall, hsorted.verdict, ?_, ?_, ?_⟩
  · intro hrange
    refine ⟨hsorted.values_of_inOrder hfollows hrange, ?_⟩
    rw [hsorted.memory, listSort_calls_size, sortCalls_length_of_inOrder hrange,
      hargs.halvingCost_segment]
  · intro hrange
    refine ⟨?_, hsorted.outside, ?_⟩
    · rw [hsorted.range, listSort_of_follows hfollows, mergeSort_of_reversed hrange]
    · rw [hsorted.memory, listSort_calls_size, sortCalls_length_of_reversed hrange,
        hargs.halvingCost_segment, halvingCost_half]
  · intro hweak engine' schedule'
    have hsize := hsorted.outside.size
    obtain ⟨again, hcall', hagain⟩ := engine'.sortRangeBy_performs compare schedule' #[]
      (by omega) (hargs.of_lengths hsize hsorted.lengths)
    refine ⟨again, hcall', hagain.verdict, hagain.values_of_inOrder hfollows ?_⟩
    rw [hsorted.range, listSort_of_follows hfollows]
    exact (List.pairwise_mergeSort mayPrecede_trans mayPrecede_total _).imp mayPrecede_iff.mp

/-- Five of seven items count down: in reverse for the natural order, which asks five times, and in
    order for the opposite one, which asks seven times. A second sort leaves what the first one did. -/
theorem presorted_ranges_fix_the_sort_countdown :
    let workspace : Workspace Nat := ⟨#[0, 5, 4, 3, 2, 1, 9], ⟨#[7, 7, 7], #[8, 8]⟩⟩
    let natural := (Oracle.ofOrder (compare : Nat → Nat → Ordering)).comparator
    let opposite := (Oracle.ofOrder fun a b : Nat => compare b a).comparator
    workspace.values.size < wordLimit ∧
    (∃ sorted again, Sequential.sortRangeBy natural 1 5 workspace #[] = .ok sorted ∧
      segment sorted.workspace.values 1 5 = [1, 2, 3, 4, 5] ∧ sorted.memory.size = 5 ∧
      ForkJoin.sortRangeBy natural .leftFirst 1 5 sorted.workspace #[] = .ok again ∧
      again.workspace.values = sorted.workspace.values) ∧
    ∃ sorted, ForkJoin.sortRangeBy opposite .leftFirst 1 5 workspace #[] = .ok sorted ∧
      sorted.workspace.values = workspace.values ∧ sorted.memory.size = 7 := by
  intro workspace natural opposite
  have hfits : workspace.values.size < wordLimit := by decide
  have hargs : RangeFits workspace 1 5 := fun _ => by decide
  have hhalf : halvingCost (· / 2) 5 = 5 := by simp [halvingCost]
  have hother : halvingCost (fun n => n - n / 2) 5 = 7 := by simp [halvingCost]
  obtain ⟨sorted, hcall, -, -, hreversed, htwice⟩ :=
    presorted_ranges_fix_the_sort compare .sequential .leftFirst workspace hfits hargs
  obtain ⟨hrange, -, hcalls⟩ := hreversed (by decide)
  obtain ⟨again, hcall', -, hsame⟩ := htwice (precedes_isStrictWeakOrder _) .forkJoin .leftFirst
  obtain ⟨sorted', hcall'', -, hinOrder, -, -⟩ :=
    presorted_ranges_fix_the_sort (fun a b => compare b a) .forkJoin .leftFirst workspace hfits hargs
  obtain ⟨hvalues, hcalls'⟩ := hinOrder (by decide)
  refine ⟨hfits, ⟨sorted, again, hcall, hrange, ?_, hcall', hsame⟩, sorted', hcall'', hvalues, ?_⟩
  · rw [hcalls, ← halvingCost_half]
    exact hhalf
  · rw [hcalls']
    exact hother

end MicroBench
