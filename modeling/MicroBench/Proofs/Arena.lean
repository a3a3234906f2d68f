import Mathlib.Algebra.Group.Nat.Defs
import MicroBench.Arena
import MicroBench.Proofs.StableSort
import MicroBench.Proofs.Step

/-! # Arenas count down or up

  An arena is made with the countdown from its length and with scratch that fits it. From then on it
  holds the integers from one to its length: counting down after a fill, counting up after a sort. The
  scratch is dirty after the first sort, but it keeps its lengths, and no sort asks for more.

  - `Arena.View` is what can be seen of an arena, and `Arena.Operation.leaves` what is to be seen
    after an operation.
  - `Arena.Sound` is the invariant: the right integers in some order, and buffers of the right lengths.
  - `Arena.apply_sound` is the step, `Arena.applyAll_sound` the run over a list of operations.
-/

namespace MicroBench

/-! ## Integers of 32 bits in order -/

/-- In the natural order an integer may stay in front of those that are not smaller. -/
theorem mayPrecede_compare_iff {a b : Int32} : mayPrecede compare a b = true ↔ a.toInt ≤ b.toInt := by
  rw [mayPrecede_iff, Std.compare_eq_lt, Int32.not_lt, Int32.le_iff_toInt_le]

/-- Merge sort finds the ascending arrangement of its integers. -/
theorem mergeSort_toInt_of_perm {xs : List Int32} {ys : List Int}
    (hperm : (xs.map Int32.toInt).Perm ys) (hascending : ys.Pairwise (· ≤ ·)) :
    (xs.mergeSort (mayPrecede compare)).map Int32.toInt = ys := by
  have hsorted : ((xs.mergeSort (mayPrecede compare)).map Int32.toInt).Pairwise (· ≤ ·) := by
    rw [List.pairwise_map]
    exact (List.pairwise_mergeSort mayPrecede_trans mayPrecede_total xs).imp
      mayPrecede_compare_iff.mp
  refine List.Perm.eq_of_pairwise ?_ hsorted hascending
    (((List.mergeSort_perm xs _).map Int32.toInt).trans hperm)
  intro a b _ _ hab hba
  exact Int.le_antisymm hab hba

/-- Neighbours stand in a transitive relation all along a list if and only if all pairs do. -/
theorem adjacent_iff_pairwise {α : Type} {related : α → α → Bool}
    (htrans : ∀ a b c, related a b = true → related b c = true → related a c = true)
    (xs : List α) :
    adjacent related xs = true ↔ xs.Pairwise fun a b => related a b = true := by
  fun_induction adjacent related xs with
  | case1 a b rest ih =>
    rw [Bool.and_eq_true, ih, List.pairwise_cons (l := b :: rest)]
    constructor
    · rintro ⟨hab, hrest⟩
      refine ⟨?_, hrest⟩
      intro c hc
      rcases List.mem_cons.mp hc with rfl | hc
      · exact hab
      · exact htrans a b c hab ((List.pairwise_cons.mp hrest).1 c hc)
    · rintro ⟨ha, hrest⟩
      exact ⟨ha b List.mem_cons_self, hrest⟩
  | case2 xs hshort =>
    match xs, hshort with
    | [], _ => simp
    | [a], _ => simp
    | a :: b :: rest, hshort => exact absurd rfl (hshort a b rest)

namespace Arena

/-! ## What can be seen of an arena -/

/-- The integers `len, …, 2, 1`. -/
def countdown (len : Nat) : List Int := (List.range len).map fun (i : Nat) => (len : Int) - i

/-- The integers `1, 2, …, len`. -/
def countUp (len : Nat) : List Int := (List.range len).map fun (i : Nat) => (i : Int) + 1

/-- The values of an arena as integers without a width. -/
def integers (arena : Arena) : List Int := arena.values.toList.map Int32.toInt

/-- What can be seen of an arena from outside. -/
structure View where
  len : Nat
  integers : List Int
  isSorted : Bool
  deriving DecidableEq, Repr

def view (arena : Arena) : View := ⟨arena.values.size, arena.integers, arena.isSorted⟩

/-- The countdown is in order only if it is too short to be out of it. -/
def View.descending (len : Nat) : View := ⟨len, countdown len, len ≤ 1⟩

def View.ascending (len : Nat) : View := ⟨len, countUp len, true⟩

/-- What is to be seen of an arena of `len` integers after an operation, whatever was done before. -/
def Operation.leaves (len : Nat) : Operation → View
  | .fill => .descending len
  | .sort | .sortParallel | .run => .ascending len

theorem countdown_eq_reverse (len : Nat) : countdown len = (countUp len).reverse := by
  apply List.ext_getElem
  · simp [countdown, countUp]
  · intro i hi hi'
    simp only [countdown, List.length_map, List.length_range] at hi
    simp only [countdown, countUp, List.getElem_map, List.getElem_range, List.getElem_reverse,
      List.length_map, List.length_range]
    omega

theorem countUp_ascending (len : Nat) : (countUp len).Pairwise (· ≤ ·) := by
  unfold countUp
  rw [List.pairwise_map]
  refine List.pairwise_lt_range.imp ?_
  intro a b hab
  omega

theorem countdown_ascending_iff (len : Nat) : (countdown len).Pairwise (· ≤ ·) ↔ len ≤ 1 := by
  constructor
  · intro hascending
    refine Nat.le_of_not_lt fun hlong => ?_
    have hlen : (countdown len).length = len := by simp [countdown]
    have hfirst := List.pairwise_iff_getElem.mp hascending 0 1 (by omega) (by omega) (by omega)
    simp only [countdown, List.getElem_map, List.getElem_range] at hfirst
    omega
  · intro hshort
    obtain rfl | rfl : len = 0 ∨ len = 1 := by omega
    · simp [countdown]
    · simp [countdown]

/-- The check for order looks at the integers. -/
theorem isSorted_iff (arena : Arena) : arena.isSorted = true ↔ arena.integers.Pairwise (· ≤ ·) := by
  have htrans : ∀ a b c : Int32, decide (a ≤ b) = true → decide (b ≤ c) = true →
      decide (a ≤ c) = true := by
    intro a b c hab hbc
    rw [decide_eq_true_eq] at *
    exact Int32.le_trans hab hbc
  unfold isSorted ascends integers
  rw [adjacent_iff_pairwise htrans, List.pairwise_map]
  simp only [decide_eq_true_eq, Int32.le_iff_toInt_le]

/-! ## The invariant -/

/-- An arena of `len` integers after any operations. -/
structure Sound (len : Nat) (arena : Arena) : Prop where
  fits : len ≤ maxLen
  integers : arena.integers.Perm (countUp len)
  left : arena.scratch.left.size = len - len / 2
  right : arena.scratch.right.size = len / 2

namespace Sound

variable {len : Nat} {arena : Arena}

theorem size (hsound : arena.Sound len) : arena.values.size = len := by
  have hlen := hsound.integers.length_eq
  simpa [Arena.integers, countUp] using hlen

theorem view_descending (hsound : arena.Sound len) (hintegers : arena.integers = countdown len) :
    arena.view = .descending len := by
  have hsorted : arena.isSorted = decide (len ≤ 1) := by
    rw [Bool.eq_iff_iff, decide_eq_true_eq, isSorted_iff, hintegers, countdown_ascending_iff]
  unfold view View.descending
  rw [hsound.size, hintegers, hsorted]

theorem view_ascending (hsound : arena.Sound len) (hintegers : arena.integers = countUp len) :
    arena.view = .ascending len := by
  have hsorted : arena.isSorted = true := by
    rw [isSorted_iff, hintegers]
    exact countUp_ascending len
  unfold view View.ascending
  rw [hsound.size, hintegers, hsorted]

end Sound

/-! ## Filling -/

/-- No difference of the countdown leaves the 32-bit integers. -/
theorem countdownAt_eq {len i : Nat} (hlen : len ≤ maxLen) (hi : i ≤ len) :
    countdownAt len i = .ok (Int32.ofInt (len - i)) := by
  unfold maxLen at hlen
  have hrange : -0x80000000 ≤ (len : Int) - i ∧ (len : Int) - i < 0x80000000 := by omega
  have hlenInt : (Int32.ofNat len).toInt = len := Int32.toInt_ofNat_of_lt (by omega)
  have hiInt : (Int32.ofNat i).toInt = i := Int32.toInt_ofNat_of_lt (by omega)
  simp only [countdownAt, hlenInt, hiInt, require_of _ hrange]
  rfl

/-- The loop replaces the slots behind those already written by the rest of the countdown. -/
theorem fillFrom_parts {len : Nat} (hlen : len ≤ maxLen) (written hole : List Int32)
    (hslots : written.length + hole.length = len) :
    fillFrom len hole.length written.length (written ++ hole).toArray =
      .ok (written ++ (List.range' written.length hole.length).map
        fun (i : Nat) => Int32.ofInt (len - i)).toArray := by
  induction hole generalizing written with
  | nil => simp [fillFrom]
  | cons slot slots ih =>
    simp only [List.length_cons] at hslots
    -- One slot moves from the hole to the written part.
    have hwrite : (written ++ slot :: slots).toArray.setIfInBounds written.length
        (Int32.ofInt (len - written.length)) =
        ((written ++ [Int32.ofInt (len - written.length)]) ++ slots).toArray := by simp
    have hrest := ih (written ++ [Int32.ofInt (len - written.length)])
      (by simp only [List.length_append, List.length_singleton]; omega)
    rw [List.length_append, List.length_singleton] at hrest
    rw [List.length_cons, fillFrom, countdownAt_eq hlen (by omega)]
    simp only [hwrite]
    rw [hrest, List.range'_succ, List.map_cons, List.append_assoc, List.singleton_append]

/-- A fill ends without a fault and leaves the countdown, whatever the arena held. -/
theorem fillDescending_eq_ok (arena : Arena) (hlen : arena.values.size ≤ maxLen) :
    ∃ filled : Array Int32, arena.fillDescending = .ok ⟨filled, arena.scratch⟩ ∧
      filled.toList.map Int32.toInt = countdown arena.values.size := by
  obtain ⟨values, scratch⟩ := arena
  have hfill := fillFrom_parts hlen [] values.toList (by simp)
  simp only [List.nil_append, List.length_nil, Array.length_toList, Array.toArray_toList] at hfill
  refine ⟨_, by simp only [fillDescending, hfill]; rfl, ?_⟩
  unfold countdown
  rw [List.map_map, ← List.range_eq_range']
  apply List.map_congr_left
  intro i hi
  have hi := List.mem_range.mp hi
  unfold maxLen at hlen
  simp only at hlen
  exact Int32.toInt_ofInt_of_le (by omega) (by omega)

/-- A fill makes an arena sound if only the lengths are right. -/
theorem fillDescending_sound {len : Nat} {arena : Arena} (hlen : len ≤ maxLen)
    (hsize : arena.values.size = len) (hleft : arena.scratch.left.size = len - len / 2)
    (hright : arena.scratch.right.size = len / 2) :
    ∃ after : Arena, arena.fillDescending = .ok after ∧ after.Sound len ∧
      after.integers = countdown len := by
  subst hsize
  obtain ⟨filled, hfill, hintegers⟩ := arena.fillDescending_eq_ok hlen
  have hperm : (filled.toList.map Int32.toInt).Perm (countUp arena.values.size) := by
    rw [hintegers, countdown_eq_reverse]
    exact List.reverse_perm _
  exact ⟨_, hfill, ⟨hlen, hperm, hleft, hright⟩, hintegers⟩

theorem Sound.fillDescending {len : Nat} {arena : Arena} (hsound : arena.Sound len) :
    ∃ after : Arena, arena.fillDescending = .ok after ∧ after.Sound len ∧
      after.integers = countdown len :=
  fillDescending_sound hsound.fits hsound.size hsound.left hsound.right

/-! ## Making -/

/-- There is room for as many integers as an arena may have. -/
theorem reserve_words {count : Nat} (hcount : count ≤ maxLen) : reserve 4 count = .ok () := by
  unfold maxLen at hcount
  unfold reserve bufferLimit
  rw [if_pos (by omega)]

/-- Up to the largest length there is an arena of zeros with the right lengths. -/
theorem allocate_eq_ok {len : Nat} (hlen : len ≤ maxLen) :
    ∃ arena : Arena, allocate len = .ok arena ∧ arena.values.size = len ∧
      arena.scratch.left.size = len - len / 2 ∧ arena.scratch.right.size = len / 2 := by
  have hvalues : MicroBench.allocate 4 len (0 : Int32) = .ok (Array.replicate len 0) := by
    unfold MicroBench.allocate
    rw [reserve_words hlen]
    rfl
  have hscratch : Scratch.withFill 4 len (0 : Int32) =
      .ok ⟨Array.replicate (len - len / 2) 0, Array.replicate (len / 2) 0⟩ := by
    simp only [Scratch.withFill, Scratch.lengthsFor, runLengths,
      reserve_words (show len - len / 2 ≤ maxLen by omega),
      reserve_words (show len / 2 ≤ maxLen by omega)]
    rfl
  unfold allocate
  rw [if_neg (Nat.not_lt.mpr hlen), hvalues, hscratch]
  exact ⟨_, rfl, Array.size_replicate, Array.size_replicate, Array.size_replicate⟩

/-- A new arena is sound and holds the countdown. -/
theorem withLen_sound {len : Nat} (hlen : len ≤ maxLen) :
    ∃ arena : Arena, withLen len = .ok (.ok arena) ∧ arena.Sound len ∧
      arena.integers = countdown len := by
  obtain ⟨zeros, hallocate, hsize, hleft, hright⟩ := allocate_eq_ok hlen
  obtain ⟨arena, hfill, hsound, hintegers⟩ := fillDescending_sound hlen hsize hleft hright
  refine ⟨arena, ?_, hsound, hintegers⟩
  simp only [withLen, hallocate, hfill]
  rfl

/-- No arena is made for a length that is no 32-bit integer. -/
theorem withLen_of_large {len : Nat} (hlarge : maxLen < len) :
    withLen len = .ok (.error (.tooLarge len)) := by
  unfold withLen allocate
  rw [if_pos hlarge]

/-! ## Sorting -/

/-- A sort is never refused, and it leaves the integers in order. -/
theorem sort_sound (engine : Engine) (schedule : Schedule) {len : Nat} {arena : Arena}
    (hsound : arena.Sound len) :
    ∃ after : Arena, arena.sort engine schedule = .ok (.ok (), after) ∧ after.Sound len ∧
      after.integers = countUp len := by
  have hsize := hsound.size
  unfold sort
  split
  · next hempty =>
    have hnone : arena.integers = countUp len := by
      rw [← hsize, hempty]
      simp [Arena.integers, countUp, Array.eq_empty_of_size_eq_zero hempty]
    exact ⟨arena, rfl, hsound, hnone⟩
  · next high hhigh =>
    obtain ⟨values, scratch⟩ := arena
    simp only at hsize hhigh
    have hfits := hsound.fits
    have hleft := hsound.left
    have hright := hsound.right
    unfold maxLen at hfits
    simp only at hleft hright
    -- The buffers were made for this length, so the sort of the whole range is admitted, and what an
    -- earlier sort left in them does not matter.
    have hfollows : (naturalComparator : Comparator Unit Int32).Follows compare :=
      Comparator.ofOrder_follows compare
    obtain ⟨after, hlengths, hcall⟩ := engine.sortRangeBy_hasEffect naturalComparator schedule 0 high
      values scratch () (by unfold wordLimit; omega)
    rw [rangeEffect_of_room _ _ values () (Nat.zero_le high) (by omega) (by omega) (by omega),
      segment_all values hhigh.symm, splice_all values hhigh.symm,
      listSort_of_follows hfollows] at hcall
    have hsorted : (values.toList.mergeSort (mayPrecede compare)).map Int32.toInt = countUp len :=
      mergeSort_toInt_of_perm hsound.integers (countUp_ascending len)
    refine ⟨⟨(values.toList.mergeSort (mayPrecede compare)).toArray, after⟩, ?_, ?_, hsorted⟩
    · simp only [hcall]
      rfl
    · exact ⟨hsound.fits, .of_eq hsorted, hlengths.left.trans hleft, hlengths.right.trans hright⟩

/-! ## Operations -/

/-- Every operation passes, keeps the arena sound and leaves what it should. -/
theorem apply_sound (schedule : Schedule) (operation : Operation) {len : Nat} {arena : Arena}
    (hsound : arena.Sound len) :
    ∃ after : Arena, arena.apply schedule operation = .ok (.ok (), after) ∧ after.Sound len ∧
      after.view = operation.leaves len := by
  cases operation with
  | fill =>
    obtain ⟨after, hfill, hafter, hintegers⟩ := hsound.fillDescending
    refine ⟨after, ?_, hafter, hafter.view_descending hintegers⟩
    simp only [apply, hfill]
    rfl
  | sort =>
    obtain ⟨after, hsort, hafter, hintegers⟩ := sort_sound .sequential schedule hsound
    exact ⟨after, hsort, hafter, hafter.view_ascending hintegers⟩
  | sortParallel =>
    obtain ⟨after, hsort, hafter, hintegers⟩ := sort_sound .forkJoin schedule hsound
    exact ⟨after, hsort, hafter, hafter.view_ascending hintegers⟩
  | run =>
    obtain ⟨filled, hfill, hfilled, -⟩ := hsound.fillDescending
    obtain ⟨after, hsort, hafter, hintegers⟩ := sort_sound .sequential .leftFirst hfilled
    refine ⟨after, ?_, hafter, hafter.view_ascending hintegers⟩
    simp only [apply, run, hfill]
    exact hsort

/-- Every operation of a run passes, and each leaves what it should. -/
theorem applyAll_sound (timetable : Timetable) (operations : List Operation) {len : Nat}
    {arena : Arena} (hsound : arena.Sound len) :
    ∃ results, arena.applyAll timetable operations = .ok results ∧
      results.map (fun result => (result.1, result.2.view)) =
        operations.map fun operation => (.ok (), operation.leaves len) := by
  induction operations generalizing timetable arena with
  | nil => exact ⟨[], rfl, rfl⟩
  | cons operation rest ih =>
    obtain ⟨after, hstep, hafter, hview⟩ := apply_sound (timetable 0) operation hsound
    obtain ⟨results, hrest, hviews⟩ := ih timetable.later hafter
    refine ⟨(.ok (), after) :: results, ?_, ?_⟩
    · simp only [applyAll, hstep, bind, Except.bind, hrest, pure, Except.pure]
    · rw [List.map_cons, List.map_cons, hviews, hview]

end Arena

/-- An arena can be made if and only if its length is a 32-bit integer. It starts with the countdown,
    and from then on every operation passes and leaves the countdown or its reverse, under any
    schedules of the forks. -/
theorem arena_counts_down_or_up (len : Nat) :
    (2 ^ 31 - 1 < len → Arena.withLen len = .ok (.error (.tooLarge len))) ∧
    (len ≤ 2 ^ 31 - 1 → ∃ arena : Arena, Arena.withLen len = .ok (.ok arena) ∧
      arena.view = .descending len ∧
      ∀ (timetable : Timetable) (operations : List Arena.Operation), ∃ results,
        arena.applyAll timetable operations = .ok results ∧
        results.map (fun result => (result.1, result.2.view)) =
          operations.map fun operation => (.ok (), operation.leaves len)) := by
  constructor
  · intro hlarge
    exact Arena.withLen_of_large hlarge
  · intro hlen
    obtain ⟨arena, hmade, hsound, hintegers⟩ := Arena.withLen_sound hlen
    refine ⟨arena, hmade, hsound.view_descending hintegers, ?_⟩
    intro timetable operations
    exact Arena.applyAll_sound timetable operations hsound

/-- The first length that is too large, and an arena of three integers that is sorted, refilled and
    sorted again. -/
theorem arena_counts_down_or_up_three :
    Arena.withLen (2 ^ 31) = .ok (.error (.tooLarge (2 ^ 31))) ∧
    ∃ arena : Arena, Arena.withLen 3 = .ok (.ok arena) ∧ arena.view = ⟨3, [3, 2, 1], false⟩ ∧
      ∃ results, arena.applyAll .leftFirst [.sort, .fill, .sortParallel, .run] = .ok results ∧
        results.map (fun result => (result.1, result.2.view)) =
          [(.ok (), ⟨3, [1, 2, 3], true⟩), (.ok (), ⟨3, [3, 2, 1], false⟩),
            (.ok (), ⟨3, [1, 2, 3], true⟩), (.ok (), ⟨3, [1, 2, 3], true⟩)] := by
  obtain ⟨arena, hmade, hview, hrun⟩ := (arena_counts_down_or_up 3).2 (by decide)
  exact ⟨(arena_counts_down_or_up (2 ^ 31)).1 (by decide), arena, hmade, hview, hrun _ _⟩

end MicroBench
