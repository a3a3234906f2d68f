import Mathlib.Algebra.BigOperators.Group.Finset.Basic
import Mathlib.Data.Nat.BitIndices
import Mathlib.Data.Nat.Log
import MicroBench.Proofs.ForkJoin

/-! # How often the comparator is asked

  A merge asks once for every item that it writes while both runs have items left. The answers decide
  how long that lasts: at least until the shorter run is used up, at most until one item is left.
  Everything else is the shape of the recursion, which no answer can change.

  - `halvingCost` adds up what the merges of such a recursion cost. `halvingCost_pred` solves it for
    the most that merges can cost and `halvingCost_half` for the least.
  - `listMerge_asksBetween` bounds one merge, `listSort_asksBetween` lifts bounds on merges to the
    whole sort.
  - `sort_calls_within_bounds` is the result for all sorts of both engines.
-/

namespace MicroBench

variable {α : Type}

/-! ## Costs of a recursion that halves -/

/-- The cost of treating `n` items by treating both halves and joining them, where joining the halves
    of `n` items costs `join n`. A single item costs nothing. -/
def halvingCost (join : Nat → Nat) (n : Nat) : Nat :=
  if n < 2 then 0
  else halvingCost join (n - n / 2) + halvingCost join (n / 2) + join n
termination_by n
decreasing_by
  all_goals omega

theorem halvingCost_of_short (join : Nat → Nat) {n : Nat} (hshort : n < 2) :
    halvingCost join n = 0 := by
  rw [halvingCost, if_pos hshort]

theorem halvingCost_of_long (join : Nat → Nat) {n : Nat} (hlong : ¬ n < 2) :
    halvingCost join n =
      halvingCost join (n - n / 2) + halvingCost join (n / 2) + join n := by
  rw [halvingCost, if_neg hlong]

/-- The shorter half may be counted with the logarithm of the longer one: the two logarithms differ
    only if the shorter half is a power of two, and then the difference cancels out. -/
theorem mul_clog_add_two_pow {m k : Nat} (hk : k = m ∨ k = m + 1) :
    m * Nat.clog 2 m + 2 ^ Nat.clog 2 k = m * Nat.clog 2 k + 2 ^ Nat.clog 2 m := by
  rcases hk with rfl | rfl
  · rfl
  · have hmono : Nat.clog 2 m ≤ Nat.clog 2 (m + 1) := Nat.clog_mono_right 2 (Nat.le_succ m)
    rcases Nat.lt_or_eq_of_le hmono with hlt | heq
    · have hpower : 2 ^ Nat.clog 2 m = m := (Nat.clog_lt_clog_succ_iff Nat.one_lt_two).mp hlt
      have hnext : Nat.clog 2 (m + 1) ≤ Nat.clog 2 m + 1 := by
        apply Nat.clog_le_of_le_pow
        have hpos : 1 ≤ 2 ^ Nat.clog 2 m := Nat.one_le_two_pow
        rw [Nat.pow_succ]
        omega
      have hstep : Nat.clog 2 (m + 1) = Nat.clog 2 m + 1 := by omega
      rw [hstep, Nat.pow_succ, hpower, Nat.mul_add_one m (Nat.clog 2 m)]
      omega
    · rw [heq]

/-- If joining `n` items costs one less than `n`, the whole costs `n ⌈log₂ n⌉ - 2 ^ ⌈log₂ n⌉ + 1`. -/
theorem halvingCost_pred {n : Nat} (hpos : 1 ≤ n) :
    halvingCost (· - 1) n + 2 ^ Nat.clog 2 n = n * Nat.clog 2 n + 1 := by
  induction n using Nat.strongRecOn with
  | ind n ih =>
    by_cases hshort : n < 2
    · have hone : n = 1 := by omega
      subst hone
      simp [halvingCost_of_short _ hshort]
    · have hleft := ih (n - n / 2) (by omega) (by omega)
      have hright := ih (n / 2) (by omega) (by omega)
      have hhalves := mul_clog_add_two_pow (show n - n / 2 = n / 2 ∨ n - n / 2 = n / 2 + 1 by omega)
      have hlog : Nat.clog 2 n = Nat.clog 2 (n - n / 2) + 1 := by
        have hceil : (n + 2 - 1) / 2 = n - n / 2 := by omega
        rw [Nat.clog_of_two_le Nat.one_lt_two (by omega), hceil]
      have hsum : (n - n / 2) * Nat.clog 2 (n - n / 2) + n / 2 * Nat.clog 2 (n - n / 2) =
          n * Nat.clog 2 (n - n / 2) := by
        rw [← Nat.add_mul]
        congr 1
        omega
      rw [halvingCost_of_long _ hshort, hlog, Nat.pow_succ,
        Nat.mul_add_one n (Nat.clog 2 (n - n / 2))]
      omega

/-- The number of ones in the binary form of a number. -/
def popcount (n : Nat) : Nat := n.bitIndices.length

theorem popcount_double (n : Nat) : popcount (2 * n) = popcount n := by
  simp [popcount]

theorem popcount_double_add_one (n : Nat) : popcount (2 * n + 1) = popcount n + 1 := by
  simp [popcount]

/-- Of the numbers below `2 m`, half end in a one; without their last digit each number below `m`
    occurs twice. -/
theorem sum_popcount_double (m : Nat) :
    ∑ i ∈ Finset.range (2 * m), popcount i = 2 * ∑ i ∈ Finset.range m, popcount i + m := by
  induction m with
  | zero => rfl
  | succ m ih =>
    rw [Nat.mul_succ, Finset.sum_range_succ, Finset.sum_range_succ, Finset.sum_range_succ, ih,
      popcount_double, popcount_double_add_one]
    omega

/-- If joining costs as much as the shorter half has items, the whole costs as many as there are ones
    in the numbers below `n`. -/
theorem halvingCost_half (n : Nat) :
    halvingCost (· / 2) n = ∑ i ∈ Finset.range n, popcount i := by
  induction n using Nat.strongRecOn with
  | ind n ih =>
    by_cases hshort : n < 2
    · rw [halvingCost_of_short _ hshort]
      obtain rfl | rfl : n = 0 ∨ n = 1 := by omega
      · simp
      · simp [popcount]
    · rw [halvingCost_of_long _ hshort, ih (n - n / 2) (by omega), ih (n / 2) (by omega)]
      have hdouble := sum_popcount_double (n / 2)
      obtain ⟨m, rfl | rfl⟩ : ∃ m, n = 2 * m ∨ n = 2 * m + 1 := ⟨n / 2, by omega⟩
      · have hhalf : 2 * m / 2 = m := by omega
        have hother : 2 * m - m = m := by omega
        rw [hhalf] at hdouble ⊢
        rw [hother]
        omega
      · -- The last number is `2 m`, which has as many ones as `m`.
        have hhalf : (2 * m + 1) / 2 = m := by omega
        have hother : 2 * m + 1 - m = m + 1 := by omega
        rw [hhalf] at hdouble ⊢
        rw [hother, Finset.sum_range_succ, Finset.sum_range_succ, popcount_double]
        omega

/-! ## Calls of merges and sorts on lists -/

/-- The task asks at least `least` and at most `most` times, whatever the log holds already. -/
def AsksBetween {β : Type} (least most : Nat) (task : CallLog α → β × CallLog α) : Prop :=
  ∀ calls, calls.size + least ≤ (task calls).2.size ∧ (task calls).2.size ≤ calls.size + most

/-- Every question adds one call to the log. -/
theorem Oracle.comparator_size (oracle : Oracle α) (a b : α) (calls : CallLog α) :
    (oracle.comparator a b calls).2.size = calls.size + 1 := Array.size_push (a, b)

/-- A merge asks until one of its runs is used up, and it leaves its last item without a question. -/
theorem listMerge_asksBetween (oracle : Oracle α) (xs ys : List α) :
    AsksBetween (min xs.length ys.length) (xs.length + ys.length - 1)
      (listMerge oracle.comparator xs ys) := by
  intro calls
  fun_induction listMerge oracle.comparator xs ys calls with
  | case1 ys calls => simp
  | case2 x xs calls => simp
  | case3 x xs y ys calls hless rest ih =>
    have hcall := oracle.comparator_size y x calls
    have hrest : _ ≤ rest.2.size ∧ rest.2.size ≤ _ := ih
    simp only [List.length_cons] at hrest ⊢
    omega
  | case4 x xs y ys calls hless rest ih =>
    have hcall := oracle.comparator_size y x calls
    have hrest : _ ≤ rest.2.size ∧ rest.2.size ≤ _ := ih
    simp only [List.length_cons] at hrest ⊢
    omega

/-- If every answer is "less", a merge takes the whole right run first. -/
theorem listMerge_size_of_less (xs ys : List α) (calls : CallLog α) (hxs : 1 ≤ xs.length) :
    (listMerge (Oracle.constant .lt).comparator xs ys calls).2.size = calls.size + ys.length := by
  fun_induction listMerge (Oracle.constant .lt).comparator xs ys calls with
  | case1 ys calls => exact absurd hxs (by simp)
  | case2 x xs calls => rfl
  | case3 x xs y ys calls hless rest ih =>
    rw [ih hxs, Oracle.comparator_size, List.length_cons]
    omega
  | case4 x xs y ys calls hless rest ih => exact absurd rfl hless

/-- Two tasks in turn ask as often as both together, whichever comes first. -/
theorem AsksBetween.inTurn {β γ : Type} {left : CallLog α → β × CallLog α}
    {right : CallLog α → γ × CallLog α} {a a' b b' : Nat} (hleft : AsksBetween a a' left)
    (hright : AsksBetween b b' right) (first : Side) (calls : CallLog α) :
    calls.size + (a + b) ≤ (inTurn first left right calls).2.2.size ∧
      (inTurn first left right calls).2.2.size ≤ calls.size + (a' + b') := by
  cases first with
  | left =>
    have hfirst := hleft calls
    have hsecond := hright (left calls).2
    simp only [MicroBench.inTurn]
    omega
  | right =>
    have hfirst := hright calls
    have hsecond := hleft (right calls).2
    simp only [MicroBench.inTurn]
    omega

/-- The merges of a sort join two halves, of which the right one may be one item shorter. If each of
    them asks between `least n` and `most n` times for `n` items, bounds for the whole sort follow,
    under every schedule. -/
theorem listSort_asksBetween (oracle : Oracle α) (least most : Nat → Nat)
    (hmerge : ∀ xs ys : List α, 1 ≤ ys.length → ys.length ≤ xs.length →
      xs.length ≤ ys.length + 1 →
      AsksBetween (least (xs.length + ys.length)) (most (xs.length + ys.length))
        (listMerge oracle.comparator xs ys))
    (schedule : Schedule) (xs : List α) :
    AsksBetween (halvingCost least xs.length) (halvingCost most xs.length)
      (listSort oracle.comparator schedule xs) := by
  induction xs using halving_induction generalizing schedule with
  | short xs hshort =>
    intro calls
    rw [listSort_of_short _ schedule calls hshort, halvingCost_of_short _ hshort,
      halvingCost_of_short _ hshort]
    exact ⟨Nat.le_refl _, Nat.le_refl _⟩
  | long xs hlong ihl ihr =>
    intro calls
    have hfront := length_frontHalf xs
    have hback := length_backHalf xs
    rw [hfront] at ihl
    rw [hback] at ihr
    have hlengths := inTurn_listSort_length oracle.comparator (schedule []) (schedule.inside .left)
      (schedule.inside .right) (xs.take (xs.length - xs.length / 2))
      (xs.drop (xs.length - xs.length / 2)) calls
    have hhalves := (ihl (schedule.inside .left)).inTurn (ihr (schedule.inside .right))
      (schedule []) calls
    rw [listSort_of_long _ schedule calls hlong, halvingCost_of_long _ hlong,
      halvingCost_of_long _ hlong]
    generalize inTurn (schedule []) _ _ calls = halves at hlengths hhalves ⊢
    rw [hfront, hback] at hlengths
    -- The sorted halves are as long as the halves were, so this merge is one of those bounded.
    have hjoin := hmerge halves.1 halves.2.1 (by omega) (by omega) (by omega) halves.2.2
    have hall : halves.1.length + halves.2.1.length = xs.length := by omega
    rw [hall] at hjoin
    simp only
    omega

/-! ## Bounds -/

/-- How many calls a sort of `n` items can make. -/
structure CallBounds (n count : Nat) : Prop where
  /-- At most `n ⌈log₂ n⌉ - 2 ^ ⌈log₂ n⌉ + 1`. -/
  atMost : 1 ≤ n → count + 2 ^ Nat.clog 2 n ≤ n * Nat.clog 2 n + 1
  /-- The rougher bound that follows. -/
  atMostLog : count ≤ n * Nat.clog 2 n
  /-- At least the number of ones in the numbers below `n`. -/
  atLeast : ∑ i ∈ Finset.range n, popcount i ≤ count
  /-- None if there is at most one item. -/
  none : n ≤ 1 → count = 0

/-- The recursion with the cheapest and the dearest merges gives the bounds. -/
theorem CallBounds.of_halvingCost {n count : Nat} (hleast : halvingCost (· / 2) n ≤ count)
    (hmost : count ≤ halvingCost (· - 1) n) : CallBounds n count := by
  have hclosed : 1 ≤ n → count + 2 ^ Nat.clog 2 n ≤ n * Nat.clog 2 n + 1 := by
    intro hpos
    rw [← halvingCost_pred hpos]
    omega
  have hnone : n ≤ 1 → count = 0 := by
    intro hshort
    rw [halvingCost_of_short _ (by omega)] at hmost
    omega
  refine ⟨hclosed, ?_, by rw [← halvingCost_half]; exact hleast, hnone⟩
  by_cases hpos : 1 ≤ n
  · have hpower : 1 ≤ 2 ^ Nat.clog 2 n := Nat.one_le_two_pow
    have hbound := hclosed hpos
    omega
  · rw [hnone (by omega)]
    exact Nat.zero_le _

/-- Whatever the answers are, a sort of a list keeps to the bounds. -/
theorem listSort_callBounds (oracle : Oracle α) (schedule : Schedule) (xs : List α) :
    CallBounds xs.length (listSort oracle.comparator schedule xs #[]).2.size := by
  have hmerge : ∀ xs ys : List α, 1 ≤ ys.length → ys.length ≤ xs.length →
      xs.length ≤ ys.length + 1 →
      AsksBetween ((xs.length + ys.length) / 2) (xs.length + ys.length - 1)
        (listMerge oracle.comparator xs ys) := by
    intro xs ys _ hle hnear
    have hhalf : (xs.length + ys.length) / 2 = min xs.length ys.length := by omega
    rw [hhalf]
    exact listMerge_asksBetween oracle xs ys
  have hsort := listSort_asksBetween oracle (· / 2) (· - 1) hmerge schedule xs #[]
  rw [List.size_toArray, List.length_nil, Nat.zero_add, Nat.zero_add] at hsort
  exact .of_halvingCost hsort.1 hsort.2

/-- If every answer is "less", every merge is as cheap as can be. -/
theorem listSort_size_of_less (schedule : Schedule) (xs : List α) :
    (listSort (Oracle.constant .lt).comparator schedule xs #[]).2.size =
      ∑ i ∈ Finset.range xs.length, popcount i := by
  have hmerge : ∀ xs ys : List α, 1 ≤ ys.length → ys.length ≤ xs.length →
      xs.length ≤ ys.length + 1 →
      AsksBetween ((xs.length + ys.length) / 2) ((xs.length + ys.length) / 2)
        (listMerge (Oracle.constant .lt).comparator xs ys) := by
    intro xs ys hpos hle hnear calls
    rw [listMerge_size_of_less xs ys calls (by omega)]
    omega
  have hsort := listSort_asksBetween (.constant .lt) (· / 2) (· / 2) hmerge schedule xs #[]
  rw [List.size_toArray, List.length_nil, Nat.zero_add] at hsort
  rw [← halvingCost_half]
  omega

/-! ## Calls of the engines -/

/-- Every sort on admitted arguments, of a range and of a whole sequence and with both engines, ends
    well and makes a number of calls that the bound allows for its number of items. -/
def SortsWithin (bound : Nat → Nat → Prop) (oracle : Oracle α) (schedule : Schedule)
    (values : Array α) : Prop :=
  (∀ (low high : Nat) (scratch : Scratch α),
    (low < high → high < values.size ∧ (high - low + 2) / 2 ≤ scratch.left.size ∧
      (high - low + 1) / 2 ≤ scratch.right.size) →
    (∃ outcome, Sequential.sortRangeBy oracle.comparator low high ⟨values, scratch⟩ #[] =
        .ok outcome ∧ outcome.verdict = .ok () ∧ bound (high + 1 - low) outcome.memory.size) ∧
    ∃ outcome, ForkJoin.sortRangeBy oracle.comparator schedule low high ⟨values, scratch⟩ #[] =
      .ok outcome ∧ outcome.verdict = .ok () ∧ bound (high + 1 - low) outcome.memory.size) ∧
  (∃ sorted calls, Sequential.sortBy oracle.comparator values #[] = .ok (sorted, calls) ∧
    bound values.size calls.size) ∧
  ∃ sorted calls, ForkJoin.sortBy oracle.comparator schedule values #[] = .ok (sorted, calls) ∧
    bound values.size calls.size

/-- A range that is admitted is sorted as a list, or has at most one item and is left alone. -/
theorem rangeEffect_calls_within {bound : Nat → Nat → Prop} {oracle : Oracle α}
    (hidle : ∀ n, n ≤ 1 → bound n 0)
    (hsort : ∀ (schedule : Schedule) (xs : List α),
      bound xs.length (listSort oracle.comparator schedule xs #[]).2.size)
    (schedule : Schedule) (values : Array α) {low high leftLen rightLen : Nat}
    (hargs : low < high → high < values.size ∧ (high - low + 2) / 2 ≤ leftLen ∧
      (high - low + 1) / 2 ≤ rightLen) :
    bound (high + 1 - low)
      (rangeEffect oracle.comparator schedule low high values leftLen rightLen #[]).memory.size := by
  unfold rangeEffect
  by_cases hlow : low < high
  · obtain ⟨hhigh, hroom⟩ := hargs hlow
    rw [Admission.forRange_eq_ready_iff.mpr ⟨hlow, hhigh, hroom⟩, ← segment_length values low hhigh]
    exact hsort schedule (segment values low high)
  · rw [Admission.forRange_eq_idle_iff.mpr (by omega)]
    exact hidle _ (by omega)

/-- A bound on the calls of the sort on lists is one on the calls of both engines. -/
theorem sortsWithin_of_listSort {bound : Nat → Nat → Prop} {oracle : Oracle α}
    (hidle : ∀ n, n ≤ 1 → bound n 0)
    (hsort : ∀ (schedule : Schedule) (xs : List α),
      bound xs.length (listSort oracle.comparator schedule xs #[]).2.size)
    (schedule : Schedule) (values : Array α) (hfits : values.size < wordLimit) :
    SortsWithin bound oracle schedule values := by
  refine ⟨?_, ?_, ?_⟩
  · intro low high scratch hargs
    constructor
    · obtain ⟨after, -, hcall⟩ :=
        Sequential.sortRangeBy_hasEffect oracle.comparator low high values scratch #[] hfits
      exact ⟨_, hcall, (rangeEffect_accepted_iff _ _ values _).mpr hargs,
        rangeEffect_calls_within hidle hsort _ values hargs⟩
    · obtain ⟨after, -, hcall⟩ :=
        ForkJoin.sortRangeBy_hasEffect oracle.comparator schedule low high values scratch #[] hfits
      exact ⟨_, hcall, (rangeEffect_accepted_iff _ _ values _).mpr hargs,
        rangeEffect_calls_within hidle hsort _ values hargs⟩
  · exact ⟨_, _, Sequential.sortBy_eq_ok oracle.comparator values #[] hfits,
      hsort .leftFirst values.toList⟩
  · exact ⟨_, _, ForkJoin.sortBy_eq_ok oracle.comparator schedule values #[] hfits,
      hsort (schedule.forked values.size) values.toList⟩

/-- Whatever the oracle answers and whatever the schedule is, the calls of every sort keep to the
    bounds, and the oracle that always says "less" attains the lower one.

    The two halves of a fork may get their answers mixed in time. Each mix of answers is also given,
    half by half, by some oracle, so none is left out. -/
theorem sort_calls_within_bounds (oracle : Oracle α) (schedule : Schedule) (values : Array α)
    (hfits : values.size < wordLimit) :
    SortsWithin CallBounds oracle schedule values ∧
    SortsWithin (fun n count => count = ∑ i ∈ Finset.range n, popcount i) (.constant .lt) schedule
      values := by
  constructor
  · refine sortsWithin_of_listSort ?_ (listSort_callBounds oracle) schedule values hfits
    intro n hshort
    refine .of_halvingCost ?_ (Nat.zero_le _)
    rw [halvingCost_of_short _ (by omega)]
  · refine sortsWithin_of_listSort ?_ listSort_size_of_less schedule values hfits
    intro n hshort
    rw [← halvingCost_half, halvingCost_of_short _ (by omega)]

/-- Five items of six, with answers from a script that contradict each other: between five and eight
    calls, and five if the answer is always "less". -/
theorem sort_calls_within_bounds_script :
    let values := #[6, 1, 5, 2, 4, 3]
    let scratch : Scratch Nat := ⟨#[0, 0, 0], #[0, 0]⟩
    let oracle : Oracle Nat := .script #[.gt, .lt, .eq]
    values.size < wordLimit ∧
    (∃ outcome, Sequential.sortRangeBy oracle.comparator 1 5 ⟨values, scratch⟩ #[] = .ok outcome ∧
      outcome.verdict = .ok () ∧ 5 ≤ outcome.memory.size ∧ outcome.memory.size ≤ 8) ∧
    ∃ outcome, ForkJoin.sortRangeBy (Oracle.constant .lt).comparator .leftFirst 1 5
        ⟨values, scratch⟩ #[] = .ok outcome ∧
      outcome.verdict = .ok () ∧ outcome.memory.size = 5 := by
  intro values scratch oracle
  have hfits : values.size < wordLimit := by decide
  obtain ⟨hbounds, hleast⟩ := sort_calls_within_bounds oracle .leftFirst values hfits
  have hones : ∑ i ∈ Finset.range 5, popcount i = 5 := by
    rw [← halvingCost_half]
    simp [halvingCost]
  have hlog : Nat.clog 2 5 = 3 := by decide
  obtain ⟨outcome, hrun, hverdict, hcount⟩ := (hbounds.1 1 5 scratch (by decide)).1
  have hmost := hcount.atMost (by decide)
  have hfew := hcount.atLeast
  simp only [Nat.reduceAdd, Nat.reduceSub, hlog, hones] at hmost hfew
  refine ⟨hfits, ⟨outcome, hrun, hverdict, hfew, by omega⟩, ?_⟩
  obtain ⟨outcome', hrun', hverdict', hcount'⟩ := (hleast.1 1 5 scratch (by decide)).2
  exact ⟨outcome', hrun', hverdict', hcount'.trans hones⟩

end MicroBench
