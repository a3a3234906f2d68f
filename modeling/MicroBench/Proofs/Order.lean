import MicroBench.Proofs.Listwise

/-! # Comparators that follow an order

  A comparator follows an order if it answers every call as the order does, whatever it remembers.
  Nothing is asked of the order: it may contradict itself.

  - `listSort_of_follows`: the sorted list is then `List.mergeSort`, under every schedule.
  - `listSort_calls`: the calls are then the same under every schedule, apart from their order.
-/

namespace MicroBench

variable {σ α : Type}

/-- The comparator answers every call as the order does. -/
def Comparator.Follows (compare : Comparator σ α) (order : α → α → Ordering) : Prop :=
  ∀ a b memory, (compare a b memory).1 = order a b

theorem Comparator.ofOrder_follows (order : α → α → Ordering) :
    (Comparator.ofOrder order : Comparator σ α).Follows order := fun _ _ _ => rfl

theorem Oracle.ofOrder_follows (order : α → α → Ordering) :
    (Oracle.ofOrder order).comparator.Follows order := fun _ _ _ => rfl

/-- Tells whether the first item may stay in front of the second one: the second is not less. -/
def mayPrecede (order : α → α → Ordering) (a b : α) : Bool := order b a != .lt

theorem mayPrecede_iff {order : α → α → Ordering} {a b : α} :
    mayPrecede order a b = true ↔ ¬ order b a = .lt := by
  simp [mayPrecede]

/-! ## Values -/

section

variable {compare : Comparator σ α} {order : α → α → Ordering}

theorem listMerge_of_follows (hfollows : compare.Follows order) (xs ys : List α) (memory : σ) :
    (listMerge compare xs ys memory).1 = xs.merge ys (mayPrecede order) := by
  fun_induction listMerge compare xs ys memory with
  | case1 ys memory => rw [List.nil_merge]
  | case2 x xs memory => rw [List.merge_right]
  | case3 x xs y ys memory hless rest ih =>
    rw [hfollows y x memory] at hless
    have hright : ¬ mayPrecede order x y = true := by simp [mayPrecede_iff, hless]
    rw [List.cons_merge_cons_neg _ _ _ hright, ih]
  | case4 x xs y ys memory hless rest ih =>
    rw [hfollows y x memory] at hless
    have hleft : mayPrecede order x y = true := mayPrecede_iff.mpr hless
    rw [List.cons_merge_cons_pos _ _ _ hleft, ih]

/-- A merge sort cuts its list behind the longer half. -/
theorem mergeSort_of_long (le : α → α → Bool) {xs : List α} (hlong : ¬ xs.length < 2) :
    xs.mergeSort le = ((xs.take (xs.length - xs.length / 2)).mergeSort le).merge
      ((xs.drop (xs.length - xs.length / 2)).mergeSort le) le := by
  match xs, hlong with
  | [], hlong => exact absurd (by simp) hlong
  | [_], hlong => exact absurd (by simp) hlong
  | a :: b :: rest, _ =>
    have hcut : ((a :: b :: rest).length + 1) / 2 =
        (a :: b :: rest).length - (a :: b :: rest).length / 2 := by omega
    rw [← hcut, List.mergeSort]
    simp only [List.MergeSort.Internal.splitInTwo_fst, List.MergeSort.Internal.splitInTwo_snd]

theorem listSort_of_follows (hfollows : compare.Follows order) (schedule : Schedule)
    (xs : List α) (memory : σ) :
    (listSort compare schedule xs memory).1 = xs.mergeSort (mayPrecede order) := by
  induction xs using halving_induction generalizing schedule memory with
  | short xs hshort =>
    rw [listSort_of_short compare schedule memory hshort]
    match xs, hshort with
    | [], _ => rw [List.mergeSort_nil]
    | [a], _ => rw [List.mergeSort_singleton]
  | long xs hlong ihl ihr =>
    rw [listSort_of_long compare schedule memory hlong, mergeSort_of_long _ hlong]
    simp only [listMerge_of_follows hfollows]
    cases schedule [] with
    | left => simp only [inTurn, ihl, ihr]
    | right => simp only [inTurn, ihl, ihr]

end

/-! ## Memory -/

theorem listMerge_ofOrder_memory (order : α → α → Ordering) (xs ys : List α) (memory : σ) :
    (listMerge (.ofOrder order) xs ys memory).2 = memory := by
  fun_induction listMerge (.ofOrder order) xs ys memory with
  | case1 ys memory => rfl
  | case2 x xs memory => rfl
  | case3 x xs y ys memory hless rest ih => exact ih
  | case4 x xs y ys memory hless rest ih => exact ih

theorem listSort_ofOrder_memory (order : α → α → Ordering) (schedule : Schedule) (xs : List α)
    (memory : σ) : (listSort (.ofOrder order) schedule xs memory).2 = memory := by
  induction xs using halving_induction generalizing schedule memory with
  | short xs hshort => rw [listSort_of_short _ schedule memory hshort]
  | long xs hlong ihl ihr =>
    rw [listSort_of_long _ schedule memory hlong]
    simp only [listMerge_ofOrder_memory]
    cases schedule [] with
    | left => simp only [inTurn, ihl, ihr]
    | right => simp only [inTurn, ihl, ihr]

/-! ## Calls -/

/-- The calls that a merge makes if the answers follow an order. -/
def mergeCalls (order : α → α → Ordering) : List α → List α → List (α × α)
  | [], _ => []
  | _ :: _, [] => []
  | x :: xs, y :: ys =>
    (y, x) :: if order y x = .lt then mergeCalls order (x :: xs) ys
      else mergeCalls order xs (y :: ys)
termination_by xs ys => xs.length + ys.length

/-- The calls that a sort makes if the answers follow an order, the left half first. -/
def sortCalls (order : α → α → Ordering) (xs : List α) : List (α × α) :=
  if xs.length < 2 then []
  else
    sortCalls order (xs.take (xs.length - xs.length / 2)) ++
      sortCalls order (xs.drop (xs.length - xs.length / 2)) ++
      mergeCalls order ((xs.take (xs.length - xs.length / 2)).mergeSort (mayPrecede order))
        ((xs.drop (xs.length - xs.length / 2)).mergeSort (mayPrecede order))
termination_by xs.length
decreasing_by
  all_goals
    simp only [List.length_take, List.length_drop]
    omega

theorem listMerge_calls (order : α → α → Ordering) (xs ys : List α) (calls : CallLog α) :
    (listMerge (Oracle.ofOrder order).comparator xs ys calls).2.toList =
      calls.toList ++ mergeCalls order xs ys := by
  fun_induction listMerge (Oracle.ofOrder order).comparator xs ys calls with
  | case1 ys calls => simp [mergeCalls]
  | case2 x xs calls => simp [mergeCalls]
  | case3 x xs y ys calls hless rest ih =>
    have hless' : order y x = .lt := hless
    rw [mergeCalls, if_pos hless', ih]
    simp [Oracle.comparator]
  | case4 x xs y ys calls hless rest ih =>
    have hless' : ¬ order y x = .lt := hless
    rw [mergeCalls, if_neg hless', ih]
    simp [Oracle.comparator]

/-- Whichever half comes first, a sort adds the same calls to the log. -/
theorem listSort_calls (order : α → α → Ordering) (schedule : Schedule) (xs : List α)
    (calls : CallLog α) :
    (listSort (Oracle.ofOrder order).comparator schedule xs calls).2.toList.Perm
      (calls.toList ++ sortCalls order xs) := by
  induction xs using halving_induction generalizing schedule calls with
  | short xs hshort =>
    rw [listSort_of_short _ schedule calls hshort, sortCalls, if_pos hshort, List.append_nil]
  | long xs hlong ihl ihr =>
    rw [listSort_of_long _ schedule calls hlong, sortCalls, if_neg hlong]
    simp only [listMerge_calls, ← List.append_assoc]
    cases schedule [] with
    | left =>
      simp only [inTurn, listSort_of_follows (Oracle.ofOrder_follows order)]
      exact ((ihr _ _).trans ((ihl _ _).append_right _)).append_right _
    | right =>
      simp only [inTurn, listSort_of_follows (Oracle.ofOrder_follows order)]
      -- The right half has made its calls first.
      refine ((ihl _ _).trans (((ihr _ _).append_right _).trans ?_)).append_right _
      rw [List.append_assoc, List.append_assoc]
      exact List.perm_append_comm.append_left _

end MicroBench
