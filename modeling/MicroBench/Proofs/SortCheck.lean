import MicroBench.Proofs.Bytes
import MicroBench.Proofs.StableSort
import MicroBench.Proofs.Step

/-! # The check of a sorted sequence

  A sorted sequence of integers is checked against a sort that is known to be right. There is only one
  way to put integers in ascending order, so this rejects nothing that is in order and made of the same
  integers, and it lets nothing else pass. The engines leave the very sequence that the check compares
  with, whatever the bytes were that the integers came from.

  - `stableSort_eq_mergeSort` says what the check compares with, for items of any type.
  - `checkSorted_iff` says which sequences pass.
  - `Engine.sortBy_natural` says what both engines leave.
  - `Engine.sortBy_passes` takes bytes through the decoder, an engine and the check.
  - `check_passes_on_sorted_only` is the result, for all pairs of lists and for all byte strings.
-/

namespace MicroBench

variable {α : Type} [Item α]

/-- The sort that the check relies on is the merge sort by the natural order. It asks whether an item
    is greater than the next one, merge sort whether the next one is less. -/
theorem stableSort_eq_mergeSort [Std.OrientedCmp (Item.order : α → α → Ordering)] (items : List α) :
    stableSort items = items.mergeSort (mayPrecede Item.order) := by
  unfold stableSort
  congr 1
  funext a b
  rw [Bool.eq_iff_iff, mayPrecede_iff, bne_iff_ne, Ne, Std.OrientedCmp.gt_iff_lt]

/-- Sorted by the natural order, a sequence is the one that the check compares with. -/
theorem Engine.sortBy_natural [Std.OrientedCmp (Item.order : α → α → Ordering)] (engine : Engine)
    (schedule : Schedule) (values : Array α) (hfits : values.size < wordLimit) :
    engine.sortBy naturalComparator schedule values () =
      .ok ((stableSort values.toList).toArray, ()) := by
  have hfollows : (naturalComparator : Comparator Unit α).Follows Item.order :=
    Comparator.ofOrder_follows Item.order
  rw [engine.sortBy_eq_ok naturalComparator schedule values () hfits, listSort_of_follows hfollows,
    stableSort_eq_mergeSort]

/-! ## Integers -/

instance : Std.TransCmp (Item.order : Int32 → Int32 → Ordering) :=
  inferInstanceAs (Std.TransCmp (compare : Int32 → Int32 → Ordering))

theorem stableSort_ascending (input : List Int32) : (stableSort input).Pairwise (· ≤ ·) := by
  rw [stableSort_eq_mergeSort]
  apply (List.pairwise_mergeSort mayPrecede_trans mayPrecede_total input).imp
  intro a b hab
  exact Int32.not_lt.mp fun hless => mayPrecede_iff.mp hab (Std.compare_eq_lt.mpr hless)

theorem stableSort_perm (input : List Int32) : (stableSort input).Perm input :=
  List.mergeSort_perm input _

/-- A sequence passes if it is in ascending order and has the integers of the input, each as often as
    the input has it. -/
theorem checkSorted_iff {input sorted : List Int32} :
    checkSorted input sorted = true ↔ sorted.Pairwise (· ≤ ·) ∧ sorted.Perm input := by
  unfold checkSorted
  rw [beq_iff_eq]
  constructor
  · rintro rfl
    exact ⟨stableSort_ascending input, stableSort_perm input⟩
  · rintro ⟨hascending, hperm⟩
    -- Both lists are ascending arrangements of the input, and integers that are not less than each
    -- other are the same.
    apply ((stableSort_perm input).trans hperm.symm).eq_of_pairwise _
      (stableSort_ascending input) hascending
    intro a b _ _ hab hba
    exact Int32.le_antisymm hab hba

/-- What an engine leaves of the integers of a byte string passes the check. -/
theorem Engine.sortBy_passes (engine : Engine) (schedule : Schedule) {bytes : List UInt8}
    (hfits : bytes.length < wordLimit) :
    ∃ sorted, engine.sortBy naturalComparator schedule (decodeIntegers bytes).toArray () =
        .ok (sorted, ()) ∧
      checkSorted (decodeIntegers bytes) sorted.toList = true := by
  have hsize : (decodeIntegers bytes).toArray.size < wordLimit := by
    rw [List.size_toArray, length_decodeIntegers]
    omega
  refine ⟨_, engine.sortBy_natural schedule _ hsize, ?_⟩
  exact checkSorted_iff.mpr ⟨stableSort_ascending _, stableSort_perm _⟩

/-- An engine that is put to the test is judged by what it leaves. -/
theorem trySort_of_sorted {engine : Engine} {schedule : Schedule} {bytes : List UInt8}
    {sorted : Array Int32}
    (hsorted : engine.sortBy naturalComparator schedule (decodeIntegers bytes).toArray () =
      .ok (sorted, ())) :
    trySort engine schedule bytes =
      .ok (sorted, checkSorted (decodeIntegers bytes) sorted.toList) := by
  unfold trySort
  simp only [hsorted, bind, Except.bind, pure, Except.pure]

/-- The check lets pass exactly the ascending arrangements of the input. Whatever the bytes are that the
    integers come from, and under every schedule, both engines sort them without a fault, the check
    passes on what they leave, and this is what putting the engine to the test reports. -/
theorem check_passes_on_sorted_only :
    (∀ input sorted : List Int32,
      checkSorted input sorted = true ↔ sorted.Pairwise (· ≤ ·) ∧ sorted.Perm input) ∧
    ∀ (engine : Engine) (schedule : Schedule) (bytes : List UInt8), bytes.length < wordLimit →
      ∃ sorted, engine.sortBy naturalComparator schedule (decodeIntegers bytes).toArray () =
          .ok (sorted, ()) ∧
        checkSorted (decodeIntegers bytes) sorted.toList = true ∧
        trySort engine schedule bytes = .ok (sorted, true) := by
  constructor
  · intro input sorted
    exact checkSorted_iff
  · intro engine schedule bytes hfits
    obtain ⟨sorted, hsorted, hpasses⟩ := engine.sortBy_passes schedule hfits
    refine ⟨sorted, hsorted, hpasses, ?_⟩
    rw [trySort_of_sorted hsorted, hpasses]

/-- Bytes for enough integers to be forked, with both engines. On four integers, the check tells the
    ascending order from the input's own, and from one that has lost an integer. -/
theorem check_passes_on_sorted_only_forked :
    let bytes := (List.range 20000).map fun i => UInt8.ofNat (i * i)
    let schedule : Schedule := fun path => if path.length % 2 = 0 then .right else .left
    bytes.length < wordLimit ∧ minForkLen ≤ (decodeIntegers bytes).length ∧
    (∃ sorted, Engine.forkJoin.sortBy naturalComparator schedule (decodeIntegers bytes).toArray () =
        .ok (sorted, ()) ∧
      checkSorted (decodeIntegers bytes) sorted.toList = true ∧
      trySort .forkJoin schedule bytes = .ok (sorted, true)) ∧
    (∃ sorted, Engine.sequential.sortBy naturalComparator schedule (decodeIntegers bytes).toArray () =
        .ok (sorted, ()) ∧
      checkSorted (decodeIntegers bytes) sorted.toList = true ∧
      trySort .sequential schedule bytes = .ok (sorted, true)) ∧
    checkSorted [3, -1, 3, 0] [-1, 0, 3, 3] = true ∧
    ¬ checkSorted [3, -1, 3, 0] [3, -1, 3, 0] = true ∧
    ¬ checkSorted [3, -1, 3, 0] [-1, 0, 0, 3] = true := by
  intro bytes schedule
  have hlen : bytes.length = 20000 := by rw [List.length_map, List.length_range]
  have hfits : bytes.length < wordLimit := by
    rw [hlen]
    decide
  have hforked : minForkLen ≤ (decodeIntegers bytes).length := by
    rw [length_decodeIntegers, hlen]
    decide
  obtain ⟨hcheck, hengines⟩ := check_passes_on_sorted_only
  refine ⟨hfits, hforked, hengines .forkJoin schedule bytes hfits,
    hengines .sequential schedule bytes hfits, ?_, ?_, ?_⟩
  · exact (hcheck _ _).mpr ⟨by decide, by decide⟩
  · intro hpass
    exact absurd ((hcheck _ _).mp hpass).1 (by decide)
  · intro hpass
    exact absurd ((hcheck _ _).mp hpass).2 (by decide)

end MicroBench
