import Mathlib.Order.Defs.Unbundled
import MicroBench.Proofs.Order
import MicroBench.Proofs.Sequential

/-! # The stable sort

  A list has at most one stable sort, whatever relation it is sorted by: the items of the sorted
  list remember where they stood, and two items that tie are told apart by these positions. If the
  relation is a strict weak order, merge sort finds it.

  - `IsStableSort` says what a stable sort is, without saying how to find it.
  - `IsStableSort.unique` holds for every relation, `mergeSort_isStableSort` for strict weak orders.
  - `IsStableSort.merge` puts the stable sorts of two lists together.
  - `sequential_sorts_stably` is the result for the sequential sort in place.
-/

namespace MicroBench

variable {σ α : Type}

/-! ## What a stable sort is -/

/-- `new` is the stable sort of `old`. Let `tagged` be the items of `new` with the positions where
    they stood in `old`: all items of `old` are there, none is less than one in front of it, and
    items of which neither is less stand in their old order. -/
def IsStableSort (less : α → α → Prop) (old new : List α) : Prop :=
  ∃ tagged : List (α × Nat), tagged.Perm old.zipIdx ∧ tagged.map Prod.fst = new ∧
    tagged.Pairwise fun a b => ¬ less b.1 a.1 ∧ (¬ less a.1 b.1 → a.2 < b.2)

/-- There is at most one stable sort, since the positions leave no ties. -/
theorem IsStableSort.unique {less : α → α → Prop} {old new₁ new₂ : List α}
    (h₁ : IsStableSort less old new₁) (h₂ : IsStableSort less old new₂) : new₁ = new₂ := by
  obtain ⟨tagged₁, hperm₁, hmap₁, hsorted₁⟩ := h₁
  obtain ⟨tagged₂, hperm₂, hmap₂, hsorted₂⟩ := h₂
  have heq : tagged₁ = tagged₂ := by
    refine List.Perm.eq_of_pairwise ?_ hsorted₁ hsorted₂ (hperm₁.trans hperm₂.symm)
    intro a b _ _ hab hba
    have hforth := hab.2 hba.1
    have hback := hba.2 hab.1
    omega
  rw [← hmap₁, ← hmap₂, heq]

/-- A list in which no item is less than one in front of it is its own stable sort. -/
theorem IsStableSort.of_sorted {less : α → α → Prop} {xs : List α}
    (hsorted : xs.Pairwise fun a b => ¬ less b a) : IsStableSort less xs xs := by
  have hitems : xs.zipIdx.Pairwise fun a b => ¬ less b.1 a.1 := by
    rw [← List.zipIdx_map_fst 0 xs, List.pairwise_map] at hsorted
    exact hsorted
  have hpositions : xs.zipIdx.Pairwise fun a b => a.2 < b.2 := by
    have hrange : (xs.zipIdx.map Prod.snd).Pairwise (· < ·) := by
      rw [List.zipIdx_map_snd]
      exact List.pairwise_lt_range' 1
    rw [List.pairwise_map] at hrange
    exact hrange
  refine ⟨xs.zipIdx, .refl _, List.zipIdx_map_fst 0 xs, ?_⟩
  exact (hitems.and hpositions).imp fun h => ⟨h.1, fun _ => h.2⟩

/-! ## Merge sort finds it -/

/-- The order says that the first item is less. -/
def Precedes (order : α → α → Ordering) (a b : α) : Prop := order a b = .lt

instance (order : α → α → Ordering) : DecidableRel (Precedes order) :=
  fun a b => inferInstanceAs (Decidable (order a b = .lt))

/-- Items in stable order are in the order that merge sort goes by when it is given the positions. -/
theorem zipIdxLE_of_stable {order : α → α → Ordering} {a b : α × Nat}
    (hstable : ¬ Precedes order b.1 a.1 ∧ (¬ Precedes order a.1 b.1 → a.2 < b.2)) :
    List.zipIdxLE (mayPrecede order) a b = true := by
  unfold List.zipIdxLE
  rw [if_pos (mayPrecede_iff.mpr hstable.1)]
  by_cases hba : mayPrecede order b.1 a.1 = true
  · rw [if_pos hba, decide_eq_true_eq]
    exact Nat.le_of_lt (hstable.2 (mayPrecede_iff.mp hba))
  · rw [if_neg hba]

/-- The converse needs different positions. -/
theorem stable_of_zipIdxLE {order : α → α → Ordering} {a b : α × Nat}
    (hle : List.zipIdxLE (mayPrecede order) a b = true) (hne : a.2 ≠ b.2) :
    ¬ Precedes order b.1 a.1 ∧ (¬ Precedes order a.1 b.1 → a.2 < b.2) := by
  unfold List.zipIdxLE at hle
  split at hle
  · next hab =>
    refine ⟨mayPrecede_iff.mp hab, fun htie => ?_⟩
    rw [if_pos (mayPrecede_iff.mpr htie), decide_eq_true_eq] at hle
    omega
  · exact absurd hle Bool.false_ne_true

/-- No two items of a list stood at one position. -/
theorem positions_distinct {tagged : List (α × Nat)} {old : List α}
    (hperm : tagged.Perm old.zipIdx) : tagged.Pairwise fun a b => a.2 ≠ b.2 := by
  have hnodup : (old.zipIdx.map Prod.snd).Nodup := by
    rw [List.zipIdx_map_snd]
    exact List.nodup_range'
  rw [List.Nodup, List.pairwise_map] at hnodup
  exact hperm.symm.pairwise hnodup Ne.symm

section

variable {order : α → α → Ordering} [IsStrictWeakOrder α (Precedes order)]

theorem mayPrecede_total (a b : α) : (mayPrecede order a b || mayPrecede order b a) = true := by
  rw [Bool.or_eq_true, mayPrecede_iff, mayPrecede_iff]
  by_cases hba : order b a = .lt
  · right
    intro hab
    have hloop : Precedes order a a := IsTrans.trans a b a hab hba
    exact Std.Irrefl.irrefl a hloop
  · exact Or.inl hba

theorem mayPrecede_trans (a b c : α) (hab : mayPrecede order a b = true)
    (hbc : mayPrecede order b c = true) : mayPrecede order a c = true := by
  rw [mayPrecede_iff] at hab hbc ⊢
  intro hca
  -- Neither pair can be told apart by the order, so `c` and `a` cannot either.
  have hab' : ¬ Precedes order a b := fun h => hbc (IsTrans.trans c a b hca h)
  have hbc' : ¬ Precedes order b c := fun h => hab (IsTrans.trans b c a h hca)
  exact (IsStrictWeakOrder.incomp_trans a b c ⟨hab', hab⟩ ⟨hbc', hbc⟩).2 hca

/-- Merge sort gives the stable sort. -/
theorem mergeSort_isStableSort (xs : List α) :
    IsStableSort (Precedes order) xs (xs.mergeSort (mayPrecede order)) := by
  refine ⟨xs.zipIdx.mergeSort (List.zipIdxLE (mayPrecede order)), List.mergeSort_perm _ _,
    List.mergeSort_zipIdx, ?_⟩
  have hsorted : (xs.zipIdx.mergeSort (List.zipIdxLE (mayPrecede order))).Pairwise
      fun a b => List.zipIdxLE (mayPrecede order) a b = true :=
    List.pairwise_mergeSort (List.zipIdxLE_trans mayPrecede_trans)
      (List.zipIdxLE_total mayPrecede_total) xs.zipIdx
  have hdistinct :=
    positions_distinct (List.mergeSort_perm xs.zipIdx (List.zipIdxLE (mayPrecede order)))
  refine (hsorted.and hdistinct).imp ?_
  intro a b ⟨hle, hne⟩
  exact stable_of_zipIdxLE hle hne

/-- What merge sort gives is the only stable sort. -/
theorem isStableSort_iff_mergeSort {old new : List α} :
    IsStableSort (Precedes order) old new ↔ old.mergeSort (mayPrecede order) = new := by
  constructor
  · intro h
    exact (mergeSort_isStableSort old).unique h
  · rintro rfl
    exact mergeSort_isStableSort old

/-- The merge of two stable sorts is the stable sort of both lists, one behind the other. Every
    position in the second list comes after those in the first, and ties go to the first. -/
theorem IsStableSort.merge {xs ys xs' ys' : List α} (hxs : IsStableSort (Precedes order) xs xs')
    (hys : IsStableSort (Precedes order) ys ys') :
    IsStableSort (Precedes order) (xs ++ ys) (xs'.merge ys' (mayPrecede order)) := by
  obtain ⟨front, hfrontPerm, rfl, hfront⟩ := hxs
  obtain ⟨back, hbackPerm, rfl, hback⟩ := hys
  -- The positions of the second list go on where those of the first one end.
  obtain ⟨shifted, hshifted⟩ : ∃ shifted : List (α × Nat),
      shifted = back.map fun a => (a.1, xs.length + a.2) := ⟨_, rfl⟩
  have hshiftedPerm : shifted.Perm (ys.zipIdx xs.length) := by
    rw [hshifted, List.zipIdx_eq_map_add]
    exact hbackPerm.map _
  have hshiftedItems : shifted.map Prod.fst = back.map Prod.fst := by
    rw [hshifted, List.map_map]
    rfl
  have hshiftedSorted : shifted.Pairwise fun a b =>
      ¬ Precedes order b.1 a.1 ∧ (¬ Precedes order a.1 b.1 → a.2 < b.2) := by
    rw [hshifted, List.pairwise_map]
    refine hback.imp ?_
    intro a b hab
    exact ⟨hab.1, fun htie => Nat.add_lt_add_left (hab.2 htie) xs.length⟩
  have happart : ∀ a b, a ∈ front → b ∈ shifted → a.2 ≤ b.2 := by
    intro a b ha hb
    have ha' := List.snd_lt_of_mem_zipIdx (hfrontPerm.mem_iff.mp ha)
    have hb' := List.le_snd_of_mem_zipIdx (hshiftedPerm.mem_iff.mp hb)
    omega
  have hperm : (front.merge shifted (List.zipIdxLE (mayPrecede order))).Perm (xs ++ ys).zipIdx := by
    rw [List.zipIdx_append, Nat.zero_add]
    exact (List.merge_perm_append _).trans (hfrontPerm.append hshiftedPerm)
  refine ⟨_, hperm, ?_, ?_⟩
  · rw [List.merge_stable front shifted happart, hshiftedItems]
  · -- Stable order is total and transitive, so merging keeps it.
    have hmerged : (front.merge shifted (List.zipIdxLE (mayPrecede order))).Pairwise
        fun a b => List.zipIdxLE (mayPrecede order) a b = true :=
      List.pairwise_merge (List.zipIdxLE_trans mayPrecede_trans)
        (List.zipIdxLE_total mayPrecede_total) front shifted (hfront.imp zipIdxLE_of_stable)
        (hshiftedSorted.imp zipIdxLE_of_stable)
    refine (hmerged.and (positions_distinct hperm)).imp ?_
    intro a b ⟨hle, hne⟩
    exact stable_of_zipIdxLE hle hne

end

/-- Two items of which a comparison puts neither first are equal to it. -/
theorem eq_of_incomparable {order : α → α → Ordering} [Std.OrientedCmp order] {a b : α}
    (h : ¬ Precedes order a b ∧ ¬ Precedes order b a) : order a b = .eq := by
  cases hab : order a b with
  | lt => exact absurd hab h.1
  | eq => rfl
  | gt => exact absurd (Std.OrientedCmp.gt_iff_lt.mp hab) h.2

/-- A transitive comparison is a strict weak order. -/
instance precedes_isStrictWeakOrder (order : α → α → Ordering) [Std.TransCmp order] :
    IsStrictWeakOrder α (Precedes order) where
  irrefl a h := by
    have hself : order a a = .eq := Std.ReflCmp.compare_self
    exact absurd (hself.symm.trans h) (by decide)
  trans _ _ _ hab hbc := Std.TransCmp.lt_trans hab hbc
  incomp_trans a b c hab hbc := by
    have hac : order a c = .eq :=
      Std.TransCmp.eq_trans (eq_of_incomparable hab) (eq_of_incomparable hbc)
    have hca : order c a = .eq := Std.OrientedCmp.eq_symm hac
    simp [Precedes, hac, hca]

/-! ## The sort in place -/

/-- The sequential sort replaces a range by its stable sort, and nothing else; the buffers may hold
    anything, as long as the halves of the range fit. The sort of a whole sequence does the same to
    all of it. -/
theorem sequential_sorts_stably (order : α → α → Ordering)
    [IsStrictWeakOrder α (Precedes order)] (values : Array α) (hfits : values.size < wordLimit)
    (memory : σ) :
    (∀ (low high n : Nat) (scratch : Scratch α), low ≤ high → high < values.size →
      n = high - low + 1 → (n + 1) / 2 ≤ scratch.left.size → n / 2 ≤ scratch.right.size →
      ∃ sorted : Workspace α,
        Sequential.sortRangeBy (.ofOrder order) low high ⟨values, scratch⟩ memory =
          .ok ⟨.ok (), sorted, memory⟩ ∧
        sorted.values.size = values.size ∧
        sorted.values.extract 0 low = values.extract 0 low ∧
        sorted.values.extract (high + 1) = values.extract (high + 1) ∧
        ∀ items, IsStableSort (Precedes order) (segment values low high) items ↔
          segment sorted.values low high = items) ∧
    ∃ sorted : Array α,
      Sequential.sortBy (.ofOrder order) values memory = .ok (sorted, memory) ∧
      ∀ items, IsStableSort (Precedes order) values.toList items ↔ sorted.toList = items := by
  constructor
  · intro low high n scratch hlow hhigh hn hleft hright
    subst hn
    obtain ⟨after, -, hcall⟩ := Sequential.sortRangeBy_hasEffect (.ofOrder order) low high values
      scratch memory hfits
    rw [rangeEffect_of_room _ _ values memory hlow hhigh hleft hright, listSort_ofOrder_memory]
      at hcall
    have hlen : (listSort (.ofOrder order) .leftFirst (segment values low high) memory).1.length =
        high + 1 - low := by
      rw [listSort_length, segment_length values low hhigh]
    refine ⟨_, hcall, ?_, ?_, ?_, ?_⟩
    · exact splice_size values (by omega) hhigh hlen
    · exact splice_before values (by omega) hhigh
    · exact splice_behind values (by omega) hhigh hlen
    · intro items
      rw [segment_splice values (by omega) hhigh hlen,
        listSort_of_follows (Comparator.ofOrder_follows order)]
      exact isStableSort_iff_mergeSort
  · have hcall := Sequential.sortBy_eq_ok (.ofOrder order) values memory hfits
    rw [listSort_ofOrder_memory, listSort_of_follows (Comparator.ofOrder_follows order)] at hcall
    exact ⟨_, hcall, fun items => isStableSort_iff_mergeSort⟩

/-- Pairs that tie in their first component, sorted by it: a range of three pairs with the
    shortest buffers that will do, and all pairs. -/
theorem sequential_sorts_stably_pairs :
    let values : Array (Nat × Nat) := #[(2, 0), (1, 1), (2, 2), (1, 3)]
    let scratch : Scratch (Nat × Nat) := ⟨#[(7, 7), (8, 8)], #[(9, 9)]⟩
    let order := compareOn (Prod.fst : Nat × Nat → Nat)
    (∃ sorted : Workspace (Nat × Nat),
      Sequential.sortRangeBy (.ofOrder order) 1 3 ⟨values, scratch⟩ () =
        .ok ⟨.ok (), sorted, ()⟩ ∧
      sorted.values.size = values.size ∧
      sorted.values.extract 0 1 = values.extract 0 1 ∧
      sorted.values.extract 4 = values.extract 4 ∧
      ∀ items, IsStableSort (Precedes order) (segment values 1 3) items ↔
        segment sorted.values 1 3 = items) ∧
    ∃ sorted : Array (Nat × Nat),
      Sequential.sortBy (.ofOrder order) values () = .ok (sorted, ()) ∧
      ∀ items, IsStableSort (Precedes order) values.toList items ↔ sorted.toList = items := by
  intro values scratch order
  have hweak : IsStrictWeakOrder (Nat × Nat) (Precedes order) := precedes_isStrictWeakOrder order
  have hall := sequential_sorts_stably order values (by decide) ()
  exact ⟨hall.1 1 3 3 scratch (by decide) (by decide) rfl (by decide) (by decide), hall.2⟩

end MicroBench
