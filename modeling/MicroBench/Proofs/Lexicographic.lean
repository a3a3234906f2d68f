import Mathlib.Order.RelClasses
import MicroBench.Proofs.StableSort
import MicroBench.Proofs.Step

/-! # Sorting by two criteria

  Items can be sorted by one criterion and, where that finds no difference, by another. There is a way
  that needs no combined comparator: sort by the second criterion first and by the first one then. The
  last sort does not disturb the order of items that tie in it, so it keeps what the sort before it
  did.

  - `IsStableSort.pairwise` says what a stable sort keeps of the list that it was given, and
    `IsStableSort.carry` that it can take other data along.
  - `IsStableSort.andThen` puts two stable sorts together to one by both criteria.
  - `compareLex_isStrictWeakOrder` says that both criteria together are a strict weak order again.
  - `two_sorts_agree_with_lexicographic` compares the two ways, with any engines.
-/

namespace MicroBench

variable {σ σ₁ σ₂ α : Type}

/-! ## What a stable sort keeps -/

theorem IsStableSort.perm {less : α → α → Prop} {old new : List α}
    (hstable : IsStableSort less old new) : new.Perm old := by
  obtain ⟨tagged, hperm, rfl, -⟩ := hstable
  have hitems := hperm.map Prod.fst
  rw [List.zipIdx_map_fst] at hitems
  exact hitems

/-- What held of all pairs of a list still holds, after a stable sort, of the pairs that tie. -/
theorem IsStableSort.pairwise {less related : α → α → Prop} {old new : List α}
    (hstable : IsStableSort less old new) (hold : old.Pairwise related) :
    new.Pairwise fun a b => ¬ less b a ∧ (¬ less a b → related a b) := by
  obtain ⟨tagged, hperm, rfl, hsorted⟩ := hstable
  rw [List.pairwise_map]
  apply hsorted.imp_of_mem
  intro a b ha hb hab
  refine ⟨hab.1, ?_⟩
  intro htie
  -- Both items stood in the old list at the positions that they carry, the first one in front.
  have hbefore : a.2 < b.2 := hab.2 htie
  have ha' := List.mem_zipIdx_iff_getElem?.mp (hperm.mem_iff.mp ha)
  have hb' := List.mem_zipIdx_iff_getElem?.mp (hperm.mem_iff.mp hb)
  obtain ⟨hi, hia⟩ := List.getElem?_eq_some_iff.mp ha'
  obtain ⟨hj, hjb⟩ := List.getElem?_eq_some_iff.mp hb'
  have hpair := List.pairwise_iff_getElem.mp hold a.2 b.2 hi hj hbefore
  rw [hia, hjb] at hpair
  exact hpair

/-- A stable sort of items that belong to something can be made to carry along what they belong to. -/
theorem IsStableSort.carry {β : Type} {owned : β → α} {order : α → α → Ordering}
    [IsStrictWeakOrder α (Precedes order)] {owners : List β} {new : List α}
    (hstable : IsStableSort (Precedes order) (owners.map owned) new) :
    ∃ moved : List β, moved.map owned = new ∧
      IsStableSort (Precedes fun a b => order (owned a) (owned b)) owners moved := by
  have hweak : IsStrictWeakOrder β (Precedes fun a b => order (owned a) (owned b)) :=
    inferInstanceAs (IsStrictWeakOrder β (Order.Preimage owned (Precedes order)))
  rw [isStableSort_iff_mergeSort] at hstable
  refine ⟨owners.mergeSort (mayPrecede fun a b => order (owned a) (owned b)), ?_, ?_⟩
  · rw [← hstable]
    apply List.map_mergeSort
    intro a _ b _
    rfl
  · exact mergeSort_isStableSort owners

/-! ## Both criteria at once -/

/-- The order answers that two items are equal exactly if it puts neither of them first. -/
def EqualOnTies (order : α → α → Ordering) : Prop :=
  ∀ a b, order a b = .eq ↔ ¬ Precedes order a b ∧ ¬ Precedes order b a

/-- A comparison whose two directions fit together calls ties equal. -/
theorem equalOnTies_of_oriented (order : α → α → Ordering) [Std.OrientedCmp order] :
    EqualOnTies order := by
  intro a b
  constructor
  · intro hequal
    have hback : order b a = .eq := Std.OrientedCmp.eq_symm hequal
    simp [Precedes, hequal, hback]
  · intro htie
    exact eq_of_incomparable htie

section

variable {first second : α → α → Ordering}

theorem precedes_compareLex {a b : α} :
    Precedes (compareLex first second) a b ↔
      Precedes first a b ∨ first a b = .eq ∧ Precedes second a b := Ordering.then_eq_lt

/-- By both criteria, an item may stay in front of another one if it may by the first criterion and, in
    case of a tie, also by the second one. -/
theorem not_precedes_compareLex (hties : EqualOnTies first) {a b : α} :
    ¬ Precedes (compareLex first second) b a ↔
      ¬ Precedes first b a ∧ (¬ Precedes first a b → ¬ Precedes second b a) := by
  rw [precedes_compareLex, hties b a, not_or]
  apply and_congr_right
  intro hba
  constructor
  · intro hnot hab hless
    exact hnot ⟨⟨hba, hab⟩, hless⟩
  · rintro hnot ⟨htie, hless⟩
    exact hnot htie.2 hless

/-- A relation is a strict weak order if no two items precede each other, and if an item that may stay in
    front of a second one, which may stay in front of a third one, may stay in front of the third. -/
theorem isStrictWeakOrder_of_asymm {less : α → α → Prop}
    (hasymm : ∀ a b, less a b → ¬ less b a)
    (htrans : ∀ a b c, ¬ less b a → ¬ less c b → ¬ less c a) : IsStrictWeakOrder α less where
  irrefl a haa := hasymm a a haa haa
  trans a b c hab hbc := by
    by_contra hac
    exact htrans b c a (hasymm b c hbc) hac hab
  incomp_trans a b c hab hbc :=
    ⟨htrans c b a hbc.1 hab.1, htrans a b c hab.2 hbc.2⟩

theorem not_precedes_trans [IsStrictWeakOrder α (Precedes first)] {a b c : α}
    (hab : ¬ Precedes first b a) (hbc : ¬ Precedes first c b) : ¬ Precedes first c a :=
  mayPrecede_iff.mp (mayPrecede_trans a b c (mayPrecede_iff.mpr hab) (mayPrecede_iff.mpr hbc))

variable [IsStrictWeakOrder α (Precedes first)]

/-- Two strict weak orders, one for the ties of the other, make a strict weak order. -/
theorem compareLex_isStrictWeakOrder [IsStrictWeakOrder α (Precedes second)]
    (hties : EqualOnTies first) : IsStrictWeakOrder α (Precedes (compareLex first second)) := by
  apply isStrictWeakOrder_of_asymm
  · intro a b hab
    rw [not_precedes_compareLex hties]
    rcases precedes_compareLex.mp hab with hless | ⟨hequal, hless⟩
    · exact ⟨asymm hless, fun htie => absurd hless htie⟩
    · exact ⟨((hties a b).mp hequal).2, fun _ => asymm hless⟩
  · intro a b c hab hbc
    rw [not_precedes_compareLex hties] at *
    refine ⟨not_precedes_trans hab.1 hbc.1, ?_⟩
    -- If the outer two items tie in the first criterion, so does the one between them with both.
    intro hca
    have hba : ¬ Precedes first a b := not_precedes_trans hbc.1 hca
    have hcb : ¬ Precedes first b c := not_precedes_trans hca hab.1
    exact not_precedes_trans (hab.2 hba) (hbc.2 hcb)

/-- A stable sort by the second criterion and then one by the first make a stable sort by both. -/
theorem IsStableSort.andThen (hties : EqualOnTies first) {old between new : List α}
    (hsecond : IsStableSort (Precedes second) old between)
    (hfirst : IsStableSort (Precedes first) between new) :
    IsStableSort (Precedes (compareLex first second)) old new := by
  obtain ⟨tagged, hperm, rfl, hsorted⟩ := hsecond
  -- The last sort carries along the positions that the items had in the old list.
  obtain ⟨moved, hmoved, hcarried⟩ := hfirst.carry
  refine ⟨moved, hcarried.perm.trans hperm, hmoved, ?_⟩
  apply (hcarried.pairwise hsorted).imp
  intro a b hab
  have hfront : ¬ Precedes first b.1 a.1 := hab.1
  have htied : ¬ Precedes first a.1 b.1 →
      ¬ Precedes second b.1 a.1 ∧ (¬ Precedes second a.1 b.1 → a.2 < b.2) := hab.2
  rw [not_precedes_compareLex hties, not_precedes_compareLex hties]
  constructor
  · exact ⟨hfront, fun htie => (htied htie).1⟩
  · intro htie
    exact (htied htie.1).2 (htie.2 hfront)

end

/-! ## The engines -/

/-- The sort of a whole sequence leaves its stable sort. -/
theorem Engine.sortBy_stable {compare : Comparator σ α} {order : α → α → Ordering}
    [IsStrictWeakOrder α (Precedes order)] (hfollows : compare.Follows order) (engine : Engine)
    (schedule : Schedule) (values : Array α) (hfits : values.size < wordLimit) (memory : σ) :
    ∃ sorted : Array α × σ, engine.sortBy compare schedule values memory = .ok sorted ∧
      IsStableSort (Precedes order) values.toList sorted.1.toList := by
  refine ⟨_, engine.sortBy_eq_ok compare schedule values memory hfits, ?_⟩
  rw [listSort_of_follows hfollows]
  exact mergeSort_isStableSort values.toList

/-- A sort by the second criterion followed by a sort by the first one leaves what a single sort by both
    leaves: the stable sort by the lexicographic order. Each of the three sorts may use any engine, any
    schedule and a comparator with a memory of its own. -/
theorem two_sorts_agree_with_lexicographic (first second : α → α → Ordering)
    [IsStrictWeakOrder α (Precedes first)] [IsStrictWeakOrder α (Precedes second)]
    (hties : EqualOnTies first) {compare₁ : Comparator σ₁ α} {compare₂ : Comparator σ₂ α}
    {compareBoth : Comparator σ α} (hfirst : compare₁.Follows first)
    (hsecond : compare₂.Follows second) (hboth : compareBoth.Follows (compareLex first second))
    (engine₁ engine₂ engine : Engine) (schedule₁ schedule₂ schedule : Schedule) (values : Array α)
    (hfits : values.size < wordLimit) (memory₁ : σ₁) (memory₂ : σ₂) (memory : σ) :
    ∃ (between : Array α × σ₂) (last : Array α × σ₁) (once : Array α × σ),
      engine₂.sortBy compare₂ schedule₂ values memory₂ = .ok between ∧
      engine₁.sortBy compare₁ schedule₁ between.1 memory₁ = .ok last ∧
      engine.sortBy compareBoth schedule values memory = .ok once ∧
      last.1 = once.1 ∧
      IsStableSort (Precedes (compareLex first second)) values.toList once.1.toList := by
  have hlex : IsStrictWeakOrder α (Precedes (compareLex first second)) :=
    compareLex_isStrictWeakOrder hties
  obtain ⟨between, hbetween, hstable₂⟩ :=
    engine₂.sortBy_stable hsecond schedule₂ values hfits memory₂
  have hsize : between.1.size = values.size := hstable₂.perm.length_eq
  obtain ⟨last, hlast, hstable₁⟩ :=
    engine₁.sortBy_stable hfirst schedule₁ between.1 (by omega) memory₁
  obtain ⟨once, honce, hstable⟩ := engine.sortBy_stable hboth schedule values hfits memory
  -- A list has only one stable sort by an order, however it was reached.
  have hsame : last.1 = once.1 :=
    Array.toList_inj.mp ((hstable₂.andThen hties hstable₁).unique hstable)
  exact ⟨between, last, once, hbetween, hlast, honce, hsame, hstable⟩

/-- Five pairs by their first component and then by the tens of the second one. Two of them tie in
    both, and keep their order. -/
theorem two_sorts_agree_with_lexicographic_tens :
    let values : Array (Nat × Nat) := #[(2, 13), (1, 25), (2, 12), (1, 21), (2, 5)]
    let first := compareOn (Prod.fst : Nat × Nat → Nat)
    let second := compareOn fun a : Nat × Nat => a.2 / 10
    ∃ (between last once : Array (Nat × Nat) × Unit),
      Sequential.sortBy (.ofOrder second) values () = .ok between ∧
      ForkJoin.sortBy (.ofOrder first) .leftFirst between.1 () = .ok last ∧
      Sequential.sortBy (.ofOrder (compareLex first second)) values () = .ok once ∧
      last.1 = once.1 ∧ once.1.toList = [(1, 25), (1, 21), (2, 5), (2, 13), (2, 12)] := by
  intro values first second
  have hfirst : IsStrictWeakOrder (Nat × Nat) (Precedes first) := precedes_isStrictWeakOrder first
  have hsecond : IsStrictWeakOrder (Nat × Nat) (Precedes second) :=
    precedes_isStrictWeakOrder second
  obtain ⟨between, last, once, hbetween, hlast, honce, hsame, hstable⟩ :=
    two_sorts_agree_with_lexicographic first second (equalOnTies_of_oriented first)
      (Comparator.ofOrder_follows first) (Comparator.ofOrder_follows second)
      (Comparator.ofOrder_follows (compareLex first second)) .forkJoin .sequential .sequential
      .leftFirst .leftFirst .leftFirst values (by decide) () () ()
  have hexpected : IsStableSort (Precedes (compareLex first second)) values.toList
      [(1, 25), (1, 21), (2, 5), (2, 13), (2, 12)] :=
    ⟨[((1, 25), 1), ((1, 21), 3), ((2, 5), 4), ((2, 13), 0), ((2, 12), 2)], by decide, rfl,
      by decide⟩
  exact ⟨between, last, once, hbetween, hlast, honce, hsame, hstable.unique hexpected⟩

end MicroBench
