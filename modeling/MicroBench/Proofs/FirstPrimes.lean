import Mathlib.NumberTheory.PrimeCounting
import MicroBench.Proofs.Primes

/-! # The first primes

  A scan from the start passes all 32-bit primes in ascending order, so the prime at position `i` of what
  it collects has exactly `i` primes below it. Asked for more primes than there are, it gives those that
  there are.

  - `Scan.takeOnto_eq` is the run of the loop that collects primes: it adds the first of the remaining
    ones.
  - `remaining_start_eq` lists what remains at the start by the position of each prime among all primes.
  - `firstPrimes_enumerates_primes` is the result for every count.
-/

namespace MicroBench.Prime

/-! ## Collecting -/

/-- The loop adds the first `count` of the remaining primes, or all of them if there are fewer. The
    induction is on the count; a call that gives nothing ends the loop early. -/
theorem Scan.takeOnto_eq (count : Nat) (found : Array UInt32) (scan : Scan) :
    ∃ rest, takeOnto count found scan =
      .ok (found ++ (scan.remaining.take count).toArray, rest) := by
  induction count generalizing found scan with
  | zero => exact ⟨scan, by simp [takeOnto]⟩
  | succ count ih =>
    rcases next_cases scan with ⟨hnext, hremaining⟩ | ⟨p, hnext, hremaining⟩
    · -- Nothing remains, so the loop ends although more was asked for.
      refine ⟨⟨none⟩, ?_⟩
      rw [takeOnto, hnext, hremaining]
      simp
    · obtain ⟨rest, hrest⟩ := ih (found.push p) ⟨after p⟩
      refine ⟨rest, ?_⟩
      rw [takeOnto, hnext, hremaining, List.take_succ_cons, ← push_append_results]
      exact hrest

theorem firstPrimes_eq (count : Nat) :
    firstPrimes count = .ok (Scan.start.remaining.take count).toArray := by
  obtain ⟨rest, htake⟩ := Scan.start.takeOnto_eq count #[]
  rw [Array.empty_append] at htake
  unfold firstPrimes Scan.take
  rw [htake]
  rfl

/-! ## Counting -/

/-- The numbers below `n` with a property, in ascending order: the first, the second, and so on. -/
theorem filter_range_eq_nth (property : Nat → Prop) [DecidablePred property] (n : Nat) :
    (List.range n).filter (fun k => decide (property k)) =
      (List.range (Nat.count property n)).map (Nat.nth property) := by
  induction n with
  | zero => simp
  | succ n ih =>
    rw [List.range_succ, List.filter_append, ih, Nat.count_succ]
    by_cases hn : property n
    · have hlast : [n].filter (fun k => decide (property k)) = [n] := by simp [hn]
      rw [hlast, if_pos hn, List.range_succ, List.map_append, List.map_singleton, Nat.nth_count hn]
    · have hlast : [n].filter (fun k => decide (property k)) = [] := by simp [hn]
      rw [hlast, if_neg hn, Nat.add_zero, List.append_nil]

/-- At the start there remain as many primes as there are below `2 ^ 32`, each one in its place. -/
theorem remaining_start_eq :
    Scan.start.remaining = (List.range (Nat.primesBelow (2 ^ 32)).card).map
      fun i => UInt32.ofNat (Nat.nth Nat.Prime i) := by
  -- The scan starts at one, but nothing is lost: zero is no prime.
  have hone : Scan.start.remaining = primesFrom 0 := by
    have hstep := primesFrom_step 0
    rw [if_neg (show ¬ Nat.Prime (0 : UInt32).toNat from Nat.not_prime_zero)] at hstep
    exact hstep.symm
  rw [hone, Nat.primesBelow_card_eq_primeCounting']
  unfold primesFrom Nat.primeCounting'
  rw [Nat.sub_zero, ← List.range_eq_range', filter_range_eq_nth, List.map_map]
  rfl

/-- The prime at position `i` has `i` primes below it. -/
theorem prime_of_getElem?_remaining {i : Nat} {p : UInt32}
    (hp : Scan.start.remaining[i]? = some p) :
    Nat.Prime p.toNat ∧ (Nat.primesBelow p.toNat).card = i := by
  rw [remaining_start_eq, List.getElem?_map] at hp
  obtain ⟨j, hj, rfl⟩ := Option.map_eq_some_iff.mp hp
  obtain ⟨hlt, rfl⟩ := List.getElem?_eq_some_iff.mp hj
  rw [List.length_range, Nat.primesBelow_card_eq_primeCounting'] at hlt
  have hword : Nat.nth Nat.Prime i < 2 ^ 32 := Nat.nth_lt_of_lt_count hlt
  rw [List.getElem_range, UInt32.toNat_ofNat_of_lt' hword, Nat.primesBelow_card_eq_primeCounting']
  exact ⟨Nat.prime_nth_prime i, Nat.primeCounting'_nth_eq i⟩

/-- The first `count` primes are as many as asked for, or as many as there are below `2 ^ 32`; the one at
    position `i` has exactly `i` primes below it. A smaller count gives a beginning of what a larger one
    gives, and a count that is large enough gives all primes. -/
theorem firstPrimes_enumerates_primes (count : Nat) :
    ∃ primes : Array UInt32, firstPrimes count = .ok primes ∧
      primes.size = min count (Nat.primesBelow (2 ^ 32)).card ∧
      (∀ (i : Nat) (p : UInt32), primes[i]? = some p →
        Nat.Prime p.toNat ∧ (Nat.primesBelow p.toNat).card = i) ∧
      (∀ larger, count ≤ larger → ∃ more : Array UInt32, firstPrimes larger = .ok more ∧
        primes.toList <+: more.toList) ∧
      ((Nat.primesBelow (2 ^ 32)).card ≤ count →
        ∀ p : UInt32, p ∈ primes ↔ Nat.Prime p.toNat) := by
  have hlength : Scan.start.remaining.length = (Nat.primesBelow (2 ^ 32)).card := by
    rw [remaining_start_eq, List.length_map, List.length_range]
  refine ⟨_, firstPrimes_eq count, ?_, ?_, ?_, ?_⟩
  · rw [List.size_toArray, List.length_take, hlength]
  · intro i p hp
    rw [List.getElem?_toArray, List.getElem?_take] at hp
    split at hp
    · exact prime_of_getElem?_remaining hp
    · exact absurd hp (by simp)
  · intro larger hlarger
    exact ⟨_, firstPrimes_eq larger, List.take_prefix_take_left hlarger⟩
  · intro henough p
    rw [List.mem_toArray, List.take_of_length_le (by omega), Scan.mem_remaining]
    apply and_iff_left_of_imp
    intro hprime
    refine ⟨1, rfl, ?_⟩
    rw [UInt32.le_iff_toNat_le]
    exact hprime.one_le

/-- Three primes, the last of which has two below it and which begin a list of five; and more primes than
    there are. -/
theorem firstPrimes_enumerates_primes_three :
    (∃ primes more : Array UInt32, firstPrimes 3 = .ok primes ∧ primes.size = 3 ∧
      (∃ p : UInt32, primes[2]? = some p ∧ Nat.Prime p.toNat ∧
        (Nat.primesBelow p.toNat).card = 2) ∧
      firstPrimes 5 = .ok more ∧ primes.toList <+: more.toList) ∧
    ∃ all : Array UInt32, firstPrimes (2 ^ 32) = .ok all ∧
      ∀ p : UInt32, p ∈ all ↔ Nat.Prime p.toNat := by
  have hatLeast : 3 ≤ (Nat.primesBelow (2 ^ 32)).card := by
    rw [Nat.primesBelow_card_eq_primeCounting']
    have hfew : Nat.primeCounting' 6 = 3 := by decide
    rw [← hfew]
    exact Nat.monotone_primeCounting' (by decide)
  have hatMost : (Nat.primesBelow (2 ^ 32)).card ≤ 2 ^ 32 := by
    rw [Nat.primesBelow_card_eq_primeCounting']
    exact Nat.count_le Nat.Prime
  obtain ⟨primes, hprimes, hsize, hentries, hlarger, -⟩ := firstPrimes_enumerates_primes 3
  obtain ⟨more, hmore, hbegins⟩ := hlarger 5 (by decide)
  obtain ⟨all, hall, -, -, -, hmem⟩ := firstPrimes_enumerates_primes (2 ^ 32)
  rw [Nat.min_eq_left hatLeast] at hsize
  obtain ⟨p, hp⟩ : ∃ p, primes[2]? = some p := by
    rw [← Option.ne_none_iff_exists', ne_eq, Array.getElem?_eq_none_iff, hsize]
    decide
  exact ⟨⟨primes, more, hprimes, hsize, ⟨p, hp, hentries 2 p hp⟩, hmore, hbegins⟩, all, hall,
    hmem hatMost⟩

end MicroBench.Prime
