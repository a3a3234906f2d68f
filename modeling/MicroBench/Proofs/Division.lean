import Mathlib.Data.Nat.Prime.Basic
import MicroBench.Prime.Division

/-! # Trial division decides primality

  Trial division by odd numbers looks for the smallest prime factor of an odd number. It need not go
  beyond the square root, where a square is the boundary case. A divisor whose square does not exceed a
  32-bit number has 16 bits, so neither its square nor the step to the next divisor leaves the word.

  - `Reaches` lists the divisors that the loop comes to. `Reaches.lt` is the invariant that keeps
    them small, and `Reaches.run_eq` says that the run goes on from each of them.
  - `hasNoOddDivisorFrom_eq` ties the loop to the search for the smallest factor.
  - `isPrime_decides_primality` is the result.
-/

namespace MicroBench.Prime

/-! ## The loop -/

/-- The loop over the divisors of `n` reaches `i`: it starts with three, and goes on from a number whose
    square does not exceed `n` and that does not divide it. -/
inductive Reaches (n : Nat) : Nat → Prop
  | start : Reaches n 3
  | step {i : Nat} : Reaches n i → i * i ≤ n → n % i ≠ 0 → Reaches n (i + 2)

theorem root_lt {n i : Nat} (hn : n < 2 ^ 32) (hgo : i * i ≤ n) : i < 2 ^ 16 := by
  by_contra hlarge
  have hle : 2 ^ 16 * 2 ^ 16 ≤ i * i :=
    Nat.mul_le_mul (Nat.le_of_not_lt hlarge) (Nat.le_of_not_lt hlarge)
  omega

/-- The loop takes at most one step beyond the numbers of 16 bits. -/
theorem Reaches.lt {n i : Nat} (hn : n < 2 ^ 32) (hreaches : Reaches n i) : i < 2 ^ 17 := by
  cases hreaches with
  | start => decide
  | step _ hgo _ =>
    have hroot := root_lt hn hgo
    omega

theorem square_fits {i : Nat} (hi : i < 2 ^ 17) : i * i < wordLimit := by
  have hle : i * i ≤ 2 ^ 17 * 2 ^ 17 := Nat.mul_le_mul (Nat.le_of_lt hi) (Nat.le_of_lt hi)
  exact Nat.lt_of_le_of_lt hle (by decide)

/-- One round of the loop. The numbers are small enough to be multiplied and increased. -/
theorem hasNoOddDivisorFrom_round {n i : Nat} (hi : i < 2 ^ 17) :
    hasNoOddDivisorFrom n i =
      if i * i ≤ n then if n % i = 0 then .ok false else hasNoOddDivisorFrom n (i + 2)
      else .ok true := by
  have hstep : i + 2 < wordLimit := by
    unfold wordLimit
    omega
  rw [hasNoOddDivisorFrom, require_of _ (square_fits hi), require_of _ hstep]
  rfl

/-- From every number that the loop reaches, the rest of the run gives the answer of the whole run. -/
theorem Reaches.run_eq {n i : Nat} (hn : n < 2 ^ 32) (hreaches : Reaches n i) :
    hasNoOddDivisorFrom n 3 = hasNoOddDivisorFrom n i := by
  induction hreaches with
  | start => rfl
  | step hreached hgo hmod ih =>
    rw [ih, hasNoOddDivisorFrom_round (hreached.lt hn), if_pos hgo, if_neg hmod]

/-- The loop looks for the factor that `Nat.minFacAux` looks for, and says whether that is the number
    itself. -/
theorem hasNoOddDivisorFrom_eq {n i : Nat} (hn : n < 2 ^ 32) (hi : 3 ≤ i) (hword : i < 2 ^ 17) :
    hasNoOddDivisorFrom n i = .ok (decide (Nat.minFacAux n i = n)) := by
  -- The induction is on the numbers up to `n` that are left. Both searches make the same steps.
  induction hleft : n + 1 - i using Nat.strongRecOn generalizing i with
  | ind left ih =>
    subst hleft
    rw [hasNoOddDivisorFrom_round hword, Nat.minFacAux]
    by_cases hgo : i * i ≤ n
    · have hroot := root_lt hn hgo
      -- From three on, a square is at least three times its root, so the root is a proper divisor.
      have hproper : i < n := by
        have hle : 3 * i ≤ i * i := Nat.mul_le_mul_right i hi
        omega
      rw [if_pos hgo, if_neg (Nat.not_lt.mpr hgo)]
      by_cases hdivides : i ∣ n
      · rw [if_pos (Nat.mod_eq_zero_of_dvd hdivides), if_pos hdivides,
          decide_eq_false (Nat.ne_of_lt hproper)]
      · rw [if_neg (fun h => hdivides (Nat.dvd_of_mod_eq_zero h)), if_neg hdivides]
        exact ih (n + 1 - (i + 2)) (by omega) (by omega) (by omega) rfl
    · -- Beyond the root, both searches settle on `n` itself.
      rw [if_neg hgo, if_pos (Nat.lt_of_not_le hgo), decide_eq_true rfl]

/-! ## The test -/

/-- The test agrees with the library's notion of a prime. -/
theorem isPrime_eq (n : UInt32) : isPrime n = .ok (decide (Nat.Prime n.toNat)) := by
  have hn : n.toNat < 2 ^ 32 := n.toNat_lt
  unfold isPrime
  by_cases hsmall : n ≤ 1
  · have hle : n.toNat ≤ 1 := UInt32.le_iff_toNat_le.mp hsmall
    have hnot : ¬ Nat.Prime n.toNat := fun h => absurd h.two_le (by omega)
    rw [if_pos hsmall, decide_eq_false hnot]
  · have htwo : 2 ≤ n.toNat := by
      have hle : ¬ n.toNat ≤ 1 := fun h => hsmall (UInt32.le_iff_toNat_le.mpr h)
      omega
    rw [if_neg hsmall]
    by_cases hfirst : n = 2 ∨ n = 3
    · rw [if_pos hfirst]
      rcases hfirst with rfl | rfl
      · exact congrArg Except.ok (decide_eq_true Nat.prime_two).symm
      · exact congrArg Except.ok (decide_eq_true Nat.prime_three).symm
    · -- All other numbers are prime if their smallest factor is the number itself.
      have hnotTwo : n.toNat ≠ 2 := fun h => hfirst (.inl (UInt32.toNat_inj.mp h))
      have hnotThree : n.toNat ≠ 3 := fun h => hfirst (.inr (UInt32.toNat_inj.mp h))
      have heven : n % 2 = 0 ↔ 2 ∣ n.toNat := by
        rw [← UInt32.toNat_inj, UInt32.toNat_mod]
        exact (Nat.dvd_iff_mod_eq_zero).symm
      have hprime : Nat.Prime n.toNat ↔ n.toNat.minFac = n.toNat := by
        rw [Nat.prime_def_minFac]
        exact and_iff_right htwo
      rw [if_neg hfirst]
      simp only [hprime, Nat.minFac_eq]
      by_cases hdivides : 2 ∣ n.toNat
      · rw [if_pos (heven.mpr hdivides), if_pos hdivides, decide_eq_false hnotTwo.symm]
      · rw [if_neg (mt heven.mp hdivides), if_neg hdivides]
        exact hasNoOddDivisorFrom_eq hn (Nat.le_refl 3) (by decide)

/-- The test says of every 32-bit number whether it is prime, that is, at least two and without a divisor
    between one and itself. On the way, no square of a divisor and no step to the next divisor leaves
    its word. -/
theorem isPrime_decides_primality (n : UInt32) :
    (∃ answer, isPrime n = .ok answer ∧
      (answer = true ↔ 2 ≤ n.toNat ∧ ∀ d, 1 < d → d < n.toNat → ¬ d ∣ n.toNat)) ∧
    ∀ i, Reaches n.toNat i →
      i * i < 2 ^ 64 ∧ i + 2 < 2 ^ 64 ∧
      hasNoOddDivisorFrom n.toNat 3 = hasNoOddDivisorFrom n.toNat i := by
  have hn : n.toNat < 2 ^ 32 := n.toNat_lt
  constructor
  · refine ⟨decide (Nat.Prime n.toNat), isPrime_eq n, ?_⟩
    rw [decide_eq_true_eq]
    exact Nat.prime_def_lt'
  · intro i hreaches
    have hsmall := hreaches.lt hn
    exact ⟨square_fits hsmall, by omega, hreaches.run_eq hn⟩

/-- The square of an odd prime: the loop has to come as far as its root, and stops there. -/
theorem isPrime_decides_primality_square :
    isPrime 49 = .ok false ∧ Reaches 49 7 ∧
      hasNoOddDivisorFrom 49 3 = hasNoOddDivisorFrom 49 7 := by
  obtain ⟨⟨answer, hanswer, hprime⟩, hloop⟩ := isPrime_decides_primality 49
  have hreaches : Reaches 49 7 :=
    ((Reaches.start).step (by decide) (by decide)).step (by decide) (by decide)
  have hcomposite : answer = false := by
    rw [← Bool.not_eq_true, hprime]
    intro hnone
    exact hnone.2 7 (by decide) (by decide) (by decide)
  rw [hcomposite] at hanswer
  exact ⟨hanswer, hreaches, (hloop 7 hreaches).2.2⟩

end MicroBench.Prime
