import MicroBench.Prime.Scan
import MicroBench.Proofs.Division

/-! # What a scan yields

  Trial division decides primality, so a scan stops at every prime and at nothing else. When it has
  passed the last candidate it has nothing more to give, now and later.

  - `Scan.remaining` lists the primes that a scan has not passed yet. `Scan.next_cases` is the step: a
    call gives the first of them, and the others remain.
  - `Scan.nexts_eq` is the run, by induction on the number of calls.
  - `scan_yields_remaining_primes` puts it together for every state of a scan.
-/

namespace MicroBench.Prime

/-! ## The remaining primes -/

/-- The primes that are 32-bit numbers and not below `start`, in ascending order. -/
def primesFrom (start : Nat) : List UInt32 :=
  ((List.range' start (2 ^ 32 - start)).filter fun p => decide (Nat.Prime p)).map UInt32.ofNat

theorem mem_primesFrom {start : Nat} {p : UInt32} :
    p ∈ primesFrom start ↔ Nat.Prime p.toNat ∧ start ≤ p.toNat := by
  unfold primesFrom
  simp only [List.mem_map, List.mem_filter, List.mem_range'_1, decide_eq_true_eq]
  constructor
  · rintro ⟨q, ⟨⟨hstart, hlimit⟩, hprime⟩, rfl⟩
    rw [UInt32.toNat_ofNat_of_lt' (show q < 2 ^ 32 by omega)]
    exact ⟨hprime, hstart⟩
  · rintro ⟨hprime, hstart⟩
    have hlimit : p.toNat < 2 ^ 32 := p.toNat_lt
    exact ⟨p.toNat, ⟨⟨hstart, by omega⟩, hprime⟩, UInt32.ofNat_toNat⟩

theorem primesFrom_ascending (start : Nat) : (primesFrom start).Pairwise (· < ·) := by
  unfold primesFrom
  rw [List.pairwise_map]
  have hlt : ((List.range' start (2 ^ 32 - start)).filter fun p => decide (Nat.Prime p)).Pairwise
      (· < ·) := List.Pairwise.filter _ List.pairwise_lt_range'
  refine hlt.imp_of_mem ?_
  intro a b ha hb hab
  have hlimit : b < 2 ^ 32 := by
    have hrange := List.mem_range'_1.mp (List.mem_filter.mp hb).1
    omega
  rw [UInt32.lt_iff_toNat_lt, UInt32.toNat_ofNat_of_lt' (Nat.lt_trans hab hlimit),
    UInt32.toNat_ofNat_of_lt' hlimit]
  exact hab

theorem primesFrom_limit : primesFrom (2 ^ 32) = [] := by
  unfold primesFrom
  rw [Nat.sub_self]
  rfl

/-- A candidate is the first of the remaining primes if it is one, and can be left out otherwise. -/
theorem primesFrom_step (n : UInt32) :
    primesFrom n.toNat =
      if Nat.Prime n.toNat then n :: primesFrom (n.toNat + 1) else primesFrom (n.toNat + 1) := by
  have hn : n.toNat < 2 ^ 32 := n.toNat_lt
  have hlen : 2 ^ 32 - n.toNat = 2 ^ 32 - (n.toNat + 1) + 1 := by omega
  unfold primesFrom
  rw [hlen, List.range'_succ]
  by_cases hprime : Nat.Prime n.toNat
  · rw [if_pos hprime, List.filter_cons_of_pos (by simpa using hprime), List.map_cons,
      UInt32.ofNat_toNat]
  · rw [if_neg hprime, List.filter_cons_of_neg (by simpa using hprime)]

/-- The next candidate stands for the numbers behind the present one. -/
theorem toNat_succ {n : UInt32} (hnext : n.toNat + 1 < 2 ^ 32) : (n + 1).toNat = n.toNat + 1 := by
  rw [UInt32.toNat_add]
  exact Nat.mod_eq_of_lt hnext

namespace Scan

/-- The primes that a scan has not passed yet. -/
def remaining (scan : Scan) : List UInt32 :=
  match scan.candidate with
  | some n => primesFrom n.toNat
  | none => []

theorem remaining_ascending (scan : Scan) : scan.remaining.Pairwise (· < ·) := by
  obtain ⟨candidate⟩ := scan
  cases candidate with
  | none => exact .nil
  | some n => exact primesFrom_ascending n.toNat

theorem mem_remaining (scan : Scan) {p : UInt32} :
    p ∈ scan.remaining ↔
      Nat.Prime p.toNat ∧ ∃ candidate, scan.candidate = some candidate ∧ candidate ≤ p := by
  obtain ⟨candidate⟩ := scan
  cases candidate with
  | none => simp [remaining]
  | some n =>
    rw [remaining, mem_primesFrom, ← UInt32.le_iff_toNat_le]
    simp

/-- Behind a number there remain the primes above it. -/
theorem remaining_after (n : UInt32) : (⟨after n⟩ : Scan).remaining = primesFrom (n.toNat + 1) := by
  have hn : n.toNat < 2 ^ 32 := n.toNat_lt
  unfold after
  by_cases hnext : n.toNat + 1 < 1 <<< 32
  · rw [if_pos hnext]
    exact congrArg primesFrom (toNat_succ hnext)
  · have hlast : n.toNat + 1 = 2 ^ 32 := by omega
    rw [if_neg hnext, hlast, primesFrom_limit]
    rfl

/-- The loop over the candidates stops at the first of the remaining primes, and the others remain. If
    there is none, it runs past the last candidate. The induction is on the candidates that are
    left. -/
theorem nextFrom_cases (n : UInt32) :
    (nextFrom n = .ok (none, ⟨none⟩) ∧ primesFrom n.toNat = []) ∨
      ∃ p, nextFrom n = .ok (some p, ⟨after p⟩) ∧
        primesFrom n.toNat = p :: primesFrom (p.toNat + 1) := by
  induction hleft : 2 ^ 32 - n.toNat using Nat.strongRecOn generalizing n with
  | ind left ih =>
    subst hleft
    have hn : n.toNat < 2 ^ 32 := n.toNat_lt
    rw [nextFrom, isPrime_eq, primesFrom_step]
    by_cases hprime : Nat.Prime n.toNat
    · right
      refine ⟨n, ?_, if_pos hprime⟩
      simp only [bind, Except.bind, decide_eq_true hprime, if_true, pure, Except.pure]
    · simp only [bind, Except.bind, decide_eq_false hprime, if_neg hprime, Bool.false_eq_true,
        if_false]
      by_cases hnext : n.toNat + 1 < 1 <<< 32
      · have hsucc := toNat_succ hnext
        have hrest := ih (2 ^ 32 - (n + 1).toNat) (by omega) (n + 1) rfl
        rw [hsucc] at hrest
        rw [if_pos hnext]
        exact hrest
      · have hlast : n.toNat + 1 = 2 ^ 32 := by omega
        left
        rw [if_neg hnext, hlast]
        exact ⟨rfl, primesFrom_limit⟩

/-- A call gives the first of the remaining primes and moves behind it, so that the others remain. If
    none remains, it gives nothing and leaves no candidate. -/
theorem next_cases (scan : Scan) :
    (scan.next = .ok (none, ⟨none⟩) ∧ scan.remaining = []) ∨
      ∃ p, scan.next = .ok (some p, ⟨after p⟩) ∧
        scan.remaining = p :: (⟨after p⟩ : Scan).remaining := by
  obtain ⟨candidate⟩ := scan
  cases candidate with
  | none => exact .inl ⟨rfl, rfl⟩
  | some n =>
    rcases nextFrom_cases n with hnone | ⟨p, hnext, hremaining⟩
    · exact .inl hnone
    · rw [← remaining_after] at hremaining
      exact .inr ⟨p, hnext, hremaining⟩

/-! ## Many calls -/

/-- The results of `count` calls: the smallest of the remaining primes, then nothing. -/
def yields (scan : Scan) (count : Nat) : List (Option UInt32) :=
  (scan.remaining.take count).map some ++ List.replicate (count - scan.remaining.length) none

/-- The scan after `count` calls. If the last call gave a prime, the candidate is the number behind it,
    or none behind the last 32-bit number. If that call gave nothing, there is no candidate. -/
def stateAfter (scan : Scan) : (count : Nat) → Scan
  | 0 => scan
  | count + 1 =>
    match scan.remaining[count]? with
    | some p => ⟨if p.toNat = 2 ^ 32 - 1 then none else some (p + 1)⟩
    | none => ⟨none⟩

theorem after_eq (n : UInt32) : after n = if n.toNat = 2 ^ 32 - 1 then none else some (n + 1) := by
  have hn : n.toNat < 2 ^ 32 := n.toNat_lt
  unfold after
  by_cases hlast : n.toNat = 2 ^ 32 - 1
  · rw [if_pos hlast, if_neg (by omega)]
  · rw [if_neg hlast, if_pos (by omega)]

/-- Once no prime remains, every call gives nothing. -/
theorem yields_of_none {scan : Scan} (hnone : scan.remaining = []) (count : Nat) :
    scan.yields count = List.replicate count none := by
  simp [yields, hnone]

theorem yields_of_cons {scan rest : Scan} {p : UInt32}
    (hremaining : scan.remaining = p :: rest.remaining) (count : Nat) :
    scan.yields (count + 1) = some p :: rest.yields count := by
  simp [yields, hremaining]

theorem stateAfter_of_none {scan : Scan} (hnone : scan.remaining = []) (count : Nat) :
    scan.stateAfter (count + 1) = ⟨none⟩ := by
  simp [stateAfter, hnone]

theorem stateAfter_of_cons {scan : Scan} {p : UInt32}
    (hremaining : scan.remaining = p :: (⟨after p⟩ : Scan).remaining) (count : Nat) :
    scan.stateAfter (count + 1) = (⟨after p⟩ : Scan).stateAfter count := by
  cases count with
  | zero => simp [stateAfter, hremaining, after_eq]
  | succ count => simp [stateAfter, hremaining]

/-- A result stands in front of those of the later calls. -/
theorem push_append_results {β : Type} (results : Array β) (result : β) (later : List β) :
    results.push result ++ later.toArray = results ++ (result :: later).toArray := by
  apply Array.ext'
  simp

/-- The calls give the remaining primes one by one, and then nothing. -/
theorem nextsOnto_eq (count : Nat) (results : Array (Option UInt32)) (scan : Scan) :
    nextsOnto count results scan =
      .ok (results ++ (scan.yields count).toArray, scan.stateAfter count) := by
  induction count generalizing results scan with
  | zero => simp [nextsOnto, yields, stateAfter]
  | succ count ih =>
    rw [nextsOnto]
    rcases next_cases scan with ⟨hnext, hremaining⟩ | ⟨p, hnext, hremaining⟩
    · -- The scan has no candidate from now on, so the rest of the calls is one more such run.
      have hended : (⟨none⟩ : Scan).remaining = [] := rfl
      have hstate : (⟨none⟩ : Scan).stateAfter count = ⟨none⟩ := by
        cases count with
        | zero => rfl
        | succ count => exact stateAfter_of_none hended count
      rw [hnext, stateAfter_of_none hremaining, yields_of_none hremaining, List.replicate_succ]
      simp only [ih, hstate, yields_of_none hended, push_append_results]
    · rw [hnext, stateAfter_of_cons hremaining, yields_of_cons hremaining]
      simp only [ih, push_append_results]

theorem nexts_eq (scan : Scan) (count : Nat) :
    scan.nexts count = .ok ((scan.yields count).toArray, scan.stateAfter count) := by
  unfold nexts
  rw [nextsOnto_eq]
  simp

end Scan

/-- From every state, `count` calls give the first `count` of the primes that are not below the
    candidate, in ascending order, and then nothing. After a prime the candidate is the number behind
    it, if that is a 32-bit number; after nothing there is no candidate and never will be. So a scan
    from the start gives all 32-bit primes, each one once, and nothing else. -/
theorem scan_yields_remaining_primes (scan : Scan) :
    scan.remaining.Pairwise (· < ·) ∧
    (∀ p : UInt32, p ∈ scan.remaining ↔
      Nat.Prime p.toNat ∧ ∃ candidate, scan.candidate = some candidate ∧ candidate ≤ p) ∧
    (∀ count, scan.nexts count =
      .ok (((scan.remaining.take count).map some ++
        List.replicate (count - scan.remaining.length) none).toArray, scan.stateAfter count)) ∧
    ∃ primes : List UInt32, primes.Pairwise (· < ·) ∧
      (∀ p : UInt32, p ∈ primes ↔ Nat.Prime p.toNat) ∧
      ∀ count, ∃ state, Scan.start.nexts count =
        .ok (((primes.take count).map some ++
          List.replicate (count - primes.length) none).toArray, state) := by
  refine ⟨scan.remaining_ascending, fun p => scan.mem_remaining, scan.nexts_eq,
    Scan.start.remaining, Scan.start.remaining_ascending, ?_, ?_⟩
  · intro p
    rw [Scan.remaining, Scan.start, mem_primesFrom]
    exact and_iff_left_of_imp fun hprime => hprime.one_le
  · intro count
    exact ⟨_, Scan.start.nexts_eq count⟩

end MicroBench.Prime
