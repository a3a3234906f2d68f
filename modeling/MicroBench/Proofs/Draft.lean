import Mathlib.Algebra.Group.Nat.Defs
import MicroBench.CommandLine.Parse
import MicroBench.Proofs.Numeral

/-! # What the end of a command makes of its draft

  The options of a command are gathered in a draft. When the command ends, each of its numbers is taken
  from the draft, from the environment or from the defaults, in this order of preference. This module
  says which texts a number accepts, where its value comes from, and which job a draft ends in.

  - `Quantity.Denotes` and `Quantity.Admits` say which texts and numbers a setting takes, and
    `Quantity.read_eq_ok_iff` that these are the ones that are read.
  - `Draft.Holds` says which value a number has at the end of a command.
  - `Draft.consult_spec` is about one number and `Draft.consults_spec` about all numbers of a command.
  - `Draft.finish_eq_ok_iff` characterises the job.
-/

namespace MicroBench

namespace CommandLine

/-! ## Values of settings -/

/-- The numbers that a setting admits. -/
def Quantity.Admits : Quantity → Nat → Prop
  | .len, n => n < 2 ^ 64
  | .runs, n => 1 ≤ n ∧ n ≤ 4294967295
  | .count, n => n ≤ 203280221

instance (quantity : Quantity) (n : Nat) : Decidable (quantity.Admits n) :=
  match quantity with
  | .len => inferInstanceAs (Decidable (n < 2 ^ 64))
  | .runs => inferInstanceAs (Decidable (1 ≤ n ∧ n ≤ 4294967295))
  | .count => inferInstanceAs (Decidable (n ≤ 203280221))

/-- The text denotes the number in a way that the setting takes: a length must not have a minus sign. -/
def Quantity.Denotes : Quantity → String → Nat → Prop
  | .len, text, n => Text.Unsigned text n
  | .runs, text, n => Text.Signed text n
  | .count, text, n => Text.Signed text n

theorem Quantity.denotes_toString (quantity : Quantity) (n : Nat) :
    quantity.Denotes (toString n) n := by
  have hunsigned : Text.Unsigned (toString n) n := .bare (Text.spells_toString n)
  cases quantity with
  | len => exact hunsigned
  | runs => exact .unsigned hunsigned
  | count => exact .unsigned hunsigned

theorem Quantity.admits_default (quantity : Quantity) : quantity.Admits quantity.default := by
  cases quantity <;> decide

/-- A range within the signed words is checked as if there were no words. -/
theorem readInRange_eq_ok_iff {least greatest : Nat} (hgreatest : greatest < 2 ^ 63) {text : String}
    {n : Nat} :
    readInRange least greatest text = .ok n ↔ Text.Signed text n ∧ least ≤ n ∧ n ≤ greatest := by
  have hinteger : ∀ z : Int, Text.readInteger text = .ok z ↔
      Text.Signed text z ∧ -(2 ^ 63 : Int) ≤ z ∧ z < 2 ^ 63 := by
    intro z
    have hlimit : (((1 <<< 63) - 1 : Nat) : Int) = 2 ^ 63 - 1 := by decide
    rw [Text.readInteger, Text.readSigned_eq_ok_iff, hlimit]
    apply and_congr_right
    intro _
    omega
  unfold readInRange
  constructor
  · intro hread
    split at hread
    · cases hread
    · next z hz =>
      split at hread
      · next hrange =>
        obtain rfl : z.toNat = n := Except.ok.inj hread
        have hnat : ((z.toNat : Nat) : Int) = z := Int.toNat_of_nonneg (by omega)
        rw [hnat]
        exact ⟨((hinteger z).mp hz).1, by omega, by omega⟩
      · cases hread
  · intro h
    obtain ⟨hsigned, hleast, hmost⟩ := h
    have hz : Text.readInteger text = .ok (n : Int) := (hinteger n).mpr ⟨hsigned, by omega, by omega⟩
    simp only [hz]
    rw [if_pos (by omega), Int.toNat_natCast]

/-- A setting reads the texts that denote a number that it admits, and no others. -/
theorem Quantity.read_eq_ok_iff {quantity : Quantity} {text : String} {n : Nat} :
    quantity.read text = .ok n ↔ quantity.Denotes text n ∧ quantity.Admits n := by
  cases quantity with
  | len =>
    have hword : (Quantity.len.read text = .ok n) ↔ Text.readWord text = .ok n := by
      show (Text.readWord text).mapError ValueError.numeral = .ok n ↔ _
      cases Text.readWord text with
      | error cause =>
        show Except.error (ValueError.numeral cause) = .ok n ↔ _
        simp
      | ok m =>
        show (Except.ok m : Except ValueError Nat) = .ok n ↔ _
        simp
    rw [hword, Text.readWord, Text.readUnsigned_eq_ok_iff]
    refine and_congr_right fun _ => ?_
    show n ≤ 18446744073709551615 ↔ n < 2 ^ 64
    omega
  | runs => exact readInRange_eq_ok_iff (by decide)
  | count =>
    refine (readInRange_eq_ok_iff (by decide)).trans (and_congr_right fun _ => ?_)
    simp [Admits, Prime.maxPrimeCount]

/-! ## Jobs by their settings -/

end CommandLine

namespace Job

open CommandLine

/-- The command that starts a job. -/
def command : Job → Command
  | .sort _ => .sort
  | .primes _ => .primes

/-- The value of a number; zero if the job has no such number. -/
def number : Job → Quantity → Nat
  | .sort config, .len => config.len
  | .sort config, .runs => config.runs
  | .primes config, .count => config.count
  | .primes config, .runs => config.runs
  | _, _ => 0

/-- Whether a flag is up; down if the job has no such flag. -/
def flag : Job → Flag → Bool
  | .sort config, .parallel => config.parallel
  | .sort config, .verify => config.verify
  | .primes _, _ => false

/-- The command, its numbers and its flags determine the job. -/
theorem eq_of_settings {job other : Job} (hcommand : job.command = other.command)
    (hnumbers : ∀ q ∈ job.command.quantities, job.number q = other.number q)
    (hflags : ∀ f ∈ job.command.flags, job.flag f = other.flag f) : job = other := by
  cases job with
  | sort config =>
    cases other with
    | sort config' =>
      have hlen : config.len = config'.len := hnumbers .len (by simp [command, Command.quantities])
      have hruns : config.runs = config'.runs := hnumbers .runs (by simp [command, Command.quantities])
      have hparallel : config.parallel = config'.parallel := hflags .parallel (by simp [command, Command.flags])
      have hverify : config.verify = config'.verify := hflags .verify (by simp [command, Command.flags])
      cases config
      cases config'
      simp_all
    | primes config' => cases hcommand
  | primes config =>
    cases other with
    | sort config' => cases hcommand
    | primes config' =>
      have hcount : config.count = config'.count := hnumbers .count (by simp [command, Command.quantities])
      have hruns : config.runs = config'.runs := hnumbers .runs (by simp [command, Command.quantities])
      cases config
      cases config'
      simp_all

end Job

namespace CommandLine

/-! ## Values that are not given -/

/-- The value that a number takes if it is not given: the one that its variable denotes or, if that is
    not set, the default. There is none if the variable is set to anything else. -/
inductive Quantity.Supplied (environment : Environment) (quantity : Quantity) : Nat → Prop
  | fromDefault (hunset : environment.lookup quantity.envName = none) :
      Supplied environment quantity quantity.default
  | fromVariable {text : String} {n : Nat} (hset : environment.lookup quantity.envName = some text)
      (hdenotes : quantity.Denotes text n) (hadmits : quantity.Admits n) :
      Supplied environment quantity n

/-- A number takes one value at most. -/
theorem Quantity.Supplied.unique {environment : Environment} {quantity : Quantity} {n m : Nat}
    (hn : quantity.Supplied environment n) (hm : quantity.Supplied environment m) : n = m := by
  cases hn with
  | fromDefault hunset =>
    cases hm with
    | fromDefault _ => rfl
    | fromVariable hset _ _ => exact absurd (hunset.symm.trans hset) (by simp)
  | fromVariable hset hdenotes hadmits =>
    cases hm with
    | fromDefault hunset => exact absurd (hunset.symm.trans hset) (by simp)
    | fromVariable hset' hdenotes' hadmits' =>
      obtain rfl := Option.some.inj (hset.symm.trans hset')
      -- Reading a text gives one number.
      have hn := Quantity.read_eq_ok_iff.mpr ⟨hdenotes, hadmits⟩
      have hm := Quantity.read_eq_ok_iff.mpr ⟨hdenotes', hadmits'⟩
      exact Except.ok.inj (hn.symm.trans hm)

theorem Quantity.Supplied.admits {environment : Environment} {quantity : Quantity} {n : Nat}
    (hsupplied : quantity.Supplied environment n) : quantity.Admits n := by
  cases hsupplied with
  | fromDefault _ => exact quantity.admits_default
  | fromVariable _ _ hadmits => exact hadmits

namespace Draft

/-- The value that a number has at the end of the command: the one that was given or, if none was, the
    one that is supplied. -/
def Holds (environment : Environment) (draft : Draft) (quantity : Quantity) (n : Nat) : Prop :=
  draft.numbers.lookup quantity = some n ∨
    draft.numbers.lookup quantity = none ∧ quantity.Supplied environment n

theorem Holds.unique {environment : Environment} {draft : Draft} {quantity : Quantity} {n m : Nat}
    (hn : draft.Holds environment quantity n) (hm : draft.Holds environment quantity m) : n = m := by
  rcases hn with hgiven | ⟨hmissing, hsupplied⟩
  · rcases hm with hgiven' | ⟨hmissing', -⟩
    · exact Option.some.inj (hgiven.symm.trans hgiven')
    · exact absurd (hgiven.symm.trans hmissing') (by simp)
  · rcases hm with hgiven' | ⟨-, hsupplied'⟩
    · exact absurd (hmissing.symm.trans hgiven') (by simp)
    · exact hsupplied.unique hsupplied'

/-! ## Recording values -/

/-- A value is recorded if it is the first one for its number and can be read. -/
theorem record_eq_ok_iff {draft after : Draft} {quantity : Quantity} {text : String} :
    draft.record quantity text = .ok after ↔
      draft.numbers.lookup quantity = none ∧ ∃ n, quantity.Denotes text n ∧ quantity.Admits n ∧
        after = { draft with numbers := (quantity, n) :: draft.numbers } := by
  unfold record
  constructor
  · intro hrecord
    split at hrecord
    · cases hrecord
    · next hmissing =>
      split at hrecord
      · next n hread =>
        obtain ⟨hdenotes, hadmits⟩ := Quantity.read_eq_ok_iff.mp hread
        exact ⟨Option.not_isSome_iff_eq_none.mp hmissing, n, hdenotes, hadmits, (Except.ok.inj hrecord).symm⟩
      · cases hrecord
  · intro h
    obtain ⟨hmissing, n, hdenotes, hadmits, hafter⟩ := h
    have hread := Quantity.read_eq_ok_iff.mpr ⟨hdenotes, hadmits⟩
    simp [hmissing, hread, hafter]

/-- A draft that waits for nothing is settled. -/
theorem settle_of_none {draft : Draft} (hwaiting : draft.waiting = none) : draft.settle = .ok draft := by
  unfold settle
  rw [hwaiting]

/-! ## Consulting the environment -/

/-- To consult the environment for a number gives it the value that it has at the end, and fails if it
    has none. Nothing else changes. -/
theorem consult_spec (environment : Environment) (draft : Draft) (quantity : Quantity) :
    (∀ after, draft.consult environment quantity = .ok after →
      draft.Holds environment quantity (after.number quantity) ∧
      (∀ other, other ≠ quantity → after.numbers.lookup other = draft.numbers.lookup other) ∧
      after.flags = draft.flags) ∧
    ∀ n, draft.Holds environment quantity n → ∃ after, draft.consult environment quantity = .ok after := by
  unfold consult
  cases hlookup : draft.numbers.lookup quantity with
  | some m =>
    constructor
    · intro after hafter
      obtain rfl : draft = after := Except.ok.inj hafter
      refine ⟨Or.inl ?_, fun _ _ => rfl, rfl⟩
      simp [number, hlookup]
    · intro n _
      exact ⟨draft, rfl⟩
  | none =>
    cases henvironment : environment.lookup quantity.envName with
    | none =>
      constructor
      · intro after hafter
        obtain rfl : draft = after := Except.ok.inj hafter
        refine ⟨Or.inr ⟨hlookup, ?_⟩, fun _ _ => rfl, rfl⟩
        simp only [number, hlookup, Option.getD_none]
        exact .fromDefault henvironment
      · intro n _
        exact ⟨draft, rfl⟩
    | some text =>
      constructor
      · intro after hafter
        obtain ⟨-, n, hdenotes, hadmits, rfl⟩ := record_eq_ok_iff.mp hafter
        refine ⟨Or.inr ⟨hlookup, ?_⟩, ?_, rfl⟩
        · simp only [number, List.lookup_cons_self, Option.getD_some]
          exact .fromVariable henvironment hdenotes hadmits
        · intro other hother
          simp [List.lookup_cons, beq_false_of_ne hother]
      · intro n hholds
        rcases hholds with hgiven | ⟨-, hsupplied⟩
        · exact absurd (hlookup.symm.trans hgiven) (by simp)
        · cases hsupplied with
          | fromDefault hunset => exact absurd (henvironment.symm.trans hunset) (by simp)
          | fromVariable hset hdenotes hadmits =>
            obtain rfl := Option.some.inj (henvironment.symm.trans hset)
            exact ⟨_, record_eq_ok_iff.mpr ⟨hlookup, n, hdenotes, hadmits, rfl⟩⟩

theorem Holds.congr {environment : Environment} {draft other : Draft} {quantity : Quantity} {n : Nat}
    (hlookup : draft.numbers.lookup quantity = other.numbers.lookup quantity) :
    draft.Holds environment quantity n ↔ other.Holds environment quantity n := by
  unfold Holds
  rw [hlookup]

/-- What holds of one number holds of any different numbers, consulted one after the other. -/
theorem consults_spec (environment : Environment) (quantities : List Quantity)
    (hdistinct : quantities.Nodup) (draft : Draft) :
    (∀ after, quantities.foldlM (consult environment) draft = .ok after →
      (∀ q ∈ quantities, draft.Holds environment q (after.number q)) ∧
      (∀ q, q ∉ quantities → after.numbers.lookup q = draft.numbers.lookup q) ∧
      after.flags = draft.flags) ∧
    ((∀ q ∈ quantities, ∃ n, draft.Holds environment q n) →
      ∃ after, quantities.foldlM (consult environment) draft = .ok after) := by
  induction quantities generalizing draft with
  | nil =>
    constructor
    · intro after hafter
      obtain rfl : draft = after := Except.ok.inj hafter
      simp
    · intro _
      exact ⟨draft, rfl⟩
  | cons first rest ih =>
    obtain ⟨hfirst, hrest⟩ := List.nodup_cons.mp hdistinct
    -- The first number does not get into the way of the others.
    have hothers : ∀ q ∈ rest, q ≠ first := fun q hq hsame => hfirst (hsame ▸ hq)
    obtain ⟨hgives, htakes⟩ := consult_spec environment draft first
    rw [List.foldlM_cons]
    constructor
    · intro after hafter
      obtain ⟨middle, hmiddle, hafter⟩ := bind_eq_ok_iff.mp hafter
      obtain ⟨hholds, hsame, hflags⟩ := hgives middle hmiddle
      obtain ⟨hholds', hsame', hflags'⟩ := (ih hrest middle).1 after hafter
      refine ⟨?_, ?_, hflags'.trans hflags⟩
      · intro q hq
        rcases List.mem_cons.mp hq with rfl | hq
        · have hkept : after.number q = middle.number q := by
            unfold number
            rw [hsame' q hfirst]
          rw [hkept]
          exact hholds
        · exact (Holds.congr (hsame q (hothers q hq))).mp (hholds' q hq)
      · intro q hq
        have hlater := hsame' q (List.not_mem_of_not_mem_cons hq)
        exact hlater.trans (hsame q (List.ne_of_not_mem_cons hq))
    · intro hall
      obtain ⟨n, hn⟩ := hall first List.mem_cons_self
      obtain ⟨middle, hmiddle⟩ := htakes n hn
      obtain ⟨-, hsame, -⟩ := hgives middle hmiddle
      have hlater : ∀ q ∈ rest, ∃ n, middle.Holds environment q n := by
        intro q hq
        obtain ⟨m, hm⟩ := hall q (List.mem_cons_of_mem first hq)
        exact ⟨m, (Holds.congr (hsame q (hothers q hq))).mpr hm⟩
      obtain ⟨after, hafter⟩ := (ih hrest middle).2 hlater
      exact ⟨after, bind_eq_ok_iff.mpr ⟨middle, hmiddle, hafter⟩⟩

/-! ## The job at the end -/

theorem job_command (draft : Draft) (command : Command) : (draft.job command).command = command := by
  cases command <;> rfl

theorem job_number (draft : Draft) {command : Command} {quantity : Quantity}
    (hquantity : quantity ∈ command.quantities) :
    (draft.job command).number quantity = draft.number quantity := by
  cases command with
  | sort =>
    cases quantity with
    | len => rfl
    | runs => rfl
    | count => exact absurd hquantity (by decide)
  | primes =>
    cases quantity with
    | len => exact absurd hquantity (by decide)
    | runs => rfl
    | count => rfl

theorem job_flag (draft : Draft) {command : Command} {flag : Flag} (hflag : flag ∈ command.flags) :
    (draft.job command).flag flag = draft.flags.contains flag := by
  cases command with
  | sort => cases flag <;> rfl
  | primes => exact absurd hflag List.not_mem_nil

/-- A command whose values are all checked ends in the one job of that command that has the values that
    its numbers have at the end and the flags of the draft. -/
theorem finish_eq_ok_iff {environment : Environment} {command : Command} {draft : Draft} {job : Job}
    (hwaiting : draft.waiting = none) :
    draft.finish environment command = .ok job ↔
      job.command = command ∧
      (∀ q ∈ command.quantities, draft.Holds environment q (job.number q)) ∧
      ∀ f ∈ command.flags, job.flag f = draft.flags.contains f := by
  have hdistinct : command.quantities.Nodup := by cases command <;> decide
  obtain ⟨hgives, htakes⟩ := consults_spec environment command.quantities hdistinct draft
  have hfinish : draft.finish environment command =
      command.quantities.foldlM (consult environment) draft >>= fun after =>
        pure (after.job command) := by
    unfold finish
    rw [settle_of_none hwaiting]
    rfl
  rw [hfinish, bind_eq_ok_iff]
  constructor
  · intro hjob
    obtain ⟨after, hafter, hjob⟩ := hjob
    obtain rfl : after.job command = job := Except.ok.inj hjob
    obtain ⟨hholds, -, hflags⟩ := hgives after hafter
    refine ⟨job_command after command, ?_, ?_⟩
    · intro q hq
      rw [job_number after hq]
      exact hholds q hq
    · intro f hf
      rw [job_flag after hf, hflags]
  · intro hjob
    obtain ⟨hcommand, hnumbers, hflags⟩ := hjob
    obtain ⟨after, hafter⟩ := htakes fun q hq => ⟨_, hnumbers q hq⟩
    obtain ⟨hholds, -, hflags'⟩ := hgives after hafter
    refine ⟨after, hafter, congrArg Except.ok ?_⟩
    -- Both jobs have the values that the numbers have at the end, and there is only one for each.
    apply Job.eq_of_settings
    · rw [job_command, hcommand]
    · intro q hq
      rw [job_command] at hq
      rw [job_number after hq]
      exact (hholds q hq).unique (hnumbers q hq)
    · intro f hf
      rw [job_command] at hf
      rw [job_flag after hf, hflags', hflags f hf]

end Draft

end CommandLine

end MicroBench
