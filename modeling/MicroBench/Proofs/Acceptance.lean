import Mathlib.Data.List.TakeDrop
import MicroBench.Proofs.Draft

/-! # What the command line accepts

  A number on the command line is accepted if its text denotes a number in the setting's range, however
  many zeros stand in front of it. Whatever else stands on the command line or in the environment, a
  number gets into a draft only after it has been read, so no job has a number out of range.

  - `Token.ofArgument_joined` and its companions say what form the arguments of an option have.
  - `Draft.feedLong_quantity` and `Draft.feedLong_flag` say what an option does to a draft.
  - `Draft.feed_cases` says all that an argument can do to a draft.
  - `Draft.Sound` is the invariant, `Draft.Sound.feed` the step and `Draft.Sound.feeds` the run.
  - `numerals_decide_acceptance` is the result for each option on its own and for every command line.
-/

namespace MicroBench.CommandLine

/-! ## Forms of arguments -/

/-- Both parts of a text around its first equals sign. -/
theorem splitAtEquals_eq {name : List Char} (hname : '=' ∉ name) (rest : List Char)
    (hrest : ∀ c ∈ rest.head?, c = '=') :
    splitAtEquals (name ++ rest) =
      (String.ofList name, if rest = [] then none else some (String.ofList rest.tail)) := by
  have hkept : ∀ c ∈ name, (c != '=') = true := by
    intro c hc
    exact bne_iff_ne.mpr fun hequals => hname (hequals ▸ hc)
  unfold splitAtEquals
  rw [List.span_eq_takeWhile_dropWhile, List.takeWhile_append_of_pos hkept,
    List.dropWhile_append_of_pos hkept]
  cases rest with
  | nil => simp
  | cons c value =>
    obtain rfl := hrest c rfl
    simp

/-- What stands behind two dashes is the name and the value of an option. -/
theorem Token.ofArgument_dashes {argument : String} {rest : List Char}
    (hchars : argument.toList = '-' :: '-' :: rest) (hsome : rest ≠ []) :
    Token.ofArgument argument = .long (splitAtEquals rest).1 (splitAtEquals rest).2 := by
  unfold Token.ofArgument
  rw [hchars]
  cases rest with
  | nil => exact absurd rfl hsome
  | cons c rest => rfl

/-- An option with its value behind an equals sign. The value may be any text. -/
theorem Token.ofArgument_joined {name : String} (hname : '=' ∉ name.toList) (value : String) :
    Token.ofArgument ("--" ++ name ++ "=" ++ value) = .long name (some value) := by
  have hchars : ("--" ++ name ++ "=" ++ value).toList =
      '-' :: '-' :: (name.toList ++ '=' :: value.toList) := by simp
  rw [Token.ofArgument_dashes hchars (by simp), splitAtEquals_eq hname _ (by simp)]
  simp

/-- An option without a value. -/
theorem Token.ofArgument_alone {name : String} (hname : '=' ∉ name.toList) (hsome : name ≠ "") :
    Token.ofArgument ("--" ++ name) = .long name none := by
  have hchars : ("--" ++ name).toList = '-' :: '-' :: (name.toList ++ []) := by simp
  rw [Token.ofArgument_dashes hchars (by simpa using hsome), splitAtEquals_eq hname _ (by simp)]
  simp

/-- A text that does not start with a dash is no option. -/
theorem Token.ofArgument_plain {text : String} (htext : ∀ rest, text.toList ≠ '-' :: rest) :
    Token.ofArgument text = .plain := by
  unfold Token.ofArgument
  split
  · next hdashes => exact absurd hdashes (htext _)
  · next hdashes => exact absurd hdashes (htext _)
  · next hdash => exact absurd hdash (htext _)
  · rfl

namespace Draft

/-! ## Options -/

theorem feedLong_quantity {command : Command} {quantity : Quantity}
    (hquantity : quantity ∈ command.quantities) (draft : Draft) (value : Option String) :
    draft.feedLong command quantity.name value = draft.settle >>= fun settled =>
      match value with
      | some text => settled.record quantity text
      | none => pure { settled with waiting := some (quantity, none) } := by
  cases command with
  | sort =>
    cases quantity with
    | len => rfl
    | runs => rfl
    | count => exact absurd hquantity (by decide)
  | primes =>
    cases quantity with
    | len => exact absurd hquantity (by decide)
    | runs => rfl
    | count => rfl

theorem feedLong_flag {command : Command} {flag : Flag} (hflag : flag ∈ command.flags)
    (draft : Draft) :
    draft.feedLong command flag.name none = draft.settle >>= fun settled => settled.raise flag := by
  cases command with
  | sort => cases flag <;> rfl
  | primes => exact absurd hflag List.not_mem_nil

/-- An option with its value behind an equals sign records the value at once. -/
theorem feed_joined {command : Command} {quantity : Quantity}
    (hquantity : quantity ∈ command.quantities) {draft : Draft} (hopen : draft.ended = false)
    (text : String) :
    draft.feed command ("--" ++ quantity.name ++ "=" ++ text) =
      draft.settle >>= fun settled => settled.record quantity text := by
  have hname : '=' ∉ quantity.name.toList := by cases quantity <;> decide
  unfold feed
  rw [hopen, Token.ofArgument_joined hname]
  exact feedLong_quantity hquantity draft (some text)

/-! ## Numbers in range -/

/-- All numbers of the draft are in the ranges of their settings. -/
def Sound (draft : Draft) : Prop :=
  ∀ quantity n, draft.numbers.lookup quantity = some n → quantity.Admits n

theorem Sound.of_numbers {draft after : Draft} (hsound : draft.Sound)
    (hnumbers : after.numbers = draft.numbers) : after.Sound := by
  intro quantity n hlookup
  rw [hnumbers] at hlookup
  exact hsound quantity n hlookup

theorem Sound.record {draft after : Draft} {quantity : Quantity} {text : String}
    (hsound : draft.Sound) (hrecord : draft.record quantity text = .ok after) : after.Sound := by
  obtain ⟨-, n, -, hadmits, rfl⟩ := record_eq_ok_iff.mp hrecord
  intro other m hlookup
  by_cases hsame : other = quantity
  · subst hsame
    rw [List.lookup_cons_self] at hlookup
    obtain rfl := Option.some.inj hlookup
    exact hadmits
  · rw [List.lookup_cons, beq_false_of_ne hsame] at hlookup
    exact hsound other m hlookup

theorem Sound.settle {draft after : Draft} (hsound : draft.Sound)
    (hsettle : draft.settle = .ok after) : after.Sound := by
  unfold Draft.settle at hsettle
  split at hsettle
  · obtain rfl : draft = after := Except.ok.inj hsettle
    exact hsound
  · cases hsettle
  · have hbare : Sound { draft with waiting := none } := hsound
    exact hbare.record hsettle

/-- What an option can do to the numbers of a draft: the waiting value is checked first; then the numbers
    stay as they are, or a value is recorded. -/
theorem feedLong_cases {command : Command} {draft after : Draft} {name : String}
    {value : Option String} (hfeed : draft.feedLong command name value = .ok after) :
    ∃ settled, draft.settle = .ok settled ∧
      (after.numbers = settled.numbers ∨ ∃ quantity text, settled.record quantity text = .ok after) := by
  unfold feedLong at hfeed
  split at hfeed
  · next quantity _ =>
    obtain ⟨settled, hsettle, hfeed⟩ := bind_eq_ok_iff.mp hfeed
    refine ⟨settled, hsettle, ?_⟩
    cases value with
    | some text => exact Or.inr ⟨quantity, text, hfeed⟩
    | none =>
      obtain rfl := Except.ok.inj hfeed
      exact Or.inl rfl
  · cases value with
    | some text => cases hfeed
    | none =>
      obtain ⟨settled, hsettle, hfeed⟩ := bind_eq_ok_iff.mp hfeed
      refine ⟨settled, hsettle, Or.inl ?_⟩
      unfold raise at hfeed
      split at hfeed
      · cases hfeed
      · obtain rfl := Except.ok.inj hfeed
        rfl
  · -- Whatever else has a long name ends the reading.
    split at hfeed
    · cases value with
      | some text => cases hfeed
      | none =>
        obtain ⟨settled, hsettle, hfeed⟩ := bind_eq_ok_iff.mp hfeed
        cases hfeed
    · cases hfeed

/-- What an argument can do to the numbers of a draft: it does what an option does, or leaves them alone. -/
theorem feed_cases {command : Command} {draft after : Draft} {argument : String}
    (hfeed : draft.feed command argument = .ok after) :
    after.numbers = draft.numbers ∨
    ∃ settled, draft.settle = .ok settled ∧
      (after.numbers = settled.numbers ∨ ∃ quantity text, settled.record quantity text = .ok after) := by
  unfold feed at hfeed
  split at hfeed
  · cases hfeed
  · split at hfeed
    · obtain rfl := Except.ok.inj hfeed
      exact Or.inl rfl
    · exact Or.inr (feedLong_cases hfeed)
    · split at hfeed
      · obtain ⟨settled, hsettle, hfeed⟩ := bind_eq_ok_iff.mp hfeed
        cases hfeed
      · cases hfeed
    · split at hfeed
      · obtain rfl := Except.ok.inj hfeed
        exact Or.inl rfl
      · cases hfeed

theorem Sound.feed {command : Command} {draft after : Draft} {argument : String} (hsound : draft.Sound)
    (hfeed : draft.feed command argument = .ok after) : after.Sound := by
  rcases feed_cases hfeed with hsame | ⟨settled, hsettle, hsame | ⟨quantity, text, hrecord⟩⟩
  · exact hsound.of_numbers hsame
  · exact (hsound.settle hsettle).of_numbers hsame
  · exact (hsound.settle hsettle).record hrecord

theorem Sound.feeds {command : Command} {arguments : List String} {draft after : Draft}
    (hsound : draft.Sound) (hfeeds : arguments.foldlM (Draft.feed command) draft = .ok after) :
    after.Sound := by
  induction arguments generalizing draft with
  | nil =>
    obtain rfl := Except.ok.inj hfeeds
    exact hsound
  | cons argument arguments ih =>
    rw [List.foldlM_cons] at hfeeds
    obtain ⟨next, hnext, hfeeds⟩ := bind_eq_ok_iff.mp hfeeds
    exact ih (hsound.feed hnext) hfeeds

/-- Whatever a number is at the end of the command, it is in range. -/
theorem Sound.holds {environment : Environment} {draft : Draft} {quantity : Quantity} {n : Nat}
    (hsound : draft.Sound) (hholds : draft.Holds environment quantity n) : quantity.Admits n := by
  rcases hholds with hgiven | ⟨-, hsupplied⟩
  · exact hsound quantity n hgiven
  · exact hsupplied.admits

/-- Nothing waits any more once the waiting value is checked, and the options go on as before. -/
theorem of_settle {draft settled : Draft} (hsettle : draft.settle = .ok settled) :
    settled.waiting = none ∧ settled.ended = draft.ended := by
  unfold settle at hsettle
  split at hsettle
  · next hwaiting =>
    obtain rfl := Except.ok.inj hsettle
    exact ⟨hwaiting, rfl⟩
  · cases hsettle
  · obtain ⟨-, n, -, -, rfl⟩ := record_eq_ok_iff.mp hsettle
    exact ⟨rfl, rfl⟩

theorem finish_of_settle {environment : Environment} {command : Command} {draft settled : Draft}
    (hsettle : draft.settle = .ok settled) :
    draft.finish environment command = settled.finish environment command := by
  unfold finish
  rw [hsettle, settle_of_none (of_settle hsettle).1]

/-- A command that ends in a job has its numbers in range. -/
theorem Sound.finish {environment : Environment} {command : Command} {draft : Draft} {job : Job}
    (hsound : draft.Sound) (hfinish : draft.finish environment command = .ok job) :
    ∀ q ∈ job.command.quantities, q.Admits (job.number q) := by
  obtain ⟨settled, hsettle, -⟩ := bind_eq_ok_iff.mp hfinish
  rw [finish_of_settle hsettle] at hfinish
  obtain ⟨hcommand, hholds, -⟩ := (finish_eq_ok_iff (of_settle hsettle).1).mp hfinish
  intro q hq
  rw [hcommand] at hq
  exact (hsound.settle hsettle).holds (hholds q hq)

end Draft

/-! ## Whole command lines -/

theorem parse_command (environment : Environment) (command : Command) (arguments : List String) :
    parse environment (command.name :: arguments) =
      arguments.foldlM (Draft.feed command) {} >>= fun draft => draft.finish environment command := by
  cases command <;> rfl

/-- Only a command can end in a job. -/
theorem starts_with_command {environment : Environment} {arguments : List String} {job : Job}
    (hparse : parse environment arguments = .ok job) :
    ∃ (command : Command) (rest : List String), arguments = command.name :: rest := by
  unfold parse at hparse
  split at hparse
  · cases hparse
  · next argument rest =>
    split at hparse
    · next command hcommand =>
      unfold Command.ofName? at hcommand
      have hname := List.find?_some hcommand
      exact ⟨command, rest, by rw [eq_of_beq hname]⟩
    · -- Anything else is answered with a refusal.
      split at hparse
      · cases hparse
      · split at hparse
        · cases hparse
        · cases hparse
        · split at hparse
          · cases hparse
          · split at hparse <;> cases hparse
        · split at hparse
          · cases hparse
          · split at hparse <;> cases hparse
        · split at hparse <;> cases hparse

/-- The numbers of a job are in range, whatever the command line and the environment were. -/
theorem parse_admits {environment : Environment} {arguments : List String} {job : Job}
    (hparse : parse environment arguments = .ok job) :
    ∀ q ∈ job.command.quantities, q.Admits (job.number q) := by
  obtain ⟨command, rest, rfl⟩ := starts_with_command hparse
  rw [parse_command] at hparse
  obtain ⟨draft, hdraft, hfinish⟩ := bind_eq_ok_iff.mp hparse
  have hempty : Draft.Sound {} := by
    intro quantity n hlookup
    cases hlookup
  exact (hempty.feeds hdraft).finish hfinish

/-- A single option is recorded, and the command ends. -/
theorem parse_joined (environment : Environment) {command : Command} {quantity : Quantity}
    (hquantity : quantity ∈ command.quantities) (text : String) :
    parse environment [command.name, "--" ++ quantity.name ++ "=" ++ text] =
      ({} : Draft).record quantity text >>= fun draft => draft.finish environment command := by
  rw [parse_command, List.foldlM_cons, Draft.feed_joined hquantity rfl, Draft.settle_of_none rfl]
  simp only [List.foldlM_nil, bind_pure]
  rfl

/-- The value that a number has if a text is given for one number and nothing for the others. -/
def Quantity.TakenFrom (environment : Environment) (given : Quantity) (text : String)
    (quantity : Quantity) (n : Nat) : Prop :=
  if quantity = given then quantity.Denotes text n ∧ quantity.Admits n
  else quantity.Supplied environment n

/-- A single option ends in a job if its text denotes a number that its setting admits, and if the numbers
    that are not given can be supplied. -/
theorem parse_joined_eq_ok_iff (environment : Environment) {command : Command} {quantity : Quantity}
    (hquantity : quantity ∈ command.quantities) (text : String) (job : Job) :
    parse environment [command.name, "--" ++ quantity.name ++ "=" ++ text] = .ok job ↔
      job.command = command ∧
      (∀ q ∈ command.quantities, Quantity.TakenFrom environment quantity text q (job.number q)) ∧
      ∀ f ∈ command.flags, job.flag f = false := by
  have hothers : ∀ (n : Nat) (q : Quantity), q ≠ quantity → [(quantity, n)].lookup q = none := by
    intro n q hq
    rw [List.lookup_cons, beq_false_of_ne hq]
    rfl
  rw [parse_joined environment hquantity, bind_eq_ok_iff]
  constructor
  · intro h
    obtain ⟨draft, hrecord, hfinish⟩ := h
    obtain ⟨-, n, hdenotes, hadmits, rfl⟩ := Draft.record_eq_ok_iff.mp hrecord
    obtain ⟨hcommand, hholds, hflags⟩ := (Draft.finish_eq_ok_iff rfl).mp hfinish
    refine ⟨hcommand, ?_, hflags⟩
    intro q hq
    unfold Quantity.TakenFrom
    split
    · next hsame =>
      subst hsame
      have hgiven : Draft.Holds environment { numbers := [(q, n)] } q n := Or.inl List.lookup_cons_self
      obtain rfl : job.number q = n := (hholds q hq).unique hgiven
      exact ⟨hdenotes, hadmits⟩
    · next hother =>
      rcases hholds q hq with hlookup | ⟨-, hsupplied⟩
      · exact absurd ((hothers n q hother).symm.trans hlookup) (by simp)
      · exact hsupplied
  · intro h
    obtain ⟨hcommand, hnumbers, hflags⟩ := h
    have hgiven := hnumbers quantity hquantity
    rw [Quantity.TakenFrom, if_pos rfl] at hgiven
    obtain ⟨hdenotes, hadmits⟩ := hgiven
    refine ⟨_, Draft.record_eq_ok_iff.mpr ⟨rfl, job.number quantity, hdenotes, hadmits, rfl⟩, ?_⟩
    refine (Draft.finish_eq_ok_iff rfl).mpr ⟨hcommand, ?_, hflags⟩
    intro q hq
    by_cases hsame : q = quantity
    · subst hsame
      exact Or.inl List.lookup_cons_self
    · have hsupplied := hnumbers q hq
      rw [Quantity.TakenFrom, if_neg hsame] at hsupplied
      exact Or.inr ⟨hothers _ q hsame, hsupplied⟩

/-- A sort without flags, by its numbers. -/
theorem sort_without_flags_iff {job : Job} {values : Quantity → Nat → Prop} :
    (job.command = .sort ∧ (∀ q ∈ Command.sort.quantities, values q (job.number q)) ∧
      ∀ f ∈ Command.sort.flags, job.flag f = false) ↔
    ∃ len runs, values .len len ∧ values .runs runs ∧ job = .sort ⟨len, runs, false, false⟩ := by
  constructor
  · intro h
    obtain ⟨hcommand, hnumbers, hflags⟩ := h
    cases job with
    | sort config =>
      have hlen := hnumbers .len (by decide)
      have hruns := hnumbers .runs (by decide)
      have hparallel : config.parallel = false := hflags .parallel (by decide)
      have hverify : config.verify = false := hflags .verify (by decide)
      refine ⟨config.len, config.runs, hlen, hruns, ?_⟩
      show Job.sort ⟨config.len, config.runs, config.parallel, config.verify⟩ = _
      rw [hparallel, hverify]
    | primes config => cases hcommand
  · intro h
    obtain ⟨len, runs, hlen, hruns, rfl⟩ := h
    refine ⟨rfl, ?_, ?_⟩
    · simpa [Command.quantities] using ⟨hlen, hruns⟩
    · simp [Command.flags, Job.flag]

/-- A scan for primes, by its numbers. -/
theorem primes_iff {job : Job} {values : Quantity → Nat → Prop} :
    (job.command = .primes ∧ (∀ q ∈ Command.primes.quantities, values q (job.number q)) ∧
      ∀ f ∈ Command.primes.flags, job.flag f = false) ↔
    ∃ count runs, values .count count ∧ values .runs runs ∧ job = .primes ⟨count, runs⟩ := by
  constructor
  · intro h
    obtain ⟨hcommand, hnumbers, -⟩ := h
    cases job with
    | sort config => cases hcommand
    | primes config =>
      have hcount := hnumbers .count (by decide)
      have hruns := hnumbers .runs (by decide)
      exact ⟨config.count, config.runs, hcount, hruns, rfl⟩
  · intro h
    obtain ⟨count, runs, hcount, hruns, rfl⟩ := h
    refine ⟨rfl, ?_, ?_⟩
    · simpa [Command.quantities] using ⟨hcount, hruns⟩
    · simp [Command.flags]

/-- A single option whose text denotes no number that its setting admits is refused for that. -/
theorem parse_joined_refused (environment : Environment) {command : Command} {quantity : Quantity}
    (hquantity : quantity ∈ command.quantities) {text : String}
    (hnone : ∀ n, quantity.Denotes text n → ¬ quantity.Admits n) :
    ∃ cause, parse environment [command.name, "--" ++ quantity.name ++ "=" ++ text] =
      .error (.invalidValue quantity text cause) := by
  rw [parse_joined environment hquantity]
  -- Nothing is recorded yet, so the value is read, and by assumption it cannot be.
  cases hread : quantity.read text with
  | error cause =>
    refine ⟨cause, ?_⟩
    simp [Draft.record, hread, bind, Except.bind]
  | ok n =>
    obtain ⟨hdenotes, hadmits⟩ := Quantity.read_eq_ok_iff.mp hread
    exact absurd hadmits (hnone n hdenotes)

/-- Each option accepts exactly the texts that denote a number in its range: a length takes a plus sign,
    the other numbers take a minus sign as well. The number that is denoted is the value of the setting;
    the other settings take what is supplied for them. A text that denotes no such number is refused, and
    no command line and environment lead to a job without runs or with too many primes. -/
theorem numerals_decide_acceptance (environment : Environment) :
    (∀ text job, parse environment ["sort", "--len=" ++ text] = .ok job ↔
      ∃ len runs, (Text.Unsigned text len ∧ len < 2 ^ 64) ∧
        Quantity.runs.Supplied environment runs ∧ job = .sort ⟨len, runs, false, false⟩) ∧
    (∀ text job, parse environment ["sort", "--runs=" ++ text] = .ok job ↔
      ∃ len runs : Nat, Quantity.len.Supplied environment len ∧
        (Text.Signed text runs ∧ 1 ≤ runs ∧ runs ≤ 4294967295) ∧ job = .sort ⟨len, runs, false, false⟩) ∧
    (∀ text job, parse environment ["primes", "--runs=" ++ text] = .ok job ↔
      ∃ count runs : Nat, Quantity.count.Supplied environment count ∧
        (Text.Signed text runs ∧ 1 ≤ runs ∧ runs ≤ 4294967295) ∧ job = .primes ⟨count, runs⟩) ∧
    (∀ text job, parse environment ["primes", "--count=" ++ text] = .ok job ↔
      ∃ count runs : Nat, (Text.Signed text count ∧ count ≤ 203280221) ∧
        Quantity.runs.Supplied environment runs ∧ job = .primes ⟨count, runs⟩) ∧
    (∀ (command : Command) (quantity : Quantity) (text : String), quantity ∈ command.quantities →
      (∀ n, quantity.Denotes text n → ¬ quantity.Admits n) →
      ∃ cause, parse environment [command.name, "--" ++ quantity.name ++ "=" ++ text] =
        .error (.invalidValue quantity text cause)) ∧
    (∀ arguments config, parse environment arguments = .ok (.sort config) → config.runs ≠ 0) ∧
    ∀ arguments config, parse environment arguments = .ok (.primes config) →
      config.runs ≠ 0 ∧ config.count ≤ Prime.maxPrimeCount := by
  refine ⟨?_, ?_, ?_, ?_, ?_, ?_, ?_⟩
  · intro text job
    have hlen : Quantity.len ∈ Command.sort.quantities := by decide
    exact (parse_joined_eq_ok_iff environment hlen text job).trans sort_without_flags_iff
  · intro text job
    have hruns : Quantity.runs ∈ Command.sort.quantities := by decide
    exact (parse_joined_eq_ok_iff environment hruns text job).trans sort_without_flags_iff
  · intro text job
    have hruns : Quantity.runs ∈ Command.primes.quantities := by decide
    exact (parse_joined_eq_ok_iff environment hruns text job).trans primes_iff
  · intro text job
    have hcount : Quantity.count ∈ Command.primes.quantities := by decide
    exact (parse_joined_eq_ok_iff environment hcount text job).trans primes_iff
  · intro command quantity text hquantity hnone
    exact parse_joined_refused environment hquantity hnone
  · intro arguments config hparse
    obtain ⟨hleast, -⟩ : Quantity.runs.Admits config.runs :=
      parse_admits hparse .runs (by simp [Job.command, Command.quantities])
    omega
  · intro arguments config hparse
    obtain ⟨hleast, -⟩ : Quantity.runs.Admits config.runs :=
      parse_admits hparse .runs (by simp [Job.command, Command.quantities])
    have hcount : Quantity.count.Admits config.count :=
      parse_admits hparse .count (by simp [Job.command, Command.quantities])
    exact ⟨by omega, hcount⟩

/-- A length with a plus sign and zeros in front, a count of minus zero, and no runs at all. -/
theorem numerals_decide_acceptance_signs :
    parse [] ["sort", "--len=+007"] = .ok (.sort ⟨7, 1, false, false⟩) ∧
    parse [] ["primes", "--count=-0"] = .ok (.primes ⟨0, 1⟩) ∧
    ∃ cause, parse [] ["sort", "--runs=0"] = .error (.invalidValue .runs "0" cause) := by
  obtain ⟨hlen, -, -, hcount, hrefused, -⟩ := numerals_decide_acceptance []
  have hruns : Quantity.runs.Supplied [] 1 := .fromDefault rfl
  refine ⟨?_, ?_, ?_⟩
  · apply (hlen "+007" _).mpr
    have hseven : Text.Unsigned "+007" 7 := .plus
      ⟨['0', '0', '7'], rfl, ⟨by decide, List.all_eq_true.mp rfl⟩, rfl⟩
    exact ⟨7, 1, ⟨hseven, by decide⟩, hruns, rfl⟩
  · apply (hcount "-0" _).mpr
    have hzero : Text.Signed "-0" (0 : Nat) := .minus
      ⟨['0'], rfl, ⟨by decide, List.all_eq_true.mp rfl⟩, rfl⟩
    exact ⟨0, 1, ⟨hzero, by decide⟩, hruns, rfl⟩
  · apply hrefused .sort .runs "0" (by decide)
    intro n hdenotes hadmits
    have hread := Quantity.read_eq_ok_iff.mpr ⟨hdenotes, hadmits⟩
    have hzero : Quantity.runs.read "0" = .error (.outOfRange 0 1 4294967295) := by decide
    exact absurd (hzero.symm.trans hread) nofun

end MicroBench.CommandLine
