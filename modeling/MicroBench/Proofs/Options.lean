import MicroBench.Proofs.Acceptance

/-! # Options in any order

  A job is written as a command line: the command, its numbers and the flags that are up. A number is
  written in one of two ways or left out, and the options stand in any order. Reading such a command line
  gives the job back if the numbers that are left out are those of the environment or the defaults.

  - `Job.options` lists the options of a job, and `Given.words` writes an option.
  - `Draft.Reflects` is the invariant: the draft, once its waiting value is checked, holds the options read
    so far.
  - `Draft.Reflects.words` is the step, from one option to the next, and `Draft.Reflects.options` the run.
  - `options_in_any_order` is the result.
-/

namespace MicroBench

namespace CommandLine

/-- The two ways to write the value of a number: in an argument of its own, or behind an equals sign. -/
inductive Spelling where
  | apart
  | joined
  deriving DecidableEq, Repr

/-- An option with its value. -/
inductive Given where
  | number (quantity : Quantity) (value : Nat) (spelling : Spelling)
  | flag (raised : Flag)
  deriving DecidableEq, Repr

namespace Given

/-- The arguments that make up an option. Values are decimal. -/
def words : Given → List String
  | .number quantity value .apart => ["--" ++ quantity.name, toString value]
  | .number quantity value .joined => ["--" ++ quantity.name ++ "=" ++ toString value]
  | .flag raised => ["--" ++ raised.name]

/-- What an option sets. -/
def setting : Given → Quantity ⊕ Flag
  | .number quantity _ _ => .inl quantity
  | .flag raised => .inr raised

/-- The command takes the option and its value. -/
def Fits (command : Command) : Given → Prop
  | .number quantity value _ => quantity ∈ command.quantities ∧ quantity.Admits value
  | .flag raised => raised ∈ command.flags

end Given

end CommandLine

open CommandLine

/-! ## The options of a job -/

/-- The options of a job: its numbers as they are spelled, except for those that are left out, and the
    flags that are up. -/
def Job.options (style : Quantity → Option Spelling) (job : Job) : List Given :=
  job.command.quantities.filterMap (fun q => (style q).map (Given.number q (job.number q))) ++
    (job.command.flags.filter job.flag).map Given.flag

theorem Job.number_mem_options {style : Quantity → Option Spelling} {job : Job} {quantity : Quantity}
    {value : Nat} {spelling : Spelling} :
    Given.number quantity value spelling ∈ job.options style ↔
      quantity ∈ job.command.quantities ∧ style quantity = some spelling ∧ value = job.number quantity := by
  simp only [Job.options, List.mem_append, List.mem_filterMap, List.mem_map, Option.map_eq_some_iff]
  constructor
  · intro h
    rcases h with ⟨q, hq, s, hs, hsame⟩ | ⟨f, -, hsame⟩
    · cases hsame
      exact ⟨hq, hs, rfl⟩
    · cases hsame
  · intro h
    obtain ⟨hq, hs, rfl⟩ := h
    exact Or.inl ⟨quantity, hq, spelling, hs, rfl⟩

theorem Job.flag_mem_options {style : Quantity → Option Spelling} {job : Job} {flag : Flag} :
    Given.flag flag ∈ job.options style ↔ flag ∈ job.command.flags ∧ job.flag flag = true := by
  simp only [Job.options, List.mem_append, List.mem_filterMap, List.mem_map, Option.map_eq_some_iff]
  constructor
  · intro h
    rcases h with ⟨q, -, s, -, hsame⟩ | ⟨f, hf, hsame⟩
    · cases hsame
    · cases hsame
      exact List.mem_filter.mp hf
  · intro h
    exact Or.inr ⟨flag, List.mem_filter.mpr h, rfl⟩

/-- No setting has two options. -/
theorem Job.options_distinct (style : Quantity → Option Spelling) (job : Job) :
    ((job.options style).map Given.setting).Nodup := by
  have hall : ∀ command : Command, (command.quantities.map Sum.inl ++ command.flags.map Sum.inr :
      List (Quantity ⊕ Flag)).Nodup := by
    intro command
    cases command <;> decide
  have hnumbers : ∀ quantities : List Quantity,
      ((quantities.filterMap fun q => (style q).map (Given.number q (job.number q))).map
        Given.setting).Sublist (quantities.map Sum.inl) := by
    intro quantities
    induction quantities with
    | nil => exact List.Sublist.refl []
    | cons q quantities ih =>
      cases hstyle : style q with
      | none => simpa [hstyle] using ih.cons (Sum.inl q)
      | some spelling => simpa [hstyle, Given.setting] using ih
  have hflags : (((job.command.flags.filter job.flag).map Given.flag).map Given.setting).Sublist
      (job.command.flags.map Sum.inr) := by
    rw [List.map_map]
    exact List.filter_sublist.map Sum.inr
  rw [Job.options, List.map_append]
  exact ((hnumbers _).append hflags).nodup (hall job.command)

namespace CommandLine

namespace Draft

/-! ## Reading one option -/

/-- An option without a value waits for it. -/
theorem feed_alone {command : Command} {quantity : Quantity}
    (hquantity : quantity ∈ command.quantities) {draft : Draft} (hopen : draft.ended = false) :
    draft.feed command ("--" ++ quantity.name) =
      draft.settle >>= fun settled => pure { settled with waiting := some (quantity, none) } := by
  have hname : '=' ∉ quantity.name.toList := by cases quantity <;> decide
  have hsome : quantity.name ≠ "" := by cases quantity <;> decide
  unfold feed
  rw [hopen, Token.ofArgument_alone hname hsome]
  exact feedLong_quantity hquantity draft none

/-- The decimal text of a number is taken as the value that is waited for. -/
theorem feed_value (command : Command) (draft : Draft) {quantity : Quantity}
    (hopen : draft.ended = false) (hwaiting : draft.waiting = some (quantity, none)) (n : Nat) :
    draft.feed command (toString n) =
      .ok { draft with waiting := some (quantity, some (toString n)) } := by
  have hplain : Token.ofArgument (toString n) = .plain := by
    apply Token.ofArgument_plain
    intro rest hrest
    obtain ⟨digits, htext, ⟨-, hdigits⟩, -⟩ := Text.spells_toString n
    have hdash : '-' ∈ digits := by
      rw [← List.nil_append digits, ← htext, hrest]
      exact List.mem_cons_self
    exact absurd (hdigits '-' hdash) (by decide)
  unfold feed
  rw [hopen, hplain, hwaiting]
  rfl

theorem feed_flag {command : Command} {flag : Flag} (hflag : flag ∈ command.flags) {draft : Draft}
    (hopen : draft.ended = false) :
    draft.feed command ("--" ++ flag.name) = draft.settle >>= fun settled => settled.raise flag := by
  have hname : '=' ∉ flag.name.toList := by cases flag <;> decide
  have hsome : flag.name ≠ "" := by cases flag <;> decide
  unfold feed
  rw [hopen, Token.ofArgument_alone hname hsome]
  exact feedLong_flag hflag draft

/-- However a number is spelled, its value is recorded in the end: at once if it stands in the same
    argument, and otherwise by whatever comes next. -/
theorem feed_number {command : Command} {quantity : Quantity} (hquantity : quantity ∈ command.quantities)
    {draft settled recorded : Draft} (hopen : draft.ended = false) (hsettle : draft.settle = .ok settled)
    {n : Nat} (hrecord : settled.record quantity (toString n) = .ok recorded) (spelling : Spelling) :
    ∃ after, (Given.number quantity n spelling).words.foldlM (Draft.feed command) draft = .ok after ∧
      after.ended = false ∧ after.settle = .ok recorded := by
  obtain ⟨hwaiting, hended⟩ := of_settle hsettle
  have hopen' : settled.ended = false := hended.trans hopen
  cases spelling with
  | apart =>
    refine ⟨{ settled with waiting := some (quantity, some (toString n)) }, ?_, hopen', ?_⟩
    · have hvalue := feed_value command { settled with waiting := some (quantity, none) } hopen' rfl n
      show [_, _].foldlM (Draft.feed command) draft = _
      rw [List.foldlM_cons, feed_alone hquantity hopen, hsettle]
      refine bind_eq_ok_iff.mpr ⟨{ settled with waiting := some (quantity, none) }, rfl, ?_⟩
      rw [List.foldlM_cons]
      exact bind_eq_ok_iff.mpr ⟨_, hvalue, rfl⟩
    · show record { settled with waiting := none } quantity (toString n) = .ok recorded
      rw [← hwaiting]
      exact hrecord
  | joined =>
    obtain ⟨-, m, -, -, hafter⟩ := record_eq_ok_iff.mp hrecord
    refine ⟨recorded, ?_, ?_, ?_⟩
    · show [_].foldlM (Draft.feed command) draft = _
      rw [List.foldlM_cons, feed_joined hquantity hopen, hsettle]
      exact bind_eq_ok_iff.mpr ⟨_, hrecord, rfl⟩
    · rw [hafter]
      exact hopen'
    · apply settle_of_none
      rw [hafter]
      exact hwaiting

/-! ## The options read so far -/

/-- The numbers and flags of the draft are those of the options. -/
structure Lists (options : List Given) (draft : Draft) : Prop where
  numbers : ∀ q n, draft.numbers.lookup q = some n ↔ ∃ spelling, Given.number q n spelling ∈ options
  flags : ∀ f, f ∈ draft.flags ↔ Given.flag f ∈ options

/-- The draft can go on, and holds the options once its waiting value is checked. -/
structure Reflects (options : List Given) (draft : Draft) : Prop where
  isOpen : draft.ended = false
  settles : ∃ settled, draft.settle = .ok settled ∧ settled.Lists options

variable {done : List Given} {draft : Draft}

/-- A number that no option gives is not in the draft. -/
theorem Lists.lookup_eq_none (hlists : draft.Lists done) {quantity : Quantity}
    (hmissing : ∀ n spelling, .number quantity n spelling ∉ done) :
    draft.numbers.lookup quantity = none := by
  cases hlookup : draft.numbers.lookup quantity with
  | none => rfl
  | some n =>
    obtain ⟨spelling, hdone⟩ := (hlists.numbers quantity n).mp hlookup
    exact absurd hdone (hmissing n spelling)

theorem Lists.number (hlists : draft.Lists done) {quantity : Quantity}
    (hfresh : .inl quantity ∉ done.map Given.setting) (n : Nat) (spelling : Spelling) :
    Lists (done ++ [.number quantity n spelling])
      { draft with numbers := (quantity, n) :: draft.numbers } where
  numbers := by
    intro q m
    by_cases hsame : q = quantity
    · subst hsame
      have hdone : ∀ s, Given.number q m s ∉ done := by
        intro s hs
        exact hfresh (List.mem_map_of_mem (f := Given.setting) hs)
      rw [List.lookup_cons_self]
      simp [hdone, eq_comm]
    · rw [List.lookup_cons, beq_false_of_ne hsame]
      simp [hlists.numbers q m, hsame]
  flags := by
    intro f
    simp [hlists.flags f]

theorem Lists.flag (hlists : draft.Lists done) (flag : Flag) :
    Lists (done ++ [.flag flag]) { draft with flags := flag :: draft.flags } where
  numbers := by
    intro q m
    simp [hlists.numbers q m]
  flags := by
    intro f
    simp [hlists.flags f, or_comm]

/-- The words of a new option add it to the draft. -/
theorem Reflects.words (hreflects : draft.Reflects done) {command : Command} {option : Given}
    (hfits : option.Fits command) (hfresh : option.setting ∉ done.map Given.setting) :
    ∃ after, option.words.foldlM (Draft.feed command) draft = .ok after ∧
      after.Reflects (done ++ [option]) := by
  obtain ⟨hopen, settled, hsettle, hlists⟩ := hreflects
  cases option with
  | number quantity n spelling =>
    obtain ⟨hquantity, hadmits⟩ := hfits
    have hnew : .inl quantity ∉ done.map Given.setting := hfresh
    have hmissing : settled.numbers.lookup quantity = none := by
      apply hlists.lookup_eq_none
      intro m s hdone
      exact hnew (List.mem_map_of_mem (f := Given.setting) hdone)
    have hrecord := record_eq_ok_iff.mpr ⟨hmissing, n, quantity.denotes_toString n, hadmits, rfl⟩
    obtain ⟨after, hafter, hopen', hsettle'⟩ := feed_number hquantity hopen hsettle hrecord spelling
    exact ⟨after, hafter, hopen', _, hsettle', hlists.number hnew n spelling⟩
  | flag raised =>
    have hdown : raised ∉ settled.flags := by
      intro hup
      exact hfresh (List.mem_map_of_mem (f := Given.setting) ((hlists.flags raised).mp hup))
    have hraise : settled.raise raised = .ok { settled with flags := raised :: settled.flags } := by
      simp [raise, hdown]
    obtain ⟨hwaiting, hended⟩ := of_settle hsettle
    refine ⟨{ settled with flags := raised :: settled.flags }, ?_, hended.trans hopen, ?_⟩
    · show [_].foldlM (Draft.feed command) draft = _
      rw [List.foldlM_cons, feed_flag hfits hopen, hsettle]
      exact bind_eq_ok_iff.mpr ⟨_, hraise, rfl⟩
    · exact ⟨_, settle_of_none hwaiting, hlists.flag raised⟩

/-- The words of several options that set different things add them all. -/
theorem Reflects.options (hreflects : draft.Reflects done) {command : Command} {options : List Given}
    (hfits : ∀ option ∈ options, option.Fits command)
    (hdistinct : ((done ++ options).map Given.setting).Nodup) :
    ∃ after, (options.flatMap Given.words).foldlM (Draft.feed command) draft = .ok after ∧
      after.Reflects (done ++ options) := by
  induction options generalizing draft done with
  | nil =>
    rw [List.append_nil]
    exact ⟨draft, rfl, hreflects⟩
  | cons option options ih =>
    -- The first option goes over to those that are done, where it cannot clash with the others.
    obtain ⟨hoption, hoptions⟩ := List.forall_mem_cons.mp hfits
    have hassoc : done ++ option :: options = done ++ [option] ++ options := by simp
    have hfresh : option.setting ∉ done.map Given.setting := by
      rw [List.map_append, List.map_cons] at hdistinct
      intro hdone
      exact (List.nodup_append.mp hdistinct).2.2 _ hdone _ List.mem_cons_self rfl
    obtain ⟨next, hnext, hreflects⟩ := hreflects.words hoption hfresh
    rw [hassoc] at hdistinct ⊢
    obtain ⟨after, hafter, hreflects⟩ := ih hreflects hoptions hdistinct
    refine ⟨after, ?_, hreflects⟩
    rw [List.flatMap_cons, List.foldlM_append]
    exact bind_eq_ok_iff.mpr ⟨next, hnext, hafter⟩

end Draft

/-- A job is read back from its options, in any order and in either spelling. A number that is left out is
    the one that its variable is set to or, if that is not set, the default. -/
theorem options_in_any_order (environment : Environment) (job : Job)
    (style : Quantity → Option Spelling) (options : List Given)
    (hadmits : ∀ q ∈ job.command.quantities, q.Admits (job.number q))
    (horder : options.Perm (job.options style))
    (hmissing : ∀ q ∈ job.command.quantities, style q = none →
      environment.lookup q.envName = some (toString (job.number q)) ∨
      environment.lookup q.envName = none ∧ job.number q = q.default) :
    parse environment (job.command.name :: options.flatMap Given.words) = .ok job := by
  have hfits : ∀ option ∈ options, option.Fits job.command := by
    intro option hoption
    have hlisted := horder.mem_iff.mp hoption
    cases option with
    | number quantity value spelling =>
      obtain ⟨hquantity, -, rfl⟩ := Job.number_mem_options.mp hlisted
      exact ⟨hquantity, hadmits quantity hquantity⟩
    | flag raised => exact (Job.flag_mem_options.mp hlisted).1
  have hdistinct : (options.map Given.setting).Nodup :=
    (horder.map Given.setting).nodup_iff.mpr (job.options_distinct style)
  have hempty : Draft.Reflects [] {} := ⟨rfl, {}, rfl, by simp, by simp⟩
  obtain ⟨draft, hdraft, -, settled, hsettle, hlists⟩ := hempty.options hfits hdistinct
  rw [parse_command]
  refine bind_eq_ok_iff.mpr ⟨draft, hdraft, ?_⟩
  rw [Draft.finish_of_settle hsettle]
  refine (Draft.finish_eq_ok_iff (Draft.of_settle hsettle).1).mpr ⟨rfl, ?_, ?_⟩
  · intro q hq
    -- A number that is spelled out is in the draft; for one that is left out nothing is.
    cases hstyle : style q with
    | some spelling =>
      have hlisted : Given.number q (job.number q) spelling ∈ options :=
        horder.mem_iff.mpr (Job.number_mem_options.mpr ⟨hq, hstyle, rfl⟩)
      exact Or.inl ((hlists.numbers q _).mpr ⟨spelling, hlisted⟩)
    | none =>
      refine Or.inr ⟨hlists.lookup_eq_none ?_, ?_⟩
      · intro n spelling hoption
        obtain ⟨-, hspelled, -⟩ := Job.number_mem_options.mp (horder.mem_iff.mp hoption)
        exact absurd (hstyle.symm.trans hspelled) (by simp)
      · rcases hmissing q hq hstyle with hset | ⟨hunset, hdefault⟩
        · exact .fromVariable hset (q.denotes_toString _) (hadmits q hq)
        · rw [hdefault]
          exact .fromDefault hunset
  · intro f hf
    have hup : f ∈ settled.flags ↔ job.flag f = true := by
      rw [hlists.flags f, List.nil_append, horder.mem_iff, Job.flag_mem_options]
      exact and_iff_right hf
    rw [Bool.eq_iff_iff, List.contains_iff_mem, hup]

/-- A flag comes first and the runs are taken from the environment; then both numbers are given, so that it
    does not matter that the variable is set to no number. -/
theorem options_in_any_order_mixed :
    parse [("MERGE_BENCH_RUNS", "2")] ["sort", "--verify", "--len", "5"] =
      .ok (.sort ⟨5, 2, false, true⟩) ∧
    parse [("MERGE_BENCH_RUNS", "many")] ["primes", "--runs=3", "--count", "100"] =
      .ok (.primes ⟨100, 3⟩) := by
  constructor
  · exact options_in_any_order [("MERGE_BENCH_RUNS", "2")] (.sort ⟨5, 2, false, true⟩)
      (fun q => if q = .len then some .apart else none) [.flag .verify, .number .len 5 .apart]
      (by decide) (by decide) (by decide)
  · exact options_in_any_order [("MERGE_BENCH_RUNS", "many")] (.primes ⟨100, 3⟩)
      (fun q => some (if q = .count then .apart else .joined))
      [.number .runs 3 .joined, .number .count 100 .apart] (by decide) (by decide) (by decide)

end CommandLine

end MicroBench
