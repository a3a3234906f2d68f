import MicroBench.Sort.Session
import MicroBench.Proofs.Order
import MicroBench.Proofs.Safety

/-! # Steps and their scratch

  What a step of a session reports depends on the lengths of the buffers only, never on what they
  hold, and a step that is not refused does not even depend on the lengths.

  - `Action.effect` and `Step.report` tell what a step does without the contents of the buffers;
    `runStep_eq_report` ties them to `runStep`.
  - `Action.Admits` says what an action requires of the buffers.
  - `Step.report_observe` and `Step.report_verdict` compare the reports of one step with two pairs
    of buffers and under two schedules.
-/

namespace MicroBench

variable {σ α : Type}

/-! ## Effects of actions -/

/-- The schedule that a sort of `n` items runs under. The sequential engine has one only. -/
def Engine.schedule (engine : Engine) (schedule : Schedule) (n : Nat) : Schedule :=
  match engine with
  | .sequential => .leftFirst
  | .forkJoin => schedule.forked n

/-- What an action does to a sequence, with buffers of the given lengths. -/
def Action.effect (action : Action α) (compare : Comparator σ α) (schedule : Schedule)
    (values : Array α) (leftLen rightLen : Nat) (memory : σ) : Except SessionError (Effect σ α) :=
  match action with
  | .sort =>
    let sorted := listSort compare schedule values.toList memory
    .ok ⟨.ok (), sorted.1.toArray, sorted.2⟩
  | .sortRange low high =>
    .ok (rangeEffect compare schedule low high values leftLen rightLen memory)
  | .merge low mid high => .ok (mergeEffect compare low mid high values leftLen rightLen memory)
  | .put index value =>
    if h : index < values.size then .ok ⟨.ok (), values.set index value h, memory⟩
    else .error (.noSuchItem index values.size)
  | .load loaded => .ok ⟨.ok (), loaded, memory⟩

/-- An action can go on: an item that it overwrites is there. -/
def Action.Reaches (len : Nat) : Action α → Prop
  | .put index _ => index < len
  | _ => True

/-- How many items there are after an action on `len` items. -/
def Action.lengthAfter (len : Nat) : Action α → Nat
  | .load loaded => loaded.size
  | _ => len

/-- An action that cannot go on overwrites an item past the end. -/
theorem Action.put_of_not_reaches {action : Action α} {len : Nat} (hreaches : ¬ action.Reaches len) :
    ∃ index value, action = .put index value ∧ len ≤ index := by
  cases action with
  | put index value => exact ⟨index, value, rfl, Nat.le_of_not_lt hreaches⟩
  | sort => exact absurd trivial hreaches
  | sortRange low high => exact absurd trivial hreaches
  | merge low mid high => exact absurd trivial hreaches
  | load loaded => exact absurd trivial hreaches

/-- What an action on `len` items requires: its range lies inside the sequence, and the buffers hold
    the runs that it merges. -/
def Action.Admits (len leftLen rightLen : Nat) : Action α → Prop
  | .sortRange low high =>
    low < high → high < len ∧ (high - low + 2) / 2 ≤ leftLen ∧ (high - low + 1) / 2 ≤ rightLen
  | .merge low mid high =>
    low ≤ mid ∧ mid ≤ high ∧ high < len ∧ mid - low + 1 ≤ leftLen ∧ high - mid ≤ rightLen
  | _ => True

/-- Longer buffers do for every action that shorter ones do for. -/
theorem Action.Admits.mono {action : Action α} {len leftLen rightLen leftLen' rightLen' : Nat}
    (hadmits : action.Admits len leftLen rightLen) (hleft : leftLen ≤ leftLen')
    (hright : rightLen ≤ rightLen') : action.Admits len leftLen' rightLen' := by
  cases action with
  | sortRange low high =>
    intro hlow
    obtain ⟨hhigh, hl, hr⟩ := hadmits hlow
    exact ⟨hhigh, Nat.le_trans hl hleft, Nat.le_trans hr hright⟩
  | merge low mid high =>
    obtain ⟨hlow, hmid, hhigh, hl, hr⟩ := hadmits
    exact ⟨hlow, hmid, hhigh, Nat.le_trans hl hleft, Nat.le_trans hr hright⟩
  | sort => trivial
  | put index value => trivial
  | load loaded => trivial

section

variable (action : Action α) (compare : Comparator σ α) (schedule : Schedule) (values : Array α)
  (leftLen rightLen : Nat) (memory : σ)

/-- An action that can go on has an effect, whatever the comparator and the buffers are. -/
theorem Action.effect_of_reaches (hreaches : action.Reaches values.size) :
    ∃ effect, action.effect compare schedule values leftLen rightLen memory = .ok effect ∧
      effect.values.size = action.lengthAfter values.size := by
  cases action with
  | sort => exact ⟨_, rfl, listSort_length compare schedule values.toList memory⟩
  | sortRange low high =>
    exact ⟨_, rfl, (rangeEffect_rearranged compare schedule low high values _ _ memory).size⟩
  | merge low mid high =>
    exact ⟨_, rfl, (mergeEffect_rearranged compare low mid high values _ _ memory).size⟩
  | put index value => exact ⟨_, dif_pos hreaches, Array.size_set hreaches⟩
  | load loaded => exact ⟨_, rfl, rfl⟩

/-- An action is accepted if and only if it has what it requires. -/
theorem Action.effect_accepted_iff {effect : Effect σ α}
    (heffect : action.effect compare schedule values leftLen rightLen memory = .ok effect) :
    effect.verdict = .ok () ↔ action.Admits values.size leftLen rightLen := by
  cases action with
  | sort =>
    cases heffect
    exact iff_of_true rfl trivial
  | sortRange low high =>
    cases heffect
    exact rangeEffect_accepted_iff compare schedule values memory
  | merge low mid high =>
    cases heffect
    exact mergeEffect_accepted_iff compare values memory
  | put index value =>
    simp only [Action.effect] at heffect
    by_cases hindex : index < values.size
    · rw [dif_pos hindex] at heffect
      cases heffect
      exact iff_of_true rfl trivial
    · rw [dif_neg hindex] at heffect
      exact absurd heffect (by simp)
  | load loaded =>
    cases heffect
    exact iff_of_true rfl trivial

end

/-! ## Two effects of one action -/

/-- Two schedules lead to one sorted list, if they are the same or the answers follow an order. -/
theorem listSort_values_eq {compare : Comparator σ α} {schedule schedule' : Schedule}
    (hsame : schedule = schedule' ∨ ∃ order, compare.Follows order) (xs : List α) (memory : σ) :
    (listSort compare schedule xs memory).1 = (listSort compare schedule' xs memory).1 := by
  rcases hsame with rfl | ⟨order, hfollows⟩
  · rfl
  · rw [listSort_of_follows hfollows, listSort_of_follows hfollows]

/-- Two checks of the same arguments that differ in the buffers' lengths: if both refuse or none
    does, the effects differ at most in the reason for the refusal. -/
theorem Admission.effect_agrees {admission admission' : Admission}
    (hidle : admission = .idle ↔ admission' = .idle) (low high : Nat) (values : Array α)
    (memory : σ) {done done' : List α × σ} (hdone : done.1 = done'.1)
    (hpassed : (admission.effect low high values memory done).verdict.isOk =
      (admission'.effect low high values memory done').verdict.isOk) :
    (admission.effect low high values memory done).values =
        (admission'.effect low high values memory done').values ∧
      (done.2 = done'.2 → (admission.effect low high values memory done).memory =
        (admission'.effect low high values memory done').memory) := by
  cases admission with
  | idle =>
    rw [hidle.mp rfl]
    exact ⟨rfl, fun _ => rfl⟩
  | refused error =>
    cases admission' with
    | idle => exact absurd (hidle.mpr rfl) (by simp)
    | refused error' => exact ⟨rfl, fun _ => rfl⟩
    | ready => exact absurd hpassed (by simp [Admission.effect, Except.isOk, Except.toBool])
  | ready =>
    cases admission' with
    | idle => exact absurd (hidle.mpr rfl) (by simp)
    | refused error' => exact absurd hpassed (by simp [Admission.effect, Except.isOk, Except.toBool])
    | ready => exact ⟨congrArg (splice values low high) hdone, id⟩

/-- One action, with buffers of any lengths and under two schedules: if both effects refuse or none
    does, they have the same values, and under one schedule also the same memory. -/
theorem Action.effect_agrees {compare : Comparator σ α} {schedule schedule' : Schedule}
    (hsame : schedule = schedule' ∨ ∃ order, compare.Follows order) (action : Action α)
    (values : Array α) {leftLen rightLen leftLen' rightLen' : Nat} (memory : σ)
    {effect effect' : Effect σ α}
    (heffect : action.effect compare schedule values leftLen rightLen memory = .ok effect)
    (heffect' : action.effect compare schedule' values leftLen' rightLen' memory = .ok effect')
    (hpassed : effect.verdict.isOk = effect'.verdict.isOk) :
    effect.values = effect'.values ∧ (schedule = schedule' → effect.memory = effect'.memory) := by
  cases action with
  | sort =>
    cases heffect
    cases heffect'
    refine ⟨congrArg List.toArray (listSort_values_eq hsame values.toList memory), ?_⟩
    rintro rfl
    rfl
  | sortRange low high =>
    cases heffect
    cases heffect'
    have hidle : Admission.forRange values.size low high leftLen rightLen = .idle ↔
        Admission.forRange values.size low high leftLen' rightLen' = .idle := by
      rw [Admission.forRange_eq_idle_iff, Admission.forRange_eq_idle_iff]
    obtain ⟨hvalues, hmemory⟩ := Admission.effect_agrees hidle low high values memory
      (listSort_values_eq hsame (segment values low high) memory) hpassed
    refine ⟨hvalues, ?_⟩
    rintro rfl
    exact hmemory rfl
  | merge low mid high =>
    cases heffect
    cases heffect'
    -- A merge has no schedule, and it is never idle.
    have hidle : Admission.forMerge values.size low mid high leftLen rightLen = .idle ↔
        Admission.forMerge values.size low mid high leftLen' rightLen' = .idle :=
      iff_of_false (Admission.forMerge_ne_idle _ _ _ _ _ _) (Admission.forMerge_ne_idle _ _ _ _ _ _)
    obtain ⟨hvalues, hmemory⟩ := Admission.effect_agrees hidle low high values memory rfl hpassed
    exact ⟨hvalues, fun _ => hmemory rfl⟩
  | put index value =>
    have heq : effect = effect' := Except.ok.inj (heffect.symm.trans heffect')
    exact ⟨congrArg Effect.values heq, fun _ => congrArg Effect.memory heq⟩
  | load loaded =>
    have heq : effect = effect' := Except.ok.inj (heffect.symm.trans heffect')
    exact ⟨congrArg Effect.values heq, fun _ => congrArg Effect.memory heq⟩

theorem Admission.effect_verdict (admission : Admission) (low high : Nat) (values : Array α)
    (memory : σ) (done done' : List α × σ) :
    (admission.effect low high values memory done).verdict =
      (admission.effect low high values memory done').verdict := by
  cases admission <;> rfl

/-- The verdict on an action is spoken before anything is compared. -/
theorem Action.effect_verdict {compare : Comparator σ α} {schedule schedule' : Schedule}
    (action : Action α) (values : Array α) {leftLen rightLen : Nat} (memory : σ)
    {effect effect' : Effect σ α}
    (heffect : action.effect compare schedule values leftLen rightLen memory = .ok effect)
    (heffect' : action.effect compare schedule' values leftLen rightLen memory = .ok effect') :
    effect.verdict = effect'.verdict := by
  cases action with
  | sort =>
    cases heffect
    cases heffect'
    rfl
  | sortRange low high =>
    cases heffect
    cases heffect'
    exact Admission.effect_verdict _ low high values memory _ _
  | merge low mid high => exact congrArg Effect.verdict (Except.ok.inj (heffect.symm.trans heffect'))
  | put index value => exact congrArg Effect.verdict (Except.ok.inj (heffect.symm.trans heffect'))
  | load loaded => exact congrArg Effect.verdict (Except.ok.inj (heffect.symm.trans heffect'))

/-! ## Reports of steps -/

theorem Engine.sortBy_eq_ok (engine : Engine) (compare : Comparator σ α) (schedule : Schedule)
    (values : Array α) (memory : σ) (hfits : values.size < wordLimit) :
    let sorted := listSort compare (engine.schedule schedule values.size) values.toList memory
    engine.sortBy compare schedule values memory = .ok (sorted.1.toArray, sorted.2) := by
  cases engine with
  | sequential => exact Sequential.sortBy_eq_ok compare values memory hfits
  | forkJoin => exact ForkJoin.sortBy_eq_ok compare schedule values memory hfits

theorem Engine.sortRangeBy_hasEffect (engine : Engine) (compare : Comparator σ α)
    (schedule : Schedule) (low high : Nat) (values : Array α) (scratch : Scratch α) (memory : σ)
    (hfits : values.size < wordLimit) :
    HasEffect scratch (engine.sortRangeBy compare schedule low high ⟨values, scratch⟩ memory)
      (rangeEffect compare (engine.schedule schedule (high - low + 1)) low high values
        scratch.left.size scratch.right.size memory) := by
  cases engine with
  | sequential => exact Sequential.sortRangeBy_hasEffect compare low high values scratch memory hfits
  | forkJoin =>
    exact ForkJoin.sortRangeBy_hasEffect compare schedule low high values scratch memory hfits

/-- What can be asked of a step: a sequence that it brings in has a word for its length, and the
    answers on a fork-join step follow an order, since its calls come in no order. Nothing is asked
    of the answers on a sequential step. -/
structure Step.WellPosed (step : Step α) : Prop where
  fits : ∀ loaded, step.action = .load loaded → loaded.size < wordLimit
  steady : step.engine = .forkJoin → ∀ oracle, step.oracle = some oracle →
    ∃ order, oracle.comparator.Follows order

/-- The length stays a word from step to step. -/
theorem Step.WellPosed.lengthAfter_fits {step : Step α} (hposed : step.WellPosed) {len : Nat}
    (hfits : len < wordLimit) : step.action.lengthAfter len < wordLimit := by
  cases haction : step.action with
  | load loaded => exact hposed.fits loaded haction
  | sort => exact hfits
  | sortRange low high => exact hfits
  | merge low mid high => exact hfits
  | put index value => exact hfits

section

variable [Item α]

/-- The comparator of a step with its first memory, and the calls that a memory gives away. -/
structure Judge (α : Type) where
  Memory : Type
  compare : Comparator Memory α
  start : Memory
  calls : Memory → Option (CallLog α)

/-- A step with an oracle asks it and tells the calls, a step without one uses the natural order. -/
def Step.judge (step : Step α) : Judge α :=
  match step.oracle with
  | some oracle => ⟨CallLog α, oracle.comparator, #[], some⟩
  | none => ⟨Unit, naturalComparator, (), fun _ => none⟩

/-- What a step reports, with buffers of the given lengths. -/
def Step.report (step : Step α) (schedule : Schedule) (values : Array α) (leftLen rightLen : Nat) :
    Except SessionError (Report α) :=
  (step.action.effect step.judge.compare schedule values leftLen rightLen step.judge.start).map
    fun effect => ⟨effect.verdict, effect.values, step.judge.calls effect.memory⟩

/-- The schedule that a step on `len` items runs under. -/
def Step.ownSchedule (step : Step α) (schedule : Schedule) (len : Nat) : Schedule :=
  step.engine.schedule schedule (step.action.span len)

/-- A task that has the effect of the step's action gives the step's report. -/
theorem withOracle_eq_report (step : Step α) (schedule : Schedule) (values : Array α)
    (scratch : Scratch α)
    (task : {σ : Type} → Comparator σ α → σ → Except Fault (Outcome σ α))
    (htask : ∀ {σ : Type} (compare : Comparator σ α) (memory : σ), ∃ effect,
      step.action.effect compare schedule values scratch.left.size scratch.right.size memory =
        .ok effect ∧ HasEffect scratch (task compare memory) effect) :
    ∃ after : Scratch α, after.SameLengths scratch ∧
      (withOracle step.oracle task).mapError .fault =
        (step.report schedule values scratch.left.size scratch.right.size).map
          fun report => (⟨report.values, after⟩, report) := by
  unfold withOracle Step.report Step.judge
  cases step.oracle with
  | none =>
    obtain ⟨effect, heffect, after, hlengths, hrun⟩ := htask naturalComparator ()
    refine ⟨after, hlengths, ?_⟩
    simp only [heffect, hrun]
    rfl
  | some oracle =>
    obtain ⟨effect, heffect, after, hlengths, hrun⟩ := htask oracle.comparator #[]
    refine ⟨after, hlengths, ?_⟩
    simp only [heffect, hrun]
    rfl

/-- A step ends without a fault and with its report, and the buffers keep their lengths. -/
theorem runStep_eq_report (step : Step α) (schedule : Schedule) (values : Array α)
    (scratch : Scratch α) (hfits : values.size < wordLimit) :
    ∃ after : Scratch α, after.SameLengths scratch ∧
      runStep schedule ⟨values, scratch⟩ step =
        (step.report (step.ownSchedule schedule values.size) values scratch.left.size
          scratch.right.size).map fun report => (⟨report.values, after⟩, report) := by
  obtain ⟨action, engine, oracle⟩ := step
  cases action with
  | sort =>
    refine withOracle_eq_report ⟨.sort, engine, oracle⟩ _ values scratch _ ?_
    intro σ compare memory
    have hsort := engine.sortBy_eq_ok compare schedule values memory hfits
    refine ⟨_, rfl, scratch, .refl scratch, ?_⟩
    simp only [bind, Except.bind, hsort]
    rfl
  | sortRange low high =>
    refine withOracle_eq_report ⟨.sortRange low high, engine, oracle⟩ _ values scratch _ ?_
    intro σ compare memory
    exact ⟨_, rfl,
      engine.sortRangeBy_hasEffect compare schedule low high values scratch memory hfits⟩
  | merge low mid high =>
    refine withOracle_eq_report ⟨.merge low mid high, engine, oracle⟩ _ values scratch _ ?_
    intro σ compare memory
    exact ⟨_, rfl, mergeBy_hasEffect compare low mid high values scratch memory hfits⟩
  | put index value =>
    refine ⟨scratch, .refl scratch, ?_⟩
    unfold runStep Step.report Action.effect
    by_cases hindex : index < values.size
    · simp only [dif_pos hindex]
      cases oracle <;> rfl
    · simp only [dif_neg hindex]
      cases oracle <;> rfl
  | load loaded =>
    refine ⟨scratch, .refl scratch, ?_⟩
    cases oracle <;> rfl

/-- A step whose action can go on has a report. -/
theorem Step.report_of_reaches (step : Step α) (schedule : Schedule) (values : Array α)
    (leftLen rightLen : Nat) (hreaches : step.action.Reaches values.size) :
    ∃ report, step.report schedule values leftLen rightLen = .ok report ∧
      report.values.size = step.action.lengthAfter values.size := by
  obtain ⟨effect, heffect, hsize⟩ := step.action.effect_of_reaches step.judge.compare schedule
    values leftLen rightLen step.judge.start hreaches
  refine ⟨⟨effect.verdict, effect.values, step.judge.calls effect.memory⟩, ?_, hsize⟩
  unfold Step.report
  rw [heffect]
  rfl

/-- A step that can go on hands its values and buffers of the old lengths to the next one. -/
theorem runStep_of_reaches (step : Step α) (schedule : Schedule) (values : Array α)
    (scratch : Scratch α) (hfits : values.size < wordLimit)
    (hreaches : step.action.Reaches values.size) :
    ∃ report, ∃ after : Scratch α, after.SameLengths scratch ∧
      report.values.size = step.action.lengthAfter values.size ∧
      step.report (step.ownSchedule schedule values.size) values scratch.left.size
        scratch.right.size = .ok report ∧
      runStep schedule ⟨values, scratch⟩ step = .ok (⟨report.values, after⟩, report) := by
  obtain ⟨after, hlengths, hstep⟩ := runStep_eq_report step schedule values scratch hfits
  obtain ⟨report, hreport, hsize⟩ := step.report_of_reaches (step.ownSchedule schedule values.size)
    values scratch.left.size scratch.right.size hreaches
  rw [hreport] at hstep
  exact ⟨report, after, hlengths, hsize, hreport, hstep⟩

/-- A report tells an effect of the step's action. -/
theorem Step.effect_of_report {step : Step α} {schedule : Schedule} {values : Array α}
    {leftLen rightLen : Nat} {report : Report α}
    (hreport : step.report schedule values leftLen rightLen = .ok report) :
    ∃ effect, step.action.effect step.judge.compare schedule values leftLen rightLen
        step.judge.start = .ok effect ∧
      report = ⟨effect.verdict, effect.values, step.judge.calls effect.memory⟩ := by
  unfold Step.report at hreport
  cases heffect : step.action.effect step.judge.compare schedule values leftLen rightLen
    step.judge.start with
  | error error =>
    rw [heffect] at hreport
    exact absurd hreport (by simp [Except.map])
  | ok effect =>
    rw [heffect] at hreport
    exact ⟨effect, rfl, (Except.ok.inj hreport).symm⟩

/-- Two schedules of a step differ only if its answers follow an order. -/
theorem Step.WellPosed.schedules {step : Step α} (hposed : step.WellPosed)
    (schedule schedule' : Schedule) (len : Nat) :
    step.ownSchedule schedule len = step.ownSchedule schedule' len ∨
      ∃ order, step.judge.compare.Follows order := by
  cases hengine : step.engine with
  | sequential =>
    left
    simp only [Step.ownSchedule, hengine, Engine.schedule]
  | forkJoin =>
    right
    unfold Step.judge
    cases horacle : step.oracle with
    | none => exact ⟨Item.order, Comparator.ofOrder_follows Item.order⟩
    | some oracle => exact hposed.steady hengine oracle horacle

/-- What a step shows of the sequence and of its calls. Calls on a fork-join step have no order and
    are left out. -/
def Step.observe (step : Step α) (report : Report α) : Array α × Option (CallLog α) :=
  (report.values, if step.engine = .sequential then report.calls else none)

/-- A step on the same values with other buffers and under another schedule shows the same, unless
    it is refused in one of the two cases only. -/
theorem Step.report_observe {step : Step α} (hposed : step.WellPosed)
    {schedule schedule' : Schedule} {values : Array α} {leftLen rightLen leftLen' rightLen' : Nat}
    {report report' : Report α}
    (hreport : step.report (step.ownSchedule schedule values.size) values leftLen rightLen =
      .ok report)
    (hreport' : step.report (step.ownSchedule schedule' values.size) values leftLen' rightLen' =
      .ok report')
    (hpassed : report.verdict.isOk = report'.verdict.isOk) :
    step.observe report = step.observe report' := by
  obtain ⟨effect, heffect, rfl⟩ := Step.effect_of_report hreport
  obtain ⟨effect', heffect', rfl⟩ := Step.effect_of_report hreport'
  obtain ⟨hvalues, hmemory⟩ := Action.effect_agrees (hposed.schedules schedule schedule' values.size)
    step.action values step.judge.start heffect heffect' hpassed
  unfold Step.observe
  by_cases hengine : step.engine = .sequential
  · have hsame : step.ownSchedule schedule values.size = step.ownSchedule schedule' values.size := by
      simp only [Step.ownSchedule, hengine, Engine.schedule]
    simp only [if_pos hengine, hvalues, hmemory hsame]
  · simp only [if_neg hengine, hvalues]

/-- A step on the same values gets the same verdict if the buffers have the same lengths, and also
    with longer buffers if it is accepted. -/
theorem Step.report_verdict {step : Step α} {schedule schedule' : Schedule} {values : Array α}
    {leftLen rightLen leftLen' rightLen' : Nat} {report report' : Report α}
    (hreport : step.report schedule values leftLen rightLen = .ok report)
    (hreport' : step.report schedule' values leftLen' rightLen' = .ok report')
    (hroom : (leftLen' = leftLen ∧ rightLen' = rightLen) ∨
      (leftLen ≤ leftLen' ∧ rightLen ≤ rightLen' ∧ report.verdict = .ok ())) :
    report.verdict = report'.verdict := by
  obtain ⟨effect, heffect, rfl⟩ := Step.effect_of_report hreport
  obtain ⟨effect', heffect', rfl⟩ := Step.effect_of_report hreport'
  rcases hroom with ⟨rfl, rfl⟩ | ⟨hleft, hright, haccepted⟩
  · exact Action.effect_verdict step.action values step.judge.start heffect heffect'
  · have hadmits := (Action.effect_accepted_iff _ _ _ _ _ _ _ heffect).mp haccepted
    have haccepted' := (Action.effect_accepted_iff _ _ _ _ _ _ _ heffect').mpr
      (hadmits.mono hleft hright)
    exact haccepted.trans haccepted'.symm

end

end MicroBench
