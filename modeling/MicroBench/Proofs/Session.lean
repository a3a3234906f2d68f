import MicroBench.Proofs.Step

/-! # Sessions and their scratch

  A session hands one pair of buffers from step to step. No step can tell what the session's buffers
  held at first or what earlier steps left in them.

  - `runSteps_of_inReach` and `runSteps_of_not_inReach` say when a session reports on every step.
  - `runSteps_same_observations` and `runSteps_same_verdicts` compare two sessions, by induction on
    the steps.
  - `sessions_ignore_scratch_contents` is the result for whole sessions.
-/

namespace MicroBench

variable {α : Type}

/-- Every item that the steps overwrite is there when its turn comes. -/
def InReach (len : Nat) : List (Step α) → Prop
  | [] => True
  | step :: rest => step.action.Reaches len ∧ InReach (step.action.lengthAfter len) rest

/-- The buffers `scratch'` serve a session as well as `scratch` did: they have the same lengths, or
    they are longer and no step was refused. -/
def Scratch.Serves (scratch' scratch : Scratch α) (reports : List (Report α)) : Prop :=
  scratch'.SameLengths scratch ∨
    (scratch.left.size ≤ scratch'.left.size ∧ scratch.right.size ≤ scratch'.right.size ∧
      ∀ report ∈ reports, report.verdict = .ok ())

/-- Buffers that serve a session serve its first step. -/
theorem Scratch.Serves.head {scratch scratch' : Scratch α} {report : Report α}
    {reports : List (Report α)} (hserves : scratch'.Serves scratch (report :: reports)) :
    (scratch'.left.size = scratch.left.size ∧ scratch'.right.size = scratch.right.size) ∨
      (scratch.left.size ≤ scratch'.left.size ∧ scratch.right.size ≤ scratch'.right.size ∧
        report.verdict = .ok ()) := by
  rcases hserves with hlengths | ⟨hleft, hright, haccepted⟩
  · exact .inl ⟨hlengths.left, hlengths.right⟩
  · exact .inr ⟨hleft, hright, haccepted report List.mem_cons_self⟩

/-- What the first step leaves of them serves the rest of the session. -/
theorem Scratch.Serves.tail {scratch scratch' after after' : Scratch α} {report : Report α}
    {reports : List (Report α)} (hserves : scratch'.Serves scratch (report :: reports))
    (hafter : after.SameLengths scratch) (hafter' : after'.SameLengths scratch') :
    after'.Serves after reports := by
  rcases hserves with hlengths | ⟨hleft, hright, haccepted⟩
  · exact .inl (hafter'.trans (hlengths.trans hafter.symm))
  · refine .inr ⟨?_, ?_, fun report hmem => haccepted report (List.mem_cons_of_mem _ hmem)⟩
    · rw [hafter.left, hafter'.left]
      exact hleft
    · rw [hafter.right, hafter'.right]
      exact hright

section

variable [Item α]

/-- A session whose first step has ended goes on from there. -/
theorem runSteps_cons {timetable : Timetable} {workspace after : Workspace α} {step : Step α}
    {report : Report α} (hstep : runStep (timetable 0) workspace step = .ok (after, report))
    (rest : List (Step α)) :
    runSteps timetable workspace (step :: rest) =
      (runSteps timetable.later after rest).map (report :: ·) := by
  simp only [runSteps, bind, Except.bind, hstep]
  cases runSteps timetable.later after rest <;> rfl

/-- A step that overwrites a missing item is the last one. -/
theorem runSteps_put_missing (timetable : Timetable) (values : Array α) (scratch : Scratch α)
    {step : Step α} (rest : List (Step α)) {index : Nat} {value : α}
    (haction : step.action = .put index value) (hindex : values.size ≤ index) :
    runSteps timetable ⟨values, scratch⟩ (step :: rest) =
      .error (.noSuchItem index values.size) := by
  have hstep : runStep (timetable 0) ⟨values, scratch⟩ step =
      .error (.noSuchItem index values.size) := by
    unfold runStep
    rw [haction]
    exact dif_neg (Nat.not_lt.mpr hindex)
  simp only [runSteps, bind, Except.bind, hstep]

/-- The first step of a session that ends well, and the rest of the session. -/
theorem runSteps_cons_eq_ok {timetable : Timetable} {values : Array α} {scratch : Scratch α}
    {step : Step α} {rest : List (Step α)} {reports : List (Report α)}
    (hfits : values.size < wordLimit) (hposed : step.WellPosed)
    (hrun : runSteps timetable ⟨values, scratch⟩ (step :: rest) = .ok reports) :
    ∃ report restReports, ∃ after : Scratch α, reports = report :: restReports ∧
      after.SameLengths scratch ∧ report.values.size < wordLimit ∧
      step.report (step.ownSchedule (timetable 0) values.size) values scratch.left.size
        scratch.right.size = .ok report ∧
      runSteps timetable.later ⟨report.values, after⟩ rest = .ok restReports := by
  by_cases hreaches : step.action.Reaches values.size
  · obtain ⟨report, after, hlengths, hsize, hreport, hstep⟩ :=
      runStep_of_reaches step (timetable 0) values scratch hfits hreaches
    have hword : report.values.size < wordLimit := hsize ▸ hposed.lengthAfter_fits hfits
    rw [runSteps_cons hstep] at hrun
    cases hrest : runSteps timetable.later ⟨report.values, after⟩ rest with
    | error error =>
      rw [hrest] at hrun
      exact absurd hrun (by simp [Except.map])
    | ok restReports =>
      rw [hrest] at hrun
      exact ⟨report, restReports, after, (Except.ok.inj hrun).symm, hlengths, hword, hreport, hrest⟩
  · obtain ⟨index, value, haction, hindex⟩ := Action.put_of_not_reaches hreaches
    rw [runSteps_put_missing timetable values scratch rest haction hindex] at hrun
    exact absurd hrun (by simp)

/-- A session that overwrites only items that are there reports on every step. -/
theorem runSteps_of_inReach (steps : List (Step α)) (timetable : Timetable) (values : Array α)
    (scratch : Scratch α) (hfits : values.size < wordLimit)
    (hposed : ∀ step ∈ steps, step.WellPosed) (hreach : InReach values.size steps) :
    ∃ reports, runSteps timetable ⟨values, scratch⟩ steps = .ok reports ∧
      reports.length = steps.length := by
  induction steps generalizing timetable values scratch with
  | nil => exact ⟨[], rfl, rfl⟩
  | cons step rest ih =>
    obtain ⟨hreaches, hrest⟩ := hreach
    obtain ⟨hstepPosed, hrestPosed⟩ := List.forall_mem_cons.mp hposed
    obtain ⟨report, after, -, hsize, -, hstep⟩ :=
      runStep_of_reaches step (timetable 0) values scratch hfits hreaches
    have hword : report.values.size < wordLimit :=
      hsize ▸ hstepPosed.lengthAfter_fits hfits
    obtain ⟨reports, hrun, hcount⟩ :=
      ih timetable.later report.values after hword hrestPosed (hsize ▸ hrest)
    refine ⟨report :: reports, ?_, congrArg (· + 1) hcount⟩
    rw [runSteps_cons hstep, hrun]
    rfl

/-- A session that overwrites an item that is not there ends with an error, which depends on the
    steps and the number of items only. -/
theorem runSteps_of_not_inReach (steps : List (Step α)) {len : Nat} (hfits : len < wordLimit)
    (hposed : ∀ step ∈ steps, step.WellPosed) (hreach : ¬ InReach len steps) :
    ∃ index len', len' ≤ index ∧ ∀ (timetable : Timetable) (values : Array α) (scratch : Scratch α),
      values.size = len →
        runSteps timetable ⟨values, scratch⟩ steps = .error (.noSuchItem index len') := by
  induction steps generalizing len with
  | nil => exact absurd trivial hreach
  | cons step rest ih =>
    obtain ⟨hstepPosed, hrestPosed⟩ := List.forall_mem_cons.mp hposed
    by_cases hreaches : step.action.Reaches len
    · -- The step goes on, so the item is missing later.
      obtain ⟨index, len', hindex, hrest⟩ := ih (hstepPosed.lengthAfter_fits hfits) hrestPosed
        (fun hrest => hreach ⟨hreaches, hrest⟩)
      refine ⟨index, len', hindex, ?_⟩
      rintro timetable values scratch rfl
      obtain ⟨report, after, -, hsize, -, hstep⟩ :=
        runStep_of_reaches step (timetable 0) values scratch hfits hreaches
      rw [runSteps_cons hstep, hrest timetable.later report.values after hsize]
      rfl
    · obtain ⟨index, value, haction, hindex⟩ := Action.put_of_not_reaches hreaches
      refine ⟨index, len, hindex, ?_⟩
      rintro timetable values scratch rfl
      exact runSteps_put_missing timetable values scratch rest haction hindex

/-- Two sessions in which the same steps are refused show the same at every step, whatever the
    lengths of their buffers are. -/
theorem runSteps_same_observations (steps : List (Step α)) {timetable timetable' : Timetable}
    {values : Array α} {scratch scratch' : Scratch α} {reports reports' : List (Report α)}
    (hfits : values.size < wordLimit) (hposed : ∀ step ∈ steps, step.WellPosed)
    (hrun : runSteps timetable ⟨values, scratch⟩ steps = .ok reports)
    (hrun' : runSteps timetable' ⟨values, scratch'⟩ steps = .ok reports')
    (hpassed : reports.map (·.verdict.isOk) = reports'.map (·.verdict.isOk)) :
    List.zipWith Step.observe steps reports = List.zipWith Step.observe steps reports' := by
  induction steps generalizing timetable timetable' values scratch scratch' reports reports' with
  | nil => rw [List.zipWith_nil_left, List.zipWith_nil_left]
  | cons step rest ih =>
    obtain ⟨hstep, hrestPosed⟩ := List.forall_mem_cons.mp hposed
    obtain ⟨report, restReports, after, rfl, -, hword, hreport, hrest⟩ :=
      runSteps_cons_eq_ok hfits hstep hrun
    obtain ⟨report', restReports', after', rfl, -, -, hreport', hrest'⟩ :=
      runSteps_cons_eq_ok hfits hstep hrun'
    obtain ⟨hhead, htail⟩ := List.cons.inj hpassed
    have hobserve := Step.report_observe hstep hreport hreport' hhead
    -- The values are part of what is shown, so the rest starts from the same values again.
    have hvalues : report.values = report'.values := congrArg Prod.fst hobserve
    rw [← hvalues] at hrest'
    have hrests := ih hword hrestPosed hrest hrest' htail
    rw [List.zipWith_cons_cons, List.zipWith_cons_cons, hobserve, hrests]

/-- Buffers that serve as well lead to the same verdict at every step. -/
theorem runSteps_same_verdicts (steps : List (Step α)) {timetable timetable' : Timetable}
    {values : Array α} {scratch scratch' : Scratch α} {reports reports' : List (Report α)}
    (hserves : scratch'.Serves scratch reports) (hfits : values.size < wordLimit)
    (hposed : ∀ step ∈ steps, step.WellPosed)
    (hrun : runSteps timetable ⟨values, scratch⟩ steps = .ok reports)
    (hrun' : runSteps timetable' ⟨values, scratch'⟩ steps = .ok reports') :
    reports.map (·.verdict) = reports'.map (·.verdict) := by
  induction steps generalizing timetable timetable' values scratch scratch' reports reports' with
  | nil =>
    cases hrun
    cases hrun'
    rfl
  | cons step rest ih =>
    obtain ⟨hstep, hrestPosed⟩ := List.forall_mem_cons.mp hposed
    obtain ⟨report, restReports, after, rfl, hafter, hword, hreport, hrest⟩ :=
      runSteps_cons_eq_ok hfits hstep hrun
    obtain ⟨report', restReports', after', rfl, hafter', -, hreport', hrest'⟩ :=
      runSteps_cons_eq_ok hfits hstep hrun'
    have hverdict := Step.report_verdict hreport hreport' hserves.head
    -- The same verdict is the same refusal or none, so the values agree as well.
    have hobserve := Step.report_observe hstep hreport hreport' (by rw [hverdict])
    have hvalues : report.values = report'.values := congrArg Prod.fst hobserve
    rw [← hvalues] at hrest'
    have hrests := ih (hserves.tail hafter hafter') hword hrestPosed hrest hrest'
    rw [List.map_cons, List.map_cons, hverdict, hrests]

/-- Two sessions of the same steps on the same values, with buffers that hold anything and under any
    schedules. If all items that are overwritten are there, both report on every step; otherwise both
    end with the same error.

    If the buffers have the same lengths, or if those of the second session are longer and no step of
    the first one is refused, the reports have the same verdicts and show the same sequences and the
    same calls of the sequential steps. With buffers of any lengths they show the same as long as the
    same steps are refused. -/
theorem sessions_ignore_scratch_contents (steps : List (Step α)) (timetable timetable' : Timetable)
    (values : Array α) (scratch scratch' : Scratch α) (hfits : values.size < wordLimit)
    (hposed : ∀ step ∈ steps, step.WellPosed) :
    (InReach values.size steps →
      ∃ reports reports', runSteps timetable ⟨values, scratch⟩ steps = .ok reports ∧
        runSteps timetable' ⟨values, scratch'⟩ steps = .ok reports' ∧
        reports.length = steps.length ∧ reports'.length = steps.length ∧
        (scratch'.Serves scratch reports →
          reports.map (·.verdict) = reports'.map (·.verdict) ∧
          List.zipWith Step.observe steps reports = List.zipWith Step.observe steps reports') ∧
        (reports.map (·.verdict.isOk) = reports'.map (·.verdict.isOk) →
          List.zipWith Step.observe steps reports = List.zipWith Step.observe steps reports')) ∧
    (¬ InReach values.size steps →
      ∃ index len, len ≤ index ∧
        runSteps timetable ⟨values, scratch⟩ steps = .error (.noSuchItem index len) ∧
        runSteps timetable' ⟨values, scratch'⟩ steps = .error (.noSuchItem index len)) := by
  constructor
  · intro hreach
    obtain ⟨reports, hrun, hcount⟩ :=
      runSteps_of_inReach steps timetable values scratch hfits hposed hreach
    obtain ⟨reports', hrun', hcount'⟩ :=
      runSteps_of_inReach steps timetable' values scratch' hfits hposed hreach
    have hobserve := runSteps_same_observations steps hfits hposed hrun hrun'
    refine ⟨reports, reports', hrun, hrun', hcount, hcount', ?_, hobserve⟩
    intro hserves
    have hverdicts := runSteps_same_verdicts steps hserves hfits hposed hrun hrun'
    have hpassed := congrArg (List.map Except.isOk) hverdicts
    rw [List.map_map, List.map_map] at hpassed
    exact ⟨hverdicts, hobserve hpassed⟩
  · intro hreach
    obtain ⟨index, len, hindex, hrun⟩ := runSteps_of_not_inReach steps hfits hposed hreach
    exact ⟨index, len, hindex, hrun timetable values scratch rfl, hrun timetable' values scratch' rfl⟩

/-- A session with both engines, answers from a script, a refused step and two pairs of buffers that
    differ in every slot. -/
theorem sessions_ignore_scratch_contents_mixed :
    let steps : List (Step Int32) := [
      ⟨.sortRange 0 3, .sequential, some (.script #[.gt, .lt, .eq])⟩,
      ⟨.put 2 9, .sequential, none⟩,
      ⟨.sort, .forkJoin, some (.ofOrder fun _ _ => .lt)⟩,
      ⟨.merge 0 4 5, .sequential, some (.constant .gt)⟩,
      ⟨.load #[3, 1, 2], .sequential, none⟩,
      ⟨.sortRange 0 2, .forkJoin, none⟩]
    let values : Array Int32 := #[4, -1, 7, 0, 2, 5]
    let scratch : Scratch Int32 := ⟨#[0, 0, 0], #[0, 0]⟩
    let scratch' : Scratch Int32 := ⟨#[7, -7, 1], #[8, 3]⟩
    let rightFirst : Timetable := fun _ _ => .right
    (∀ step ∈ steps, step.WellPosed) ∧ InReach values.size steps ∧ scratch'.SameLengths scratch ∧
      ∃ reports reports', runSteps .leftFirst ⟨values, scratch⟩ steps = .ok reports ∧
        runSteps rightFirst ⟨values, scratch'⟩ steps = .ok reports' ∧
        reports.length = 6 ∧ reports.map (·.verdict) = reports'.map (·.verdict) ∧
        List.zipWith Step.observe steps reports = List.zipWith Step.observe steps reports' := by
  intro steps values scratch scratch' rightFirst
  have hposed : ∀ step ∈ steps, step.WellPosed := by
    intro step hmem
    simp only [steps, List.mem_cons, List.not_mem_nil, or_false] at hmem
    rcases hmem with rfl | rfl | rfl | rfl | rfl | rfl
    · exact ⟨by simp, by simp⟩
    · exact ⟨by simp, by simp⟩
    · refine ⟨by simp, ?_⟩
      intro _ oracle horacle
      cases horacle
      exact ⟨_, Oracle.ofOrder_follows _⟩
    · exact ⟨by simp, by simp⟩
    · refine ⟨?_, by simp⟩
      intro loaded hload
      cases hload
      decide
    · exact ⟨by simp, by simp⟩
  have hreach : InReach values.size steps := by
    simp [steps, values, InReach, Action.Reaches, Action.lengthAfter]
  have hlengths : scratch'.SameLengths scratch := ⟨rfl, rfl⟩
  obtain ⟨reports, reports', hrun, hrun', hcount, -, hserves, -⟩ :=
    (sessions_ignore_scratch_contents steps .leftFirst rightFirst values scratch scratch' (by decide)
      hposed).1 hreach
  exact ⟨hposed, hreach, hlengths, reports, reports', hrun, hrun', hcount, hserves (.inl hlengths)⟩

end

end MicroBench
