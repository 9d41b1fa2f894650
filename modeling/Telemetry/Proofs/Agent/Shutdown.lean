import Telemetry.Proofs.Agent.Account

/-!
# What becomes of what an agent is told

In the end an agent is stopped: every reporter reports once more, one after the other, and then the
pipeline is closed. Meanwhile the agent may still be told of segments and errors, for it runs until
the close.

Whatever is told before the last report of its reporter is in one message that was queued, and the
books show where that is now (`Settled`). What is told afterwards, but before the close, is accepted
too; yet it waits for a report that does not come (`told_around_stop`).
-/

namespace Telemetry

namespace Agent

open Account

variable {α : Type} [Quantity α]

theorem blank_create (config : Config) (host : Host)
    (registrations : List (ProfilerSettings α)) (moment : Moment) :
    (Pipeline.create config host registrations moment).Blank := ⟨rfl, rfl, rfl, rfl⟩

/-! ## The main result -/

/-- What an account says about its agent after some steps. -/
structure Settled (steps : List (Step Float)) (h : Account Float) : Prop where
  /-- the agent runs until its pipeline is closed -/
  running : (started h.pipeline).isRunning = !steps.any Step.isClose
  /-- the books are those of the queue -/
  dispatch : h.books.delivery.dispatch = h.pipeline.outlet.delivery.dispatch
  /-- they list every message that was ever queued -/
  listed : h.books.ledger.messages = h.posts.map Prod.snd
  /-- these are delivered, under way or waiting, once each, but for those dropped for their age -/
  books : h.books.acknowledged ++ h.books.delivery.dispatch.inFlight ++ h.books.delivery.pending
    = h.books.ledger.kept
  /-- the messages of the segments are those of their reports -/
  segmentPosts : h.postedBy .segments = h.segmentHistory.reports.flatMap Segments.Report.messages
  /-- each of these shows every segment told since the report before it in one message -/
  segmentReports : ∀ r ∈ h.segmentHistory.reports, r.Faithful
  /-- they have what was told before the last of them -/
  segments : (h.segmentHistory.reports.flatMap Segments.Report.timings).map Timing.call
    = (whileRunning (settledBy .segments steps)).filterMap Step.call?
  /-- all else that was told waits for the next report -/
  segmentsLeft : h.segmentHistory.counted.map Timing.call
    = (whileRunning steps).filterMap Step.call?
  errorPosts : h.postedBy .errors = h.errorHistory.reports.flatMap ErrorGroups.Report.messages
  errorReports : ∀ r ∈ h.errorHistory.reports, r.Faithful
  errors : h.errorHistory.reports.flatMap ErrorGroups.Report.errors
    = (whileRunning (settledBy .errors steps)).filterMap Step.error?
  errorsLeft : h.errorHistory.errors = (whileRunning steps).filterMap Step.error?

/-- Whatever an agent is told while it runs is in exactly one message if its reporter reports once
more, and all messages are accounted for. -/
theorem settled_of (config : Config) (host : Host) (registrations : List (ProfilerSettings Float))
    (moment : Moment) (steps : List (Step Float)) :
    let p := Pipeline.create config host registrations moment
    steps.foldl step (started p) = started (Account.of p steps).pipeline ∧
      Settled steps (Account.of p steps) := by
  intro p
  have hp : p.Blank := blank_create config host registrations moment
  have hk := kept_of hp steps
  refine ⟨foldl_step_started p steps, ?_, hk.dispatch, hk.books.messages, hk.books.balanced.kept_eq,
    hk.segmentPosts, ?_, reported_segments hp steps, hk.counted, hk.errorPosts, ?_,
    reported_errors hp steps, hk.recorded⟩
  · rw [isRunning_started, hk.stopped]
  · exact (Segments.History.kept_of _).faithful
  · exact (ErrorGroups.History.kept_of _).faithful

/-! ## Around a stop -/

omit [Quantity α] in
/-- Nothing after the last report of a reporter is settled. -/
theorem settledBy_append {reporter : Reporter} (before : List (Step α)) {s : Step α}
    (hs : s.reports reporter) {rest : List (Step α)} (hrest : ∀ t ∈ rest, ¬ t.reports reporter) :
    settledBy reporter (before ++ s :: rest) = before ++ [s] := by
  induction rest using List.reverseRecOn with
  | nil => exact List.rdropWhile_concat_neg _ _ _ (by simp [hs])
  | append_singleton rest t ih =>
    obtain ⟨hothers, hlast⟩ := List.forall_mem_append.mp hrest
    rw [← ih hothers, ← List.cons_append, ← List.append_assoc]
    exact List.rdropWhile_concat_pos _ _ _ (by simp [hlast t List.mem_cons_self])

omit [Quantity α] in
theorem whileRunning_eq_self {steps : List (Step α)} (h : ∀ s ∈ steps, ¬ s.isClose) :
    whileRunning steps = steps :=
  List.takeWhile_eq_self_iff.mpr fun s hmem => by simp [h s hmem]

omit [Quantity α] in
theorem whileRunning_append_close {steps : List (Step α)} (h : ∀ s ∈ steps, ¬ s.isClose)
    (after : List (Step α)) : whileRunning (steps ++ .close :: after) = steps := by
  rw [whileRunning, List.takeWhile_append_of_pos fun s hmem => by simp [h s hmem]]
  exact List.append_nil steps

/-- A run in which the agent is stopped. What the stop does apart from these two reports and the close
is among the other steps. -/
structure StoppedRun (α : Type) where
  before : List (Step α)
  /-- when the stop makes the segments report -/
  segmentsAround : Surroundings
  between : List (Step α)
  /-- when it makes the errors report -/
  errorsAround : Surroundings
  /-- what comes then, up to the close -/
  gap : List (Step α)
  after : List (Step α)

namespace StoppedRun

/-- The steps of a run. -/
def steps (r : StoppedRun α) : List (Step α) :=
  r.before ++ .job .segments .report r.segmentsAround ::
    (r.between ++ .job .errors .report r.errorsAround :: (r.gap ++ .close :: r.after))

/-- The reports of the stop are the last ones, and nothing else closes the pipeline. -/
structure Orderly (r : StoppedRun α) : Prop where
  before : ∀ s ∈ r.before, ¬ s.isClose
  between : ∀ s ∈ r.between, ¬ s.isClose ∧ ¬ s.reports .segments
  gap : ∀ s ∈ r.gap, ¬ s.isClose ∧ ¬ s.reports .segments ∧ ¬ s.reports .errors
  after : ∀ s ∈ r.after, ¬ s.reports .segments ∧ ¬ s.reports .errors

variable {r : StoppedRun α}

omit [Quantity α] in
theorem Orderly.settledBy_segments (h : r.Orderly) :
    whileRunning (settledBy .segments r.steps)
      = r.before ++ [.job .segments .report r.segmentsAround] := by
  have hrest : ∀ t ∈ r.between ++ .job .errors .report r.errorsAround ::
      (r.gap ++ .close :: r.after), ¬ t.reports .segments := by
    intro t hmem
    simp only [List.mem_append, List.mem_cons] at hmem
    rcases hmem with hmem | rfl | hmem | rfl | hmem
    · exact (h.between t hmem).2
    · simp [Step.reports]
    · exact (h.gap t hmem).2.1
    · simp [Step.reports]
    · exact (h.after t hmem).1
  rw [steps, settledBy_append r.before rfl hrest]
  refine whileRunning_eq_self fun s hmem => ?_
  rcases List.mem_append.mp hmem with hmem | hmem
  · exact h.before s hmem
  · rw [List.mem_singleton.mp hmem]
    simp [Step.isClose]

omit [Quantity α] in
theorem Orderly.settledBy_errors (h : r.Orderly) :
    whileRunning (settledBy .errors r.steps)
      = r.before ++ .job .segments .report r.segmentsAround ::
          (r.between ++ [.job .errors .report r.errorsAround]) := by
  have hrest : ∀ t ∈ r.gap ++ .close :: r.after, ¬ t.reports .errors := by
    intro t hmem
    simp only [List.mem_append, List.mem_cons] at hmem
    rcases hmem with hmem | rfl | hmem
    · exact (h.gap t hmem).2.2
    · simp [Step.reports]
    · exact (h.after t hmem).2
  have hsteps : r.steps = (r.before ++ .job .segments .report r.segmentsAround :: r.between)
      ++ .job .errors .report r.errorsAround :: (r.gap ++ .close :: r.after) := by
    simp [steps]
  rw [hsteps, settledBy_append _ rfl hrest, List.append_assoc, List.cons_append]
  refine whileRunning_eq_self fun s hmem => ?_
  simp only [List.mem_append, List.mem_cons, List.not_mem_nil, or_false] at hmem
  rcases hmem with hmem | rfl | hmem | rfl
  · exact h.before s hmem
  · simp [Step.isClose]
  · exact (h.between s hmem).1
  · simp [Step.isClose]

omit [Quantity α] in
theorem Orderly.whileRunning_steps (h : r.Orderly) :
    whileRunning r.steps
      = r.before ++ .job .segments .report r.segmentsAround ::
          (r.between ++ .job .errors .report r.errorsAround :: r.gap) := by
  have hsteps : r.steps = (r.before ++ .job .segments .report r.segmentsAround ::
      (r.between ++ .job .errors .report r.errorsAround :: r.gap)) ++ .close :: r.after := by
    simp [steps]
  rw [hsteps]
  refine whileRunning_append_close (fun s hmem => ?_) r.after
  simp only [List.mem_append, List.mem_cons] at hmem
  rcases hmem with hmem | rfl | hmem | rfl | hmem
  · exact h.before s hmem
  · simp [Step.isClose]
  · exact (h.between s hmem).1
  · simp [Step.isClose]
  · exact (h.gap s hmem).1

end StoppedRun

/-- When an agent is stopped, what it was told before the last report of its reporter is in the
messages that were queued, once each. What it was told after that waits in a window that is never
reported, although the agent was still running; and what it was told after the close is nowhere. -/
theorem told_around_stop (config : Config) (host : Host)
    (registrations : List (ProfilerSettings Float)) (moment : Moment) {r : StoppedRun Float}
    (hr : r.Orderly) :
    let h := Account.of (Pipeline.create config host registrations moment) r.steps
    Settled r.steps h ∧
      (h.segmentHistory.reports.flatMap Segments.Report.timings).map Timing.call
        = r.before.filterMap Step.call? ∧
      h.segmentHistory.current.map Timing.call = (r.between ++ r.gap).filterMap Step.call? ∧
      h.errorHistory.reports.flatMap ErrorGroups.Report.errors
        = (r.before ++ r.between).filterMap Step.error? ∧
      h.errorHistory.current = r.gap.filterMap Step.error? := by
  intro h
  have hs : Settled r.steps h := (settled_of config host registrations moment r.steps).2
  have hsegments := hs.segments
  have herrors := hs.errors
  have hcounted := hs.segmentsLeft
  have hrecorded := hs.errorsLeft
  rw [hr.settledBy_segments, List.filterMap_append] at hsegments
  rw [hr.settledBy_errors] at herrors
  rw [hr.whileRunning_steps] at hcounted hrecorded
  simp only [Step.call?, Step.error?, List.filterMap_append, List.filterMap_cons,
    List.filterMap_nil, List.append_nil] at hsegments herrors hcounted hrecorded
  -- what is not in a report is left
  rw [Segments.History.counted, List.map_append, hsegments] at hcounted
  rw [ErrorGroups.History.errors, herrors, List.append_assoc] at hrecorded
  refine ⟨hs, hsegments, ?_, ?_, ?_⟩
  · rw [List.filterMap_append]
    exact List.append_cancel_left hcounted
  · rw [List.filterMap_append]
    exact herrors
  · exact List.append_cancel_left (List.append_cancel_left hrecorded)

/-- Around all that happens in the run below. -/
def lateAround : Surroundings :=
  { moment := ⟨⟨0⟩, fun _ => 0⟩, processors := 4
    readings :=
      { now := ⟨0⟩, cpuTime := .error "none", maxResident := .error "none"
        currentResident := .error "none", virtualSize := .error "none" }
    profile := fun _ => .error (.sourceFailed "none") }

/-- A stop during which the agent is told of a segment, after the reports and before the close. -/
def lateRun : StoppedRun Float :=
  { before := [], segmentsAround := lateAround, between := [], errorsAround := lateAround
    gap := [.segment "late" 1 0], after := [] }

theorem orderly_lateRun : lateRun.Orderly := by
  refine ⟨List.forall_mem_nil _, List.forall_mem_nil _, ?_, List.forall_mem_nil _⟩
  intro s hmem
  rw [List.mem_singleton.mp hmem]
  simp [Step.isClose, Step.reports]

/-- The agent is still running when it is told, and yet no message is about the segment. -/
theorem told_too_late :
    let host : Host := ⟨"", none, 4, "1", ""⟩
    let p := Pipeline.create { appName := "shop" } host [] lateAround.moment
    let told := [.job .segments .report lateAround, .job .errors .report lateAround]
    lateRun.steps = told ++ [.segment "late" 1 0, .close] ∧
      (told.foldl step (started p)).isRunning = true ∧
      let h := Account.of p lateRun.steps
      (∀ report ∈ h.segmentHistory.reports,
        "late" ∉ report.records.map MetricRecord.name) ∧
      h.segmentHistory.current.map Timing.call = [("late", 1)] := by
  intro host p told
  obtain ⟨hfollows, hsettled⟩ := settled_of { appName := "shop" } host [] lateAround.moment told
  obtain ⟨hs, hreported, hleft, -, -⟩ :=
    told_around_stop { appName := "shop" } host [] lateAround.moment orderly_lateRun
  refine ⟨rfl, ?_, ?_, ?_⟩
  · rw [hfollows, hsettled.running]
    rfl
  · intro report hmem hname
    obtain ⟨-, timing, htiming, -⟩ := ((hs.segmentReports report hmem).recorded "late").mp hname
    have hcall : timing.call ∈ lateRun.before.filterMap Step.call? := by
      rw [← hreported]
      exact List.mem_map_of_mem (List.mem_flatMap.mpr ⟨report, hmem, htiming⟩)
    exact absurd hcall List.not_mem_nil
  · rw [hleft]
    rfl

end Agent

end Telemetry
