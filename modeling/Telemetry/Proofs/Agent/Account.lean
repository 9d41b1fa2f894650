import Mathlib.Data.List.DropRight
import Telemetry.Proofs.Agent.Lifecycle
import Telemetry.Proofs.Delivery.Ledger
import Telemetry.Proofs.Reporting.Errors
import Telemetry.Proofs.Reporting.Segments

/-!
# Accounts of agents

An agent is told of segments and errors while its reporters report and its messages go out, and all
this may overlap in any way. So each is a step of its own here. To report everything is to have one
reporter report after the other (`reportNow_started`), and other steps may come between these.

An account follows an agent from its start through any steps. It keeps every message that was queued,
with the reporter it came from, and the books of what became of these messages. What holds throughout
(`Kept`) is that the segments and the errors have been asked for just what the agent was told while
it was running, and that their messages are those of their reports. So what was told before the last
report of its reporter was reported (`reported_segments`, `reported_errors`), and all else waits.
-/

namespace Telemetry

/-! ## Reporting everything is reporting one after the other -/

namespace Pipeline

variable {α : Type} [Quantity α]

/-- The reporters of a pipeline in the order in which they report. -/
def reporters (p : Pipeline α) : List Reporter :=
  [.segments, .errors, .process] ++ (List.range p.profilers.length).map .profiler

/-- Have some reporters report, one after the other. -/
def performAll (s : Surroundings) (reporters : List Reporter) (p : Pipeline α) : Pipeline α :=
  reporters.foldl (fun p reporter => p.perform reporter .report s) p

/-- Profilers that report in turn, behind others that have done so. -/
theorem performAll_profilers (s : Surroundings) (p : Pipeline α) (done todo : List (Profiler α))
    (hp : p.profilers = done ++ todo) :
    performAll s ((List.range' done.length todo.length).map .profiler) p
      = { p with
          profilers := done ++ (reportProfiles s done.length todo p.outlet).1
          outlet := (reportProfiles s done.length todo p.outlet).2 } := by
  induction todo generalizing p done with
  | nil =>
    cases p
    simp_all [performAll, reportProfiles]
  | cons profiler rest ih =>
    obtain ⟨first, o, hfirst⟩ : ∃ first o,
        reportProfile s done.length profiler p.outlet = (first, o) := ⟨_, _, rfl⟩
    have hperform : p.perform (.profiler done.length) .report s
        = { p with profilers := (done ++ [first]) ++ rest, outlet := o } := by
      simp [perform, withProfiler, hp, hfirst]
    rw [performAll, List.length_cons, List.range'_succ, List.map_cons, List.foldl_cons, hperform,
      ← performAll]
    have hrest := ih { p with profilers := (done ++ [first]) ++ rest, outlet := o } (done ++ [first])
      rfl
    rw [List.length_append, List.length_singleton] at hrest
    rw [hrest]
    simp [reportProfiles, hfirst]

/-- Reporting everything is reporting with one reporter after the other. -/
theorem reportAll_eq (p : Pipeline α) (s : Surroundings) :
    p.reportAll s = performAll s p.reporters p := by
  have hprofilers := performAll_profilers s (((p.reportSegments s).reportErrors s).reportProcess s)
    [] p.profilers rfl
  rw [List.length_nil, ← List.range_eq_range', List.nil_append] at hprofilers
  have hothers : performAll s p.reporters p
      = performAll s ((List.range p.profilers.length).map .profiler)
          (((p.reportSegments s).reportErrors s).reportProcess s) := List.foldl_append
  rw [hothers, hprofilers]
  rfl

end Pipeline

namespace Agent

variable {α : Type} [Quantity α]

/-! ## Steps -/

/-- Something that happens to an agent that has been started. -/
inductive Step (α : Type) where
  | segment (name : String) (duration : α) (slot : Nat)
  | error (group message : String)
  | takeLatest
  /-- a reporter acts, because of a timer, a request, or a stop -/
  | job (reporter : Reporter) (action : Action) (around : Surroundings)
  | delivery (e : Delivery.Event)
  /-- the pipeline is closed by a stop -/
  | close

/-- An agent after a step. -/
def step (a : Agent α) : Step α → Agent α
  | .segment name duration slot => a.recordSegment name duration slot
  | .error group message => a.recordError group message
  | .takeLatest => a.takeLatest.2
  | .job reporter action around => a.happen (.job reporter action around)
  | .delivery e => a.happen (.delivery e)
  | .close => a.close

namespace Step

/-- The call for a segment that a step is. A segment without a name is none. -/
def call? : Step α → Option (String × α)
  | .segment name duration _ => if name.isEmpty then none else some (name, duration)
  | _ => none

/-- The error that a step tells of. -/
def error? : Step α → Option ErrorGroups.Occurrence
  | .error group message => some { group, message }
  | _ => none

/-- Whether a step closes the pipeline. -/
def isClose : Step α → Bool
  | .close => true
  | _ => false

/-- Whether a step makes a reporter report. -/
def reports (reporter : Reporter) : Step α → Bool
  | .job other _ _ => other = reporter
  | _ => false

end Step

/-- The steps while the agent runs. -/
def whileRunning (steps : List (Step α)) : List (Step α) := steps.takeWhile (!·.isClose)

/-- The steps up to the last report of a reporter. -/
def settledBy (reporter : Reporter) (steps : List (Step α)) : List (Step α) :=
  steps.rdropWhile (!·.reports reporter)

/-- The jobs of an evaluation are taken one by one, and lead where the pipeline goes by itself. -/
theorem foldl_job_started (around : Surroundings) (reporters : List Reporter) (p : Pipeline α) :
    (reporters.map fun reporter => Step.job reporter .report around).foldl step (started p)
      = started (Pipeline.performAll around reporters p) := by
  induction reporters generalizing p with
  | nil => rfl
  | cons reporter rest ih => exact ih (p.perform reporter .report around)

/-- To report everything is to have one reporter report after the other. -/
theorem reportNow_started {p : Pipeline α} (hp : p.stopped = false) (around : Surroundings) :
    (started p).reportNow around
      = (p.reporters.map fun reporter => Step.job reporter .report around).foldl step
          (started p) := by
  rw [reportNow, whenLive_started, hp, foldl_job_started, ← Pipeline.reportAll_eq]
  rfl

/-! ## Accounts -/

/-- A pipeline with what it was told and what came of that. -/
structure Account (α : Type) [Quantity α] where
  pipeline : Pipeline α
  /-- every message queued so far, and the reporter it came from, if it came from one -/
  posts : List (Option Reporter × Delivery.Message) := []
  /-- what has become of them -/
  books : Delivery.History
  /-- what was asked of the segments -/
  segmentRequests : List (Segments.Request α) := []
  /-- what was asked of the errors -/
  errorRequests : List ErrorGroups.Request := []

namespace Account

/-- The messages that came from a reporter. -/
def postedBy (h : Account α) (reporter : Reporter) : List Delivery.Message :=
  (h.posts.filter (·.1 = some reporter)).map Prod.snd

/-- What a step asks of the segments. -/
def asksSegments (p : Pipeline α) : Step α → List (Segments.Request α)
  | .segment name duration slot =>
    if p.stopped then [] else [.record p.outlet name duration slot]
  | .takeLatest => if p.stopped then [] else [.takeLatest]
  | .job .segments _ around => [.report p.outlet around.moment]
  | _ => []

/-- What a step asks of the errors. -/
def asksErrors (p : Pipeline α) : Step α → List ErrorGroups.Request
  | .error group message => if p.stopped then [] else [.record group message]
  | .job .errors _ around => [.report p.outlet around.moment]
  | _ => []

/-- A pipeline after a step. -/
def moved (p : Pipeline α) : Step α → Pipeline α
  | .segment name duration slot =>
    if p.stopped then p else p.recordSegment name duration slot
  | .error group message => if p.stopped then p else p.recordError group message
  | .takeLatest => if p.stopped then p else { p with segments := p.segments.takeLatest.2 }
  | .job reporter action around => p.perform reporter action around
  | .delivery e => { p with outlet := { p.outlet with delivery := p.outlet.delivery.after e } }
  | .close => { p with stopped := true }

/-- The messages that a reporter queues. -/
def queuedBy (p : Pipeline α) (reporter : Reporter) (action : Action) (around : Surroundings) :
    List Delivery.Message :=
  (p.perform reporter action around).outlet.delivery.pending.drop p.outlet.delivery.size

/-- What happens to the messages of a pipeline in a step. -/
def events (p : Pipeline α) : Step α → List Delivery.Event
  | .job reporter action around => (queuedBy p reporter action around).map .push
  | .delivery e => [e]
  | _ => []

/-- The messages that a step queues. -/
def pushed (p : Pipeline α) (s : Step α) : List Delivery.Message :=
  (events p s).flatMap Delivery.Event.pushed

/-- Who is behind a step. -/
def origin? : Step α → Option Reporter
  | .job reporter _ _ => some reporter
  | _ => none

/-- The next step. -/
def next (h : Account α) (s : Step α) : Account α :=
  { pipeline := moved h.pipeline s
    posts := h.posts ++ (pushed h.pipeline s).map (origin? s, ·)
    books := (events h.pipeline s).foldl Delivery.History.next h.books
    segmentRequests := h.segmentRequests ++ asksSegments h.pipeline s
    errorRequests := h.errorRequests ++ asksErrors h.pipeline s }

/-- The account of a new pipeline. -/
def of (p : Pipeline α) (steps : List (Step α)) : Account α :=
  steps.foldl next { pipeline := p, books := { delivery := p.outlet.delivery } }

/-- An account is written from step to step. -/
theorem of_concat (p : Pipeline α) (steps : List (Step α)) (s : Step α) :
    of p (steps ++ [s]) = (of p steps).next s := by
  rw [of, of, List.foldl_append]
  rfl

end Account

/-- The account follows the agent. -/
theorem step_started (p : Pipeline α) (s : Step α) :
    (started p).step s = started (Account.moved p s) := by
  cases s with
  | segment name duration slot => exact whenLive_started p _
  | error group message => exact whenLive_started p _
  | job reporter action around => rfl
  | delivery e => rfl
  | takeLatest =>
    rw [step, takeLatest, live?_started]
    obtain ⟨outlet, segments, errors, process, profilers, stopped⟩ := p
    cases stopped <;> rfl
  | close =>
    rw [step, close, whenLive_started]
    obtain ⟨outlet, segments, errors, process, profilers, stopped⟩ := p
    cases stopped <;> rfl

/-! ## What a step changes -/

namespace Account

/-- Only closing stops a pipeline. -/
theorem stopped_moved (p : Pipeline α) (s : Step α) :
    (moved p s).stopped = (p.stopped || s.isClose) := by
  cases s with
  | job reporter action around =>
    simp only [moved, Step.isClose, Bool.or_false]
    exact (p.grows_perform reporter action around).stopped
  | delivery e => exact (Bool.or_false p.stopped).symm
  | close => exact (Bool.or_true p.stopped).symm
  | segment name duration slot =>
    simp only [moved, Step.isClose, Bool.or_false]
    split <;> rfl
  | error group message =>
    simp only [moved, Step.isClose, Bool.or_false]
    split <;> rfl
  | takeLatest =>
    simp only [moved, Step.isClose, Bool.or_false]
    split <;> rfl

omit [Quantity α] in
/-- Whatever a profiler does, the segments and the errors are as they were. -/
theorem withProfiler_frame (p : Pipeline α) (index : Nat)
    (f : Profiler α → Outlet → Profiler α × Outlet) :
    (p.withProfiler index f).segments = p.segments ∧
      (p.withProfiler index f).errors = p.errors := by
  rw [Pipeline.withProfiler]
  split
  · exact ⟨rfl, rfl⟩
  · exact ⟨rfl, rfl⟩

/-- No other reporter touches the segments. -/
theorem segments_perform_of_ne (p : Pipeline α) {reporter : Reporter} (hne : reporter ≠ .segments)
    (action : Action) (around : Surroundings) :
    (p.perform reporter action around).segments = p.segments := by
  cases reporter with
  | segments => exact absurd rfl hne
  | errors => rfl
  | process => rfl
  | profiler index => cases action <;> exact (withProfiler_frame p index _).1

theorem errors_perform_of_ne (p : Pipeline α) {reporter : Reporter} (hne : reporter ≠ .errors)
    (action : Action) (around : Surroundings) :
    (p.perform reporter action around).errors = p.errors := by
  cases reporter with
  | errors => exact absurd rfl hne
  | segments => rfl
  | process => rfl
  | profiler index => cases action <;> exact (withProfiler_frame p index _).2

/-- What a step does to the segments is what it asks of them, one request after the other. -/
theorem segments_moved (p : Pipeline α) (h : Segments.History α) (hp : p.segments = h.segments)
    (s : Step α) :
    (moved p s).segments = ((asksSegments p s).foldl Segments.History.next h).segments := by
  cases s with
  | segment name duration slot =>
    rw [moved, asksSegments]
    split
    · exact hp
    · simp only [List.foldl_cons, List.foldl_nil, Segments.History.next,
        Segments.History.countUnless, ← hp]
      split <;> rfl
  | takeLatest =>
    rw [moved, asksSegments]
    split
    · exact hp
    · rw [List.foldl_cons, List.foldl_nil, Segments.History.next, ← hp]
  | error group message =>
    simp only [moved, asksSegments, List.foldl_nil, ← hp]
    split <;> rfl
  | delivery e => exact hp
  | close => exact hp
  | job reporter action around =>
    by_cases hreporter : reporter = .segments
    · subst hreporter
      simp only [moved, Pipeline.perform, Pipeline.reportSegments, asksSegments, List.foldl_cons,
        List.foldl_nil, Segments.History.next, ← hp]
    · have hnone : asksSegments p (.job reporter action around) = [] := by
        cases reporter with
        | segments => exact absurd rfl hreporter
        | _ => rfl
      rw [moved, segments_perform_of_ne p hreporter, hnone]
      exact hp

theorem errors_moved (p : Pipeline α) (h : ErrorGroups.History α) (hp : p.errors = h.groups)
    (s : Step α) :
    (moved p s).errors = ((asksErrors p s).foldl ErrorGroups.History.next h).groups := by
  cases s with
  | error group message =>
    rw [moved, asksErrors]
    split
    · exact hp
    · rw [List.foldl_cons, List.foldl_nil, ErrorGroups.History.next, ← hp]
      rfl
  | segment name duration slot =>
    simp only [moved, asksErrors, List.foldl_nil, ← hp]
    split <;> rfl
  | takeLatest =>
    simp only [moved, asksErrors, List.foldl_nil, ← hp]
    split <;> rfl
  | delivery e => exact hp
  | close => exact hp
  | job reporter action around =>
    by_cases hreporter : reporter = .errors
    · subst hreporter
      simp only [moved, Pipeline.perform, Pipeline.reportErrors, asksErrors, List.foldl_cons,
        List.foldl_nil, ErrorGroups.History.next, ← hp]
    · have hnone : asksErrors p (.job reporter action around) = [] := by
        cases reporter with
        | errors => exact absurd rfl hreporter
        | _ => rfl
      rw [moved, errors_perform_of_ne p hreporter, hnone]
      exact hp

omit [Quantity α] in
/-- What the segments are asked for is what the agent is told while it runs. -/
theorem filterMap_asksSegments (p : Pipeline α) (s : Step α) :
    (asksSegments p s).filterMap Segments.Request.call?
      = if p.stopped then [] else s.call?.toList := by
  cases s with
  | segment name duration slot =>
    simp only [asksSegments]
    split
    · rfl
    · simp only [Step.call?]
      by_cases hname : name.isEmpty <;> simp [Segments.Request.call?, hname]
  | takeLatest =>
    simp only [asksSegments, Step.call?]
    split <;> rfl
  | job reporter action around =>
    cases reporter <;> simp [asksSegments, Step.call?, Segments.Request.call?]
  | error group message => simp [asksSegments, Step.call?]
  | delivery e => simp [asksSegments, Step.call?]
  | close => simp [asksSegments, Step.call?]

omit [Quantity α] in
/-- An error reaches its reporter unless the pipeline has stopped, and reaches it once. -/
theorem filterMap_asksErrors (p : Pipeline α) (s : Step α) :
    (asksErrors p s).filterMap ErrorGroups.Request.error?
      = if p.stopped then [] else s.error?.toList := by
  cases s with
  | error group message =>
    simp only [asksErrors]
    split <;> rfl
  | job reporter action around =>
    cases reporter <;> simp [asksErrors, Step.error?, ErrorGroups.Request.error?]
  | segment name duration slot => simp [asksErrors, Step.error?]
  | takeLatest => simp [asksErrors, Step.error?]
  | delivery e => simp [asksErrors, Step.error?]
  | close => simp [asksErrors, Step.error?]

omit [Quantity α] in
/-- No call for a segment is interrupted here. -/
theorem isBegin_asksSegments (p : Pipeline α) (s : Step α) :
    ∀ request ∈ asksSegments p s, ¬ request.isBegin := by
  intro request hmem
  cases s with
  | segment name duration slot =>
    simp only [asksSegments] at hmem
    split at hmem
    · cases hmem
    · rw [List.mem_singleton.mp hmem]
      simp [Segments.Request.isBegin]
  | takeLatest =>
    simp only [asksSegments] at hmem
    split at hmem
    · cases hmem
    · rw [List.mem_singleton.mp hmem]
      simp [Segments.Request.isBegin]
  | job reporter action around =>
    cases reporter with
    | segments =>
      rw [List.mem_singleton.mp hmem]
      simp [Segments.Request.isBegin]
    | _ => cases hmem
  | _ => cases hmem

end Account

omit [Quantity α] in
theorem filterMap_whileRunning_singleton {β : Type} {f : Step α → Option β} (hf : f .close = none)
    (s : Step α) : (whileRunning [s]).filterMap f = (f s).toList := by
  have hsingle : [s].filterMap f = (f s).toList := by
    cases hs : f s <;> simp [hs]
  cases s with
  | close =>
    rw [hf]
    rfl
  | _ => exact hsingle

omit [Quantity α] in
/-- The last step is told if the pipeline has not been closed before. -/
theorem filterMap_whileRunning_concat {β : Type} {f : Step α → Option β} (hf : f .close = none)
    (steps : List (Step α)) (s : Step α) :
    (whileRunning (steps ++ [s])).filterMap f
      = (whileRunning steps).filterMap f
        ++ if steps.any Step.isClose then [] else (f s).toList := by
  induction steps with
  | nil => exact filterMap_whileRunning_singleton hf s
  | cons first rest ih =>
    cases hclose : first.isClose with
    | true => simp [whileRunning, hclose]
    | false =>
      simp only [whileRunning, List.cons_append, List.takeWhile_cons, hclose, Bool.not_false,
        if_true, List.any_cons, Bool.false_or] at ih ⊢
      cases hfirst : f first <;> simp [hfirst, ih]

/-! ## Where messages come from -/

end Agent

/-- The messages of a report. -/
def Segments.Report.messages {α : Type} [Quantity α] (r : Segments.Report α) :
    List Delivery.Message := r.records.map (Outlet.message r.moment.now)

/-- The messages of a report. -/
def ErrorGroups.Report.messages {α : Type} [Quantity α] (r : ErrorGroups.Report α) :
    List Delivery.Message := r.records.map (Outlet.message r.moment.now)

namespace Agent.Account

variable {α : Type} [Quantity α]

theorem pushed_job (p : Pipeline α) (reporter : Reporter) (action : Action)
    (around : Surroundings) :
    pushed p (.job reporter action around) = queuedBy p reporter action around := by
  rw [pushed, events, List.flatMap_map]
  exact List.flatMap_singleton' _

/-- A message is put down to the reporter that the step is from. -/
theorem postedBy_next (h : Account α) (s : Step α) (reporter : Reporter) :
    (h.next s).postedBy reporter
      = h.postedBy reporter
        ++ if origin? s = some reporter then pushed h.pipeline s else [] := by
  simp only [postedBy, next, List.filter_append, List.map_append, List.filter_map]
  congr 1
  split
  · rename_i horigin
    simp [Function.comp_def, horigin]
  · rename_i horigin
    simp [Function.comp_def, horigin]

/-- The segments queue a message for each picture of the window. -/
theorem queuedBy_segments (p : Pipeline α) (action : Action) (around : Surroundings) :
    queuedBy p .segments action around
      = (Segments.pictures p.outlet.config around.moment p.outlet.mint p.segments.window).map
          (Outlet.message around.moment.now) := by
  obtain ⟨o', hreport, hqueued⟩ :=
    Segments.reportAll_queued around.moment p.segments.window p.outlet
  have houtlet : (p.perform .segments action around).outlet.delivery.pending
      = o'.delivery.pending := by
    simp only [Pipeline.perform, Pipeline.reportSegments, Segments.report, hreport]
    rfl
  rw [queuedBy, houtlet, hqueued.pending, Delivery.size, List.drop_left]

theorem queuedBy_errors (p : Pipeline α) (action : Action) (around : Surroundings) :
    queuedBy p .errors action around
      = (ErrorGroups.pictures p.outlet around.moment p.errors.window.children).map
          (Outlet.message around.moment.now) := by
  obtain ⟨o', hreport, hqueued⟩ :=
    ErrorGroups.reportAll_queued around.moment p.errors.window.children p.outlet
  have houtlet : (p.perform .errors action around).outlet.delivery.pending
      = o'.delivery.pending := by
    simp only [Pipeline.perform, Pipeline.reportErrors, ErrorGroups.report, hreport]
    split <;> rfl
  rw [queuedBy, houtlet, hqueued.pending, Delivery.size, List.drop_left]

/-- A step that is no report of the segments adds nothing to their reports. -/
theorem reports_asksSegments_of_ne (p : Pipeline α) (h : Segments.History α) {s : Step α}
    (hs : origin? s ≠ some .segments) :
    ((asksSegments p s).foldl Segments.History.next h).reports = h.reports := by
  cases s with
  | segment name duration slot =>
    simp only [asksSegments]
    split
    · rfl
    · simp only [List.foldl_cons, List.foldl_nil, Segments.History.next,
        Segments.History.countUnless]
      split <;> rfl
  | takeLatest =>
    simp only [asksSegments]
    split <;> rfl
  | job reporter action around =>
    cases reporter with
    | segments => exact absurd rfl hs
    | _ => rfl
  | _ => rfl

/-- A step of another origin makes no report of errors. -/
theorem reports_asksErrors_of_ne (p : Pipeline α) (h : ErrorGroups.History α) {s : Step α}
    (hs : origin? s ≠ some .errors) :
    ((asksErrors p s).foldl ErrorGroups.History.next h).reports = h.reports := by
  cases s with
  | error group message =>
    simp only [asksErrors]
    split <;> rfl
  | job reporter action around =>
    cases reporter with
    | errors => exact absurd rfl hs
    | _ => rfl
  | _ => rfl

/-- The history of the segments tells of the messages that were posted for them, and of no others.
-/
theorem messages_segments (p : Pipeline α) (h : Segments.History α) (hp : p.segments = h.segments)
    (s : Step α) :
    ((asksSegments p s).foldl Segments.History.next h).reports.flatMap Segments.Report.messages
      = h.reports.flatMap Segments.Report.messages
        ++ if origin? s = some .segments then pushed p s else [] := by
  by_cases hs : origin? s = some .segments
  · rw [if_pos hs]
    cases s with
    | job reporter action around =>
      obtain rfl : reporter = .segments := Option.some.inj hs
      rw [pushed_job, queuedBy_segments, hp]
      simp [asksSegments, Segments.History.next, Segments.Report.messages]
    | _ => cases hs
  · rw [if_neg hs, reports_asksSegments_of_ne p h hs, List.append_nil]

theorem messages_errors (p : Pipeline α) (h : ErrorGroups.History α) (hp : p.errors = h.groups)
    (s : Step α) :
    ((asksErrors p s).foldl ErrorGroups.History.next h).reports.flatMap
        ErrorGroups.Report.messages
      = h.reports.flatMap ErrorGroups.Report.messages
        ++ if origin? s = some .errors then pushed p s else [] := by
  by_cases hs : origin? s = some .errors
  · rw [if_pos hs]
    cases s with
    | job reporter action around =>
      obtain rfl : reporter = .errors := Option.some.inj hs
      rw [pushed_job, queuedBy_errors, hp]
      simp [asksErrors, ErrorGroups.History.next, ErrorGroups.Report.messages]
    | _ => cases hs
  · rw [if_neg hs, reports_asksErrors_of_ne p h hs, List.append_nil]

/-! ## What becomes of them -/

theorem delivery_foldl_next (b : Delivery.History) (events : List Delivery.Event) :
    (events.foldl Delivery.History.next b).delivery = events.foldl Delivery.after b.delivery := by
  induction events generalizing b with
  | nil => rfl
  | cons e rest ih => exact ih (b.next e)

/-- Messages queue up in the order in which they are pushed. -/
theorem foldl_after_push (d : Delivery) (messages : List Delivery.Message) :
    (messages.map .push).foldl Delivery.after d
      = { d with dispatch := { d.dispatch with queue := d.pending ++ messages } } := by
  rw [List.foldl_map]
  exact Delivery.foldl_push d messages

/-- The messages of a pipeline fare as those of a delivery to which the same happens. -/
theorem delivery_moved (p : Pipeline α) {d : Delivery}
    (hdispatch : d.dispatch = p.outlet.delivery.dispatch)
    (hexpiry : d.expiry = p.outlet.delivery.expiry) (s : Step α) :
    ((events p s).foldl Delivery.after d).dispatch = (moved p s).outlet.delivery.dispatch ∧
      ((events p s).foldl Delivery.after d).expiry = (moved p s).outlet.delivery.expiry := by
  cases s with
  | job reporter action around =>
    have hgrows := (p.grows_perform reporter action around).outlet
    obtain ⟨messages, hmessages⟩ := hgrows.dispatch
    have hqueued : queuedBy p reporter action around = messages := by
      rw [queuedBy, Delivery.pending, hmessages]
      exact List.drop_left
    rw [events, foldl_after_push, hqueued, moved, hmessages, hgrows.expiry]
    refine ⟨?_, hexpiry⟩
    rw [Delivery.pending, Delivery.pending, hdispatch]
  | delivery e =>
    simp [events, moved, Delivery.dispatch_after, hdispatch, hexpiry]
  | segment name duration slot =>
    simp only [events, moved, List.foldl_nil, Pipeline.recordSegment, Segments.record]
    split
    · exact ⟨hdispatch, hexpiry⟩
    · split <;> exact ⟨hdispatch, hexpiry⟩
  | error group message =>
    simp only [events, moved, List.foldl_nil]
    split <;> exact ⟨hdispatch, hexpiry⟩
  | takeLatest =>
    simp only [events, moved, List.foldl_nil]
    split <;> exact ⟨hdispatch, hexpiry⟩
  | close => exact ⟨hdispatch, hexpiry⟩

/-! ## The invariant -/

end Agent.Account

/-- A pipeline that has just been built. -/
structure Pipeline.Blank {α : Type} [Quantity α] (p : Pipeline α) : Prop where
  dispatch : p.outlet.delivery.dispatch = {}
  segments : p.segments = {}
  errors : p.errors = .empty
  stopped : p.stopped = false

namespace Agent.Account

variable {α : Type} [Quantity α]

/-- What was asked of the segments, and what came of it. -/
def segmentHistory (h : Account α) : Segments.History α := .of h.segmentRequests

/-- What was asked of the errors, and what came of it. -/
def errorHistory (h : Account α) : ErrorGroups.History α := .of h.errorRequests

/-- What holds throughout a run. -/
structure Kept (steps : List (Step α)) (h : Account α) : Prop where
  stopped : h.pipeline.stopped = steps.any Step.isClose
  segments : h.pipeline.segments = h.segmentHistory.segments
  errors : h.pipeline.errors = h.errorHistory.groups
  /-- the segments were asked for what the agent was told while it was running -/
  calls : h.segmentRequests.filterMap Segments.Request.call?
    = (whileRunning steps).filterMap Step.call?
  uninterrupted : ∀ request ∈ h.segmentRequests, ¬ request.isBegin
  /-- and so were the errors -/
  told : h.errorRequests.filterMap ErrorGroups.Request.error?
    = (whileRunning steps).filterMap Step.error?
  /-- the messages of the segments are those of their reports -/
  segmentPosts : h.postedBy .segments = h.segmentHistory.reports.flatMap Segments.Report.messages
  /-- and those of the errors are those of theirs -/
  errorPosts : h.postedBy .errors = h.errorHistory.reports.flatMap ErrorGroups.Report.messages
  dispatch : h.books.delivery.dispatch = h.pipeline.outlet.delivery.dispatch
  expiry : h.books.delivery.expiry = h.pipeline.outlet.delivery.expiry
  books : h.books.Kept (h.posts.map Prod.snd)

variable {steps : List (Step α)} {h : Account α}

theorem segmentHistory_next (h : Account α) (s : Step α) :
    (h.next s).segmentHistory
      = (asksSegments h.pipeline s).foldl Segments.History.next h.segmentHistory :=
  List.foldl_append

theorem errorHistory_next (h : Account α) (s : Step α) :
    (h.next s).errorHistory
      = (asksErrors h.pipeline s).foldl ErrorGroups.History.next h.errorHistory :=
  List.foldl_append

/-- One more step keeps the account, whatever the step and whoever takes it. -/
theorem Kept.next (hk : h.Kept steps) (s : Step α) : (h.next s).Kept (steps ++ [s]) := by
  have hmoved := delivery_moved h.pipeline hk.dispatch hk.expiry s
  rw [← delivery_foldl_next] at hmoved
  refine ⟨?_, ?_, ?_, ?_, ?_, ?_, ?_, ?_, hmoved.1, hmoved.2, ?_⟩
  · rw [List.any_append, ← hk.stopped]
    simp [Account.next, stopped_moved]
  · rw [segmentHistory_next]
    exact segments_moved h.pipeline h.segmentHistory hk.segments s
  · rw [errorHistory_next]
    exact errors_moved h.pipeline h.errorHistory hk.errors s
  · rw [filterMap_whileRunning_concat rfl, Account.next, List.filterMap_append, hk.calls,
      filterMap_asksSegments, hk.stopped]
  · intro request hmem
    rcases List.mem_append.mp hmem with hmem | hmem
    · exact hk.uninterrupted request hmem
    · exact isBegin_asksSegments h.pipeline s request hmem
  · rw [filterMap_whileRunning_concat rfl, Account.next, List.filterMap_append, hk.told,
      filterMap_asksErrors, hk.stopped]
  · rw [postedBy_next, segmentHistory_next, messages_segments h.pipeline _ hk.segments s,
      hk.segmentPosts]
  · rw [postedBy_next, errorHistory_next, messages_errors h.pipeline _ hk.errors s,
      hk.errorPosts]
  · have hbooks := hk.books.foldl (events h.pipeline s)
    simpa [Account.next, pushed, List.map_map, Function.comp_def] using hbooks

/-- By induction over the steps, from `Kept.next`. -/
theorem kept_of {p : Pipeline α} (hp : p.Blank) (steps : List (Step α)) :
    (of p steps).Kept steps := by
  induction steps using List.reverseRecOn with
  | nil =>
    refine ⟨hp.stopped, hp.segments, hp.errors, rfl, List.forall_mem_nil _, rfl, rfl, rfl, rfl, rfl,
      ⟨?_, rfl, rfl⟩⟩
    have hempty := hp.dispatch
    simp only [of, List.foldl_nil, hempty]
    exact Delivery.Balanced.start
  | append_singleton steps s ih =>
    rw [of_concat]
    exact ih.next s

/-! ## What is reported -/

omit [Quantity α] in
theorem origin?_eq_some_iff (s : Step α) (reporter : Reporter) :
    origin? s = some reporter ↔ s.reports reporter = true := by
  cases s <;> simp [origin?, Step.reports]

/-- Without interruptions every call is counted in a report or waits for the next one. -/
theorem Kept.counted (hk : h.Kept steps) :
    h.segmentHistory.counted.map Timing.call
      = (whileRunning steps).filterMap Step.call? := by
  obtain ⟨hwhole, hcalls⟩ := (Segments.History.kept_of h.segmentRequests).ordered hk.uninterrupted
  rw [← hk.calls, ← hcalls, Segments.History.calls, hwhole, List.map_nil, List.append_nil]
  rfl

/-- The segments that were reported are those of which the agent was told before their last report.
-/
theorem reported_segments {p : Pipeline α} (hp : p.Blank) (steps : List (Step α)) :
    ((of p steps).segmentHistory.reports.flatMap Segments.Report.timings).map Timing.call
      = (whileRunning (settledBy .segments steps)).filterMap Step.call? := by
  induction steps using List.reverseRecOn with
  | nil => rfl
  | append_singleton steps s ih =>
    by_cases hs : s.reports .segments
    · have hall := (kept_of hp (steps ++ [s])).counted
      have hsettled : settledBy .segments (steps ++ [s]) = steps ++ [s] :=
        List.rdropWhile_concat_neg _ _ _ (by simp [hs])
      rw [hsettled, ← hall, Segments.History.counted, of_concat, segmentHistory_next]
      -- the report has left nothing to wait
      cases s with
      | job reporter action around =>
        obtain rfl : reporter = .segments := of_decide_eq_true hs
        simp [asksSegments, Segments.History.next]
      | _ => cases hs
    · have hsettled : settledBy .segments (steps ++ [s]) = settledBy .segments steps :=
        List.rdropWhile_concat_pos _ _ _ (by simp [hs])
      have hne : origin? s ≠ some .segments := fun horigin =>
        hs ((origin?_eq_some_iff s .segments).mp horigin)
      rw [hsettled, of_concat, segmentHistory_next,
        reports_asksSegments_of_ne _ _ hne, ih]

section Whole

variable [Quantity.Whole α]

/-- Every error is in a report or waits for the next one. -/
theorem Kept.recorded (hk : h.Kept steps) :
    h.errorHistory.errors = (whileRunning steps).filterMap Step.error? := by
  rw [← hk.told]
  exact (ErrorGroups.History.kept_of h.errorRequests).errors

/-- The errors that were reported are those of which the agent was told before their last report. -/
theorem reported_errors {p : Pipeline α} (hp : p.Blank) (steps : List (Step α)) :
    (of p steps).errorHistory.reports.flatMap ErrorGroups.Report.errors
      = (whileRunning (settledBy .errors steps)).filterMap Step.error? := by
  induction steps using List.reverseRecOn with
  | nil => rfl
  | append_singleton steps s ih =>
    by_cases hs : s.reports .errors
    · have hall := (kept_of hp (steps ++ [s])).recorded
      have hsettled : settledBy .errors (steps ++ [s]) = steps ++ [s] :=
        List.rdropWhile_concat_neg _ _ _ (by simp [hs])
      rw [hsettled, ← hall, ErrorGroups.History.errors, of_concat, errorHistory_next]
      cases s with
      | job reporter action around =>
        obtain rfl : reporter = .errors := of_decide_eq_true hs
        simp [asksErrors, ErrorGroups.History.next]
      | _ => cases hs
    · have hsettled : settledBy .errors (steps ++ [s]) = settledBy .errors steps :=
        List.rdropWhile_concat_pos _ _ _ (by simp [hs])
      have hne : origin? s ≠ some .errors := fun horigin =>
        hs ((origin?_eq_some_iff s .errors).mp horigin)
      rw [hsettled, of_concat, errorHistory_next, reports_asksErrors_of_ne _ _ hne, ih]

end Whole

/-- A started agent goes the way of its pipeline. -/
theorem foldl_step_started (p : Pipeline α) (steps : List (Step α)) :
    steps.foldl step (started p) = started (of p steps).pipeline := by
  induction steps using List.reverseRecOn with
  | nil => rfl
  | append_singleton steps s ih =>
    rw [List.foldl_append, ih, of_concat]
    exact step_started _ s

end Agent.Account

end Telemetry
