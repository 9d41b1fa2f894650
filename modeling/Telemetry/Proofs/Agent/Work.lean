import Telemetry.Agent
import Telemetry.Proofs.Delivery.Event

/-!
# What work leaves as it is

Once an agent has a pipeline, everything it does is done by that pipeline. It collects and reports,
which adds messages to its queue and changes nothing else there (`Pipeline.Grows`), and it hands them
over. Whatever it does, it remains the pipeline it was (`Pipeline.Continues`): its configuration and
its envelope are those it was created with, and so is the id of the run; its queue is changed by
nothing but steps of its dispatch; and its profilers keep their settings and their order. All these
relations are preorders, so a run of any length comes down to single operations.
-/

namespace Telemetry

/-! ## Deliveries and outlets -/

/-- One delivery has become another by steps of its dispatch. It does not matter what was written
down meanwhile. -/
structure Delivery.Continues (d d' : Delivery) : Prop where
  envelope : d'.envelope = d.envelope
  expiry : d'.expiry = d.expiry
  dispatch : ∃ steps : List Delivery.Dispatch.Step,
    d'.dispatch = steps.foldl Delivery.Dispatch.apply d.dispatch

namespace Delivery.Continues

variable {d d' d'' : Delivery}

theorem refl (d : Delivery) : d.Continues d := ⟨rfl, rfl, [], rfl⟩

theorem trans (h : d.Continues d') (h' : d'.Continues d'') : d.Continues d'' := by
  obtain ⟨steps, hsteps⟩ := h.dispatch
  obtain ⟨more, hmore⟩ := h'.dispatch
  refine ⟨h'.envelope.trans h.envelope, h'.expiry.trans h.expiry, steps ++ more, ?_⟩
  rw [List.foldl_append, ← hsteps, hmore]

/-- Whatever happens to a delivery is a step of its dispatch. -/
theorem after (d : Delivery) (e : Event) : d.Continues (d.after e) := by
  refine ⟨?_, expiry_after d e, [e.step d.expiry], dispatch_after d e⟩
  cases e with
  | settle outcome => cases outcome <;> rfl
  | _ => rfl

end Delivery.Continues

/-- One outlet has become another. Any number of ids may have been minted. -/
structure Outlet.Continues (o o' : Outlet) : Prop where
  config : o'.config = o.config
  delivery : o.delivery.Continues o'.delivery

namespace Outlet.Continues

variable {o o' o'' : Outlet}

theorem refl (o : Outlet) : o.Continues o := ⟨rfl, .refl o.delivery⟩

theorem trans (h : o.Continues o') (h' : o'.Continues o'') : o.Continues o'' :=
  ⟨h'.config.trans h.config, h.delivery.trans h'.delivery⟩

end Outlet.Continues

/-- One outlet has become another by queueing messages. -/
structure Outlet.Grows (o o' : Outlet) : Prop where
  config : o'.config = o.config
  envelope : o'.delivery.envelope = o.delivery.envelope
  expiry : o'.delivery.expiry = o.delivery.expiry
  dispatch : ∃ messages, o'.delivery.dispatch
    = { o.delivery.dispatch with queue := o.delivery.pending ++ messages }

/-- Messages that are pushed one after the other stand at the end of the queue in their order. -/
theorem Delivery.Dispatch.foldl_push (d : Dispatch) (messages : List Message) :
    messages.foldl push d = { d with queue := d.queue ++ messages } := by
  induction messages generalizing d with
  | nil => rw [List.append_nil, List.foldl_nil]
  | cons m rest ih =>
    rw [List.foldl_cons, ih, push, List.append_assoc]
    rfl

namespace Outlet.Grows

variable {α : Type} {o o' o'' : Outlet}

theorem refl (o : Outlet) : o.Grows o :=
  ⟨rfl, rfl, rfl, [], by rw [List.append_nil]; rfl⟩

theorem trans (h : o.Grows o') (h' : o'.Grows o'') : o.Grows o'' := by
  obtain ⟨messages, hmessages⟩ := h.dispatch
  obtain ⟨more, hmore⟩ := h'.dispatch
  refine ⟨h'.config.trans h.config, h'.envelope.trans h.envelope, h'.expiry.trans h.expiry,
    messages ++ more, ?_⟩
  rw [hmore, Delivery.pending, hmessages, List.append_assoc]

/-- What is written down does not matter. -/
theorem info (h : o.Grows o') (text : String) : o.Grows (o'.info text) :=
  ⟨h.config, h.envelope, h.expiry, h.dispatch⟩

theorem error (h : o.Grows o') (text : String) : o.Grows (o'.error text) :=
  ⟨h.config, h.envelope, h.expiry, h.dispatch⟩

/-- To queue messages is to push them one after the other. -/
theorem continues (h : o.Grows o') : o.Continues o' := by
  obtain ⟨messages, hmessages⟩ := h.dispatch
  refine ⟨h.config, h.envelope, h.expiry, messages.map .push, ?_⟩
  rw [hmessages, List.foldl_map]
  exact (Delivery.Dispatch.foldl_push o.delivery.dispatch messages).symm

variable [Quantity α]

/-- A metric adds its own record to the queue, or nothing at all. The mint may be any, since
observing the metric may have used up an id. -/
theorem emit (o : Outlet) (mint : Mint) (now : UnixTime) (m : Metric α (Tree α)) :
    o.Grows ({ o with mint }.emit now m).2 := by
  rw [Outlet.emit]
  split
  · exact ⟨rfl, rfl, rfl, (refl o).dispatch⟩
  · exact ⟨rfl, rfl, rfl, _, rfl⟩

theorem report {moment : Moment} {m m' : Metric α (Tree α)} {duration : UInt64}
    {breakdown : Tree α} {queued : Bool}
    (h : o.report moment m duration breakdown = (queued, m', o')) : o.Grows o' := by
  cases h
  exact emit o _ moment.now _

end Outlet.Grows

/-! ## Reporters -/

variable {α : Type} [Quantity α]

namespace Segments

/-- One segment of the window after the other is reported. -/
theorem reportAll_grows (moment : Moment) (entries : List (Entry α)) (o : Outlet) :
    o.Grows (reportAll moment entries o).2 := by
  induction entries generalizing o with
  | nil => exact .refl o
  | cons entry rest ih =>
    have hentry : o.Grows (reportEntry o moment entry).2 := by
      rw [reportEntry]
      split
      rename_i hreport
      exact .report hreport
    exact hentry.trans (ih _)

/-- A report of segments ends with a line about their number. -/
theorem report_grows (s : Segments α) (o : Outlet) (moment : Moment) :
    o.Grows (s.report o moment).2.2 :=
  (reportAll_grows moment s.window o).info _

/-- A segment without a name is written down as ignored, and apart from that nothing goes out. -/
theorem record_grows (s : Segments α) (o : Outlet) (name : String) (duration : α)
    (slot : Nat) : o.Grows (s.record o name duration slot).2 := by
  rw [record]
  split
  · exact (Outlet.Grows.refl o).info _
  · exact .refl o

end Segments

namespace ErrorGroups

/-- One group of errors after the other is reported. -/
theorem reportAll_grows (moment : Moment) (groups : List (Tree α)) (o : Outlet) :
    o.Grows (reportAll moment groups o).2 := by
  induction groups generalizing o with
  | nil => exact .refl o
  | cons group rest ih =>
    have hgroup : o.Grows (reportGroup o moment group).2 := by
      rw [reportGroup]
      split
      rename_i hreport
      exact .report hreport
    exact hgroup.trans (ih _)

/-- A report of errors that found some ends with a line about their number. -/
theorem report_grows (e : ErrorGroups α) (o : Outlet) (moment : Moment) :
    o.Grows (e.report o moment).2.2 := by
  have hall := reportAll_grows moment e.window.children o
  simp only [report]
  split
  · exact hall
  · exact hall.info _

end ErrorGroups

namespace ProcessUsage

/-- A reading is queued as it was observed. Of a counter there may be nothing to queue yet. -/
theorem observe_grows (o : Outlet) (moment : Moment) (m : Metric α (Tree α))
    (duration : UInt64) (value : α) : o.Grows (observe o moment m duration value).2.2.2 :=
  .emit o _ moment.now _

/-- Up to two metrics are made of the time that was used, and none if it cannot be read. -/
theorem reportCpu_grows (p : ProcessUsage α) (o : Outlet) (moment : Moment)
    (processors : Nat) (duration : UInt64) (elapsed : Option Duration)
    (reading : Reading Duration) :
    o.Grows (p.reportCpu o moment processors duration elapsed reading).2.2 := by
  cases reading with
  | error reason => exact (Outlet.Grows.refl o).error _
  | ok used =>
    have htime := observe_grows o moment p.cpuTime duration (Quantity.ofInt used.nanos)
    simp only [reportCpu]
    split
    · split
      · exact htime.trans (observe_grows _ moment _ _ _)
      · exact htime
    · exact htime

/-- A value that cannot be read is written down, and not queued. -/
theorem reportMemory_grows (o : Outlet) (moment : Moment) (m : Metric α (Tree α))
    (duration : UInt64) (reading : Reading UInt64) :
    o.Grows (reportMemory o moment m duration reading).2.2 := by
  cases reading with
  | error reason => exact (Outlet.Grows.refl o).error _
  | ok kilobytes => exact observe_grows o moment m duration _

/-- The four readings are reported one by one, whichever of them there are. -/
theorem report_grows (p : ProcessUsage α) (o : Outlet) (moment : Moment) (processors : Nat)
    (readings : ProcessReadings) :
    o.Grows (p.report o moment processors readings).2.2 :=
  (((reportCpu_grows _ o moment processors _ _ _).trans
    (reportMemory_grows _ moment _ _ _)).trans
    (reportMemory_grows _ moment _ _ _)).trans (reportMemory_grows _ moment _ _ _)

end ProcessUsage

namespace Profiler

/-- A window that is recorded leaves the settings alone. -/
theorem record_settings {p p' : Profiler α} {reading : Except ProfileError Profile}
    (h : p.record reading = .ok p') : p'.settings = p.settings := by
  rw [record] at h
  cases hgraph : p.callGraph reading with
  | error e =>
    rw [hgraph] at h
    cases h
  | ok window =>
    rw [hgraph] at h
    cases h
    rfl

/-- A tree goes out as one metric, with a line about it. -/
theorem queueTree_grows (p : Profiler α) (o : Outlet) (moment : Moment) (windows : Nat)
    (t : Tree α) : o.Grows (p.queueTree o moment windows t).2.2 := by
  rw [queueTree]
  split
  rename_i hreport
  exact (Outlet.Grows.report hreport).info _

/-- A report that succeeds leaves the settings alone, and queues at most one metric. -/
theorem report_grows {p p' : Profiler α} {o o' : Outlet} {moment : Moment}
    {processors : Nat} {reading : Except ProfileError Profile} {queued : Bool}
    (h : p.report o moment processors reading = .ok (queued, p', o')) :
    p'.settings = p.settings ∧ o.Grows o' := by
  simp only [report] at h
  split at h
  · cases hgraph : p.callGraph reading with
    | error e =>
      rw [hgraph] at h
      cases h
    | ok t =>
      rw [hgraph] at h
      cases h
      exact ⟨rfl, queueTree_grows p o moment _ _⟩
  · split at h
    · cases h
      exact ⟨rfl, .refl o⟩
    · cases h
      exact ⟨rfl, queueTree_grows _ o moment _ _⟩

end Profiler

/-! ## Pipelines -/

namespace Pipeline

/-- One pipeline has become another. It may have been closed meanwhile. -/
structure Continues (p p' : Pipeline α) : Prop where
  outlet : p.outlet.Continues p'.outlet
  settings : p'.profilers.map Profiler.settings = p.profilers.map Profiler.settings

/-- One pipeline has become another, and has not been closed meanwhile. -/
structure Works (p p' : Pipeline α) : Prop extends p.Continues p' where
  stopped : p'.stopped = p.stopped

/-- One pipeline has become another by collecting and reporting. -/
structure Grows (p p' : Pipeline α) : Prop where
  outlet : p.outlet.Grows p'.outlet
  settings : p'.profilers.map Profiler.settings = p.profilers.map Profiler.settings
  stopped : p'.stopped = p.stopped

variable {p p' p'' : Pipeline α}

namespace Continues

omit [Quantity α] in
theorem refl (p : Pipeline α) : p.Continues p := ⟨.refl p.outlet, rfl⟩

omit [Quantity α] in
theorem trans (h : p.Continues p') (h' : p'.Continues p'') : p.Continues p'' :=
  ⟨h.outlet.trans h'.outlet, h'.settings.trans h.settings⟩

omit [Quantity α] in
/-- To close a pipeline is to change nothing about what it was made with. -/
theorem close (p : Pipeline α) : p.Continues { p with stopped := true } := ⟨.refl p.outlet, rfl⟩

end Continues

namespace Works

omit [Quantity α] in
theorem refl (p : Pipeline α) : p.Works p := ⟨.refl p, rfl⟩

omit [Quantity α] in
theorem trans (h : p.Works p') (h' : p'.Works p'') : p.Works p'' :=
  ⟨h.toContinues.trans h'.toContinues, h'.stopped.trans h.stopped⟩

end Works

namespace Grows

omit [Quantity α] in
theorem refl (p : Pipeline α) : p.Grows p := ⟨.refl p.outlet, rfl, rfl⟩

omit [Quantity α] in
theorem trans (h : p.Grows p') (h' : p'.Grows p'') : p.Grows p'' :=
  ⟨h.outlet.trans h'.outlet, h'.settings.trans h.settings, h'.stopped.trans h.stopped⟩

omit [Quantity α] in
/-- What collects and reports is at work. -/
theorem works (h : p.Grows p') : p.Works p' :=
  ⟨⟨h.outlet.continues, h.settings⟩, h.stopped⟩

end Grows

theorem grows_reportSegments (p : Pipeline α) (s : Surroundings) :
    p.Grows (p.reportSegments s) :=
  ⟨p.segments.report_grows p.outlet s.moment, rfl, rfl⟩

theorem grows_reportErrors (p : Pipeline α) (s : Surroundings) : p.Grows (p.reportErrors s) :=
  ⟨p.errors.report_grows p.outlet s.moment, rfl, rfl⟩

theorem grows_reportProcess (p : Pipeline α) (s : Surroundings) : p.Grows (p.reportProcess s) :=
  ⟨p.process.report_grows p.outlet s.moment s.processors s.readings, rfl, rfl⟩

/-- A profiler that fails to report keeps its settings too, and its failure is written down. -/
theorem reportProfile_grows (s : Surroundings) (index : Nat) (profiler : Profiler α)
    (o : Outlet) :
    (reportProfile s index profiler o).1.settings = profiler.settings ∧
      o.Grows (reportProfile s index profiler o).2 := by
  rw [reportProfile]
  split
  · rename_i queued profiler' o' hreport
    exact Profiler.report_grows hreport
  · exact ⟨rfl, (Outlet.Grows.refl o).error _⟩

/-- The profilers report in their order, each into the outlet that the one before has left. -/
theorem reportProfiles_grows (s : Surroundings) (index : Nat) (profilers : List (Profiler α))
    (o : Outlet) :
    (reportProfiles s index profilers o).1.map Profiler.settings
        = profilers.map Profiler.settings ∧
      o.Grows (reportProfiles s index profilers o).2 := by
  induction profilers generalizing index o with
  | nil => exact ⟨rfl, .refl o⟩
  | cons profiler rest ih =>
    obtain ⟨hsettings, hfirst⟩ := reportProfile_grows s index profiler o
    obtain ⟨hrest, hothers⟩ := ih (index + 1) (reportProfile s index profiler o).2
    refine ⟨?_, hfirst.trans hothers⟩
    rw [reportProfiles, List.map_cons, List.map_cons, hsettings, hrest]

/-- Everything that collects reports in turn. -/
theorem grows_reportAll (p : Pipeline α) (s : Surroundings) : p.Grows (p.reportAll s) := by
  refine (((grows_reportSegments p s).trans (grows_reportErrors _ s)).trans
    (grows_reportProcess _ s)).trans ?_
  obtain ⟨hsettings, houtlet⟩ := reportProfiles_grows s 0 p.profilers
    (((p.reportSegments s).reportErrors s).reportProcess s).outlet
  exact ⟨houtlet, hsettings, rfl⟩

omit [Quantity α] in
/-- A change to one profiler that leaves its settings alone. -/
theorem grows_withProfiler (p : Pipeline α) (index : Nat)
    {f : Profiler α → Outlet → Profiler α × Outlet}
    (hf : ∀ profiler o, (f profiler o).1.settings = profiler.settings ∧
      o.Grows (f profiler o).2) : p.Grows (p.withProfiler index f) := by
  rw [withProfiler]
  split
  · rename_i profiler hprofiler
    obtain ⟨hsettings, houtlet⟩ := hf profiler p.outlet
    refine ⟨houtlet, ?_, rfl⟩
    obtain ⟨hlt, rfl⟩ := List.getElem?_eq_some_iff.mp hprofiler
    simp only [List.map_set, hsettings]
    rw [← List.getElem_map Profiler.settings (h := by rwa [List.length_map])]
    exact List.set_getElem_self _
  · exact .refl p

/-- Whatever a timer has its reporter do, no more comes of it than messages. -/
theorem grows_perform (p : Pipeline α) (reporter : Reporter) (action : Action)
    (s : Surroundings) : p.Grows (p.perform reporter action s) := by
  cases reporter with
  | segments => exact grows_reportSegments p s
  | errors => exact grows_reportErrors p s
  | process => exact grows_reportProcess p s
  | profiler index =>
    cases action with
    | report => exact grows_withProfiler p index (reportProfile_grows s index)
    | record duration =>
      rw [perform]
      apply grows_withProfiler
      intro profiler o
      split
      · rename_i profiler' hrecord
        exact ⟨Profiler.record_settings hrecord, .refl o⟩
      · exact ⟨rfl, (Outlet.Grows.refl o).error _⟩

theorem grows_recordSegment (p : Pipeline α) (name : String) (duration : α) (slot : Nat) :
    p.Grows (p.recordSegment name duration slot) :=
  ⟨p.segments.record_grows p.outlet name duration slot, rfl, rfl⟩

theorem grows_recordError (p : Pipeline α) (group message : String) :
    p.Grows (p.recordError group message) := ⟨.refl p.outlet, rfl, rfl⟩

omit [Quantity α] in
/-- How the last upload went is only written down. -/
theorem grows_concludeStop (p : Pipeline α) (outcome : Except Delivery.UploadError Nat) :
    p.Grows (p.concludeStop outcome) := by
  have hrefl := Outlet.Grows.refl p.outlet
  cases outcome with
  | ok delivered => exact ⟨hrefl.info _, rfl, rfl⟩
  | error e => exact ⟨(hrefl.error _).info _, rfl, rfl⟩

omit [Quantity α] in
/-- Whatever happens to messages on their way out, a pipeline remains at work. -/
theorem works_after (p : Pipeline α) (e : Delivery.Event) :
    p.Works { p with outlet := { p.outlet with delivery := p.outlet.delivery.after e } } :=
  ⟨⟨⟨rfl, .after p.outlet.delivery e⟩, rfl⟩, rfl⟩

end Pipeline

end Telemetry
