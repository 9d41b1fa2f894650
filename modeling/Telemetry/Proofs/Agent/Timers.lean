import Telemetry.Proofs.Agent.Lifecycle
import Telemetry.Proofs.Schedule.Punctual

/-!
# The timers of an agent

Two checks stand between what an agent is told and its timers: the configuration is checked by the
start, and the settings of a profiler when it is registered. Together they make sure that every
schedule of a pipeline can be run (`Pipeline.Runnable`): no timer is without a period, and every
window fits into its interval. This is so for whatever has been asked of the agent, and it is all
that is needed for its schedules to be kept (`Schedule.KeptIn`).

Neither check has an upper bound. With an interval that leads past the last instant of the clock, a
timer cannot be started, and nothing that it should do would ever have been due.
-/

namespace Telemetry

/-! ## What the checks make sure of -/

theorem Duration.isZero_ofMillis {n : UInt64} (h : n ≠ 0) :
    (Duration.ofMillis n.toNat).isZero = false := by
  have hpos : n.toNat ≠ 0 := fun hzero => h (UInt64.toNat_inj.mp hzero)
  rw [isZero, ofMillis, beq_eq_false_iff_ne]
  exact Nat.mul_ne_zero hpos (by decide)

/-- No interval is zero in timings that pass their check. -/
theorem Timings.ne_zero_of_check {t : Timings} (h : t.check = .ok ()) :
    ∀ interval ∈ t.intervals, interval.2 ≠ 0 := by
  intro interval hmem hzero
  cases hfind : t.intervals.find? (·.2 == 0) with
  | none => exact List.find?_eq_none.mp hfind interval hmem (beq_iff_eq.mpr hzero)
  | some found =>
    rw [check, hfind] at h
    cases h

theorem Config.check_timings {c : Config} (h : c.check = .ok ()) : c.timings.check = .ok () := by
  rw [check] at h
  split at h
  · cases h
  · exact h

variable {α : Type}

/-- Settings that pass their check make up a schedule that can be run. -/
theorem Pipeline.sound_profilerSchedule {p : Profiler α} (h : p.settings.check = .ok ()) :
    (profilerSchedule p).Sound := by
  have hreport : p.settings.reportInterval.isZero = false := by
    cases hzero : p.settings.reportInterval.isZero with
    | false => rfl
    | true =>
      rw [ProfilerSettings.check, if_pos hzero] at h
      cases h
  rw [ProfilerSettings.check, hreport] at h
  refine ⟨hreport, fun plan hplan => ?_⟩
  cases hmode : p.settings.mode with
  | snapshot => simp [profilerSchedule, hmode] at hplan
  | windowed interval duration =>
    simp only [profilerSchedule, hmode, Option.mem_def, Option.some.injEq] at hplan
    subst hplan
    simp only [hmode] at h
    refine ⟨?_, ?_⟩
    · cases hzero : interval.isZero with
      | false => rfl
      | true => simp [hzero] at h
    · refine Nat.le_of_not_lt fun hlt => ?_
      have hlonger : interval < duration := hlt
      simp only [if_pos hlonger] at h
      split at h
      · cases h
      · split at h <;> cases h

/-! ## Pipelines -/

namespace Pipeline

/-- A pipeline has the intervals that it is told to have. -/
theorem timings_create [Quantity α] (config : Config) (host : Host)
    (registrations : List (ProfilerSettings α)) (moment : Moment) :
    (create config host registrations moment).outlet.config.timings = config.timings := by
  rw [create, Config.resolve]
  split <;> rfl

/-- All schedules of a pipeline can be run, and so can the timer that flushes. -/
structure Runnable (p : Pipeline α) : Prop where
  sound : ∀ entry ∈ p.schedules, entry.2.Sound
  flushing : p.outlet.config.timings.flushInterval.isZero = false

theorem mem_schedules (p : Pipeline α) {i : Nat} {profiler : Profiler α}
    (hi : p.profilers[i]? = some profiler) :
    (Reporter.profiler i, profilerSchedule profiler) ∈ p.schedules := by
  obtain ⟨hlt, rfl⟩ := List.getElem?_eq_some_iff.mp hi
  exact List.mem_append_right _ (List.mem_mapIdx.mpr ⟨i, hlt, rfl⟩)

/-- When a reporter is asked to report, and to record windows if it is. -/
inductive Asks (p : Pipeline α) : Reporter → Duration → Option RecordPlan → Prop where
  | segments : p.Asks .segments (.ofMillis p.outlet.config.timings.segmentReport.toNat) none
  | errors : p.Asks .errors (.ofMillis p.outlet.config.timings.errorReport.toNat) none
  | process : p.Asks .process (.ofMillis p.outlet.config.timings.processReport.toNat) none
  | snapshot {i : Nat} {profiler : Profiler α} (hi : p.profilers[i]? = some profiler)
      (hmode : profiler.settings.mode = .snapshot) :
      p.Asks (.profiler i) profiler.settings.reportInterval none
  | windowed {i : Nat} {profiler : Profiler α} {interval duration : Duration}
      (hi : p.profilers[i]? = some profiler)
      (hmode : profiler.settings.mode = .windowed interval duration) :
      p.Asks (.profiler i) profiler.settings.reportInterval (some { interval, duration })

/-- Everybody has the schedule that was asked for. -/
theorem exists_schedule (p : Pipeline α) {reporter : Reporter} {interval : Duration}
    {record : Option RecordPlan} (h : p.Asks reporter interval record) :
    ∃ name, (reporter, { name, reportInterval := interval, record }) ∈ p.schedules := by
  cases h with
  | segments => exact ⟨Segments.scheduleName, by simp [schedules, Timings.segmentInterval]⟩
  | errors => exact ⟨ErrorGroups.scheduleName, by simp [schedules, Timings.errorInterval]⟩
  | process => exact ⟨ProcessUsage.scheduleName, by simp [schedules, Timings.processInterval]⟩
  | snapshot hi hmode =>
    have hmem := p.mem_schedules hi
    rw [profilerSchedule, hmode] at hmem
    exact ⟨_, hmem⟩
  | windowed hi hmode =>
    have hmem := p.mem_schedules hi
    rw [profilerSchedule, hmode] at hmem
    exact ⟨_, hmem⟩

/-- Everybody has a schedule of their own. -/
theorem nodup_tags (p : Pipeline α) : (p.schedules.map Prod.fst).Nodup := by
  have hprofilers : (p.profilers.mapIdx fun index profiler =>
      (Reporter.profiler index, profilerSchedule profiler)).map Prod.fst
        = (List.range p.profilers.length).map Reporter.profiler := by
    apply List.ext_getElem
    · simp
    · intro i hi hi'
      simp
  have hdifferent : ((List.range p.profilers.length).map Reporter.profiler).Nodup :=
    List.nodup_range.map fun i j hij => Reporter.profiler.inj hij
  rw [schedules, List.map_append, hprofilers, List.nodup_append]
  refine ⟨by simp, hdifferent, ?_⟩
  intro tag htag other hother
  obtain ⟨i, -, rfl⟩ := List.mem_map.mp hother
  rintro rfl
  simp at htag

/-- Whatever has passed its check can be run. -/
theorem runnable_of_check {p : Pipeline α} (hconfig : p.outlet.config.timings.check = .ok ())
    (hprofilers : ∀ profiler ∈ p.profilers, profiler.settings.check = .ok ()) : p.Runnable := by
  have hinterval : ∀ name interval, (name, interval) ∈ p.outlet.config.timings.intervals →
      (Duration.ofMillis interval.toNat).isZero = false := fun name interval hmem =>
    Duration.isZero_ofMillis (Timings.ne_zero_of_check hconfig _ hmem)
  refine ⟨?sound, hinterval "flush_interval_ms" _ (by simp [Timings.intervals])⟩
  rintro ⟨tag, s⟩ hmem
  rcases List.mem_append.mp hmem with hown | hprofiler
  · -- the agent's own schedules record nothing
    simp only [List.mem_cons, List.not_mem_nil, or_false, Prod.mk.injEq] at hown
    obtain ⟨-, rfl⟩ | ⟨-, rfl⟩ | ⟨-, rfl⟩ := hown
    · exact ⟨hinterval "segment_report_interval_ms" _ (by simp [Timings.intervals]),
        fun _ hnone => nomatch hnone⟩
    · exact ⟨hinterval "error_report_interval_ms" _ (by simp [Timings.intervals]),
        fun _ hnone => nomatch hnone⟩
    · exact ⟨hinterval "process_report_interval_ms" _ (by simp [Timings.intervals]),
        fun _ hnone => nomatch hnone⟩
  · obtain ⟨i, hi, hentry⟩ := List.mem_mapIdx.mp hprofiler
    cases hentry
    exact sound_profilerSchedule (hprofilers _ (List.getElem_mem hi))

end Pipeline

namespace Agent

/-! ## Lives -/

theorem Launch.check_of_isViable {l : Launch} (h : l.isViable = true) :
    l.config.check = .ok () := by
  have hverdict := Launch.verdict_of_isViable h
  rw [Launch.verdict] at hverdict
  split at hverdict
  · cases hcheck : l.config.check with
    | ok _ => rfl
    | error reason =>
      rw [hcheck] at hverdict
      cases hverdict
  · cases hverdict

namespace History

/-- What an agent accepts has passed its check. -/
theorem check_of_mem_accepts {a : Agent α} {c : Call α} {settings : ProfilerSettings α}
    (h : settings ∈ accepts a c) : settings.check = .ok () := by
  cases c with
  | register other =>
    rw [accepts, register] at h
    cases hlatched : a.latched with
    | true => simp [hlatched] at h
    | false =>
      cases hcheck : other.check with
      | error reason => simp [hlatched, hcheck] at h
      | ok _ =>
        simp [hlatched, hcheck] at h
        rw [h, hcheck]
  | _ => cases h

variable [Quantity α]

theorem check_of_mem_accepted (calls : List (Call α)) :
    ∀ settings ∈ (of calls : History α).accepted, settings.check = .ok () := by
  induction calls using List.reverseRecOn with
  | nil => exact fun _ hmem => nomatch hmem
  | append_singleton calls c ih =>
    intro settings hmem
    rw [of_concat] at hmem
    rcases List.mem_append.mp hmem with hmem | hmem
    · exact ih settings hmem
    · exact check_of_mem_accepts hmem

/-- What the profilers and the timings of an agent are that was started. -/
theorem settings_of_pipeline (calls : List (Call α)) {p : Pipeline α}
    (hp : (of calls).agent.pipeline = some p) :
    p.profilers.map Profiler.settings = (of calls).accepted ∧
      ∃ l, (launches calls).find? Launch.isViable = some l ∧
        p.outlet.config.timings = l.config.timings := by
  have hk := kept_of calls
  generalize of calls = h at hk hp
  cases hk with
  | fresh => cases hp
  | started hphase hlaunch hcontinues =>
    rename_i accepted l built
    obtain rfl : built = p := Option.some.inj hp
    refine ⟨?settings, l, hlaunch, ?timings⟩
    case settings =>
      rw [hcontinues.settings, Pipeline.create, List.map_map]
      exact List.map_id _
    case timings => rw [hcontinues.outlet.config, Pipeline.timings_create]

/-- The pipeline of an agent can be run, whatever has been asked of the agent. -/
theorem runnable (calls : List (Call α)) {p : Pipeline α}
    (hp : (of calls).agent.pipeline = some p) : p.Runnable := by
  obtain ⟨hsettings, l, hlaunch, htimings⟩ := settings_of_pipeline calls hp
  apply Pipeline.runnable_of_check
  · rw [htimings]
    exact Config.check_timings (Launch.check_of_isViable (List.find?_some hlaunch))
  · intro profiler hmem
    apply check_of_mem_accepted calls
    rw [← hsettings]
    exact List.mem_map_of_mem hmem

end History

variable [Quantity α]

/-- What can be relied on about the timers of an agent that is started. -/
structure Punctual (calls : List (Call α)) (p : Pipeline α) (begun : Instant) : Prop where
  /-- all profilers are there whose registration was accepted -/
  registered : p.profilers.map Profiler.settings = (History.of calls).accepted
  /-- the agent goes by the timings of the start that was accepted -/
  configured : ∃ l, (launches calls).find? Launch.isViable = some l ∧
    p.outlet.config.timings = l.config.timings
  /-- everybody has the schedule that was asked for -/
  asked : ∀ {reporter interval record}, p.Asks reporter interval record →
    ∃ name, (reporter, { name, reportInterval := interval, record }) ∈ p.schedules
  /-- no timer is without a period, and every window fits into its interval -/
  sound : ∀ entry ∈ p.schedules, entry.2.Sound
  /-- all timers are started whose first deadline a clock can show -/
  held : ∀ entry ∈ p.schedules, entry.2.HeldBy begun entry.1 ((History.of calls).agent.timers begun)
  /-- so is the one that flushes -/
  flushing : p.outlet.config.timings.flushInterval.isZero = false ∧
    ∀ deadline, begun.plus? p.outlet.config.timings.flushInterval = some deadline →
      Ticker.start? begun p.outlet.config.timings.flushInterval
        = some { period := p.outlet.config.timings.flushInterval, deadline }
  /-- if timers are woken on time, every schedule is kept, whatever delays are drawn, and however
  long callbacks take or end -/
  kept : ∀ shift, Relation.ReflTransGen Shift.Step
      { roster := (History.of calls).agent.timers begun } shift →
    ∀ entry ∈ p.schedules, entry.2.KeptIn begun entry.1 shift
  /-- the next timer can be woken until a time is past, whatever has been drawn before -/
  next : ∀ limit ≤ Instant.last, ∀ shift : Shift Reporter,
    shift.Past limit ∨ ∃ later, shift.Next later
  /-- and whoever goes on waking timers gets past it -/
  passing : ∀ (limit : Instant) (shifts : Nat → Shift Reporter),
    shifts 0 = { roster := (History.of calls).agent.timers begun } →
      (∀ n, (shifts n).Past limit ∨ Shift.Next (shifts n) (shifts (n + 1))) →
        ∃ n, (shifts n).Past limit

/-- Two profilers are registered. One records windows; the other is to report so seldom that no clock
can show the first time. -/
def unevenCalls : List (Call Float) :=
  [.register { ProfilerSettings.cpu with reportInterval := .ofSeconds 15 },
    .register { ProfilerSettings.heap with reportInterval := .ofSeconds 18446744073709551615 },
    .start ⟨{ appName := "shop" }, ⟨"", none, 4, "1", ""⟩, true, ⟨⟨0⟩, fun _ => 0⟩⟩]

end Agent

end Telemetry
