import Telemetry.Profile.Profiler
import Telemetry.Proofs.Profile.Samples
import Telemetry.Proofs.Reporting.Queued

/-!
# Profilers at work

A profiler is asked to record windows and to make reports, in any order and any number of times.
Whatever it was asked before, it is still the profiler that was created (`Built`): its settings are
the same, and so is its metric apart from the latest observation. So what a report queues is known
up to the tree in it (`Built.queueTree`).
-/

namespace Telemetry.Profiler

open CallGraph

variable {α : Type} [Quantity α]

/-- Something that is asked of a profiler. -/
inductive Request where
  /-- a window is recorded -/
  | record (reading : Except ProfileError Profile)
  /-- a report is made -/
  | report (o : Outlet) (moment : Moment) (processors : Nat)
      (reading : Except ProfileError Profile)

/-- What becomes of a profiler by a request. If that fails, nothing has changed. -/
def after (p : Profiler α) : Request → Profiler α
  | .record reading =>
    match p.record reading with
    | .ok p' => p'
    | .error _ => p
  | .report o moment processors reading =>
    match p.report o moment processors reading with
    | .ok (_, p', _) => p'
    | .error _ => p

/-- A profiler after a list of requests. -/
def run (o : Outlet) (settings : ProfilerSettings α) (requests : List Request) : Profiler α :=
  requests.foldl after (create o settings)

/-- The metric under which the profilers of an outlet report. -/
def metricOf (o : Outlet) (settings : ProfilerSettings α) : Metric α (Tree α) :=
  o.metric .profile settings.category settings.name settings.unit

/-- The record in which a tree is reported. -/
def pictured (o₀ : Outlet) (settings : ProfilerSettings α) (mint : Mint) (moment : Moment)
    (t : Tree α) : MetricRecord α :=
  (metricOf o₀ settings).pictured mint moment
    (UInt64.ofNat settings.reportInterval.toSeconds) t

/-! ## What a request does -/

theorem record_eq_ok {p : Profiler α} {reading : Except ProfileError Profile} {window : Tree α}
    (h : p.callGraph reading = .ok window) :
    p.record reading
      = .ok { p with pending := p.pending.merge window, windows := p.windows + 1 } := by
  rw [record, h]
  rfl

theorem record_eq_error {p : Profiler α} {reading : Except ProfileError Profile}
    {e : ProfileError} (h : p.callGraph reading = .error e) : p.record reading = .error e := by
  rw [record, h]
  rfl

/-- A profiler that takes snapshots reports a profile read for that. -/
theorem report_of_snapshot {p : Profiler α} (hmode : p.settings.mode = .snapshot) (o : Outlet)
    (moment : Moment) (processors : Nat) (reading : Except ProfileError Profile) :
    p.report o moment processors reading
      = (p.callGraph reading).map fun t =>
          p.queueTree o moment 1 (finish p.settings o.config.profileAgent processors 1 t) := by
  simp only [report, hmode]

/-- Without windows there is nothing to report. -/
theorem report_of_windows_eq_zero {p : Profiler α} {interval duration : Duration}
    (hmode : p.settings.mode = .windowed interval duration) (hzero : p.windows = 0) (o : Outlet)
    (moment : Moment) (processors : Nat) (reading : Except ProfileError Profile) :
    p.report o moment processors reading
      = .ok (false, { p with pending := Tree.root, windows := 0 }, o) := by
  simp only [report, hmode, if_pos hzero]

/-- A profiler that records windows reports all those that are pending, and starts over. -/
theorem report_of_windows_ne_zero {p : Profiler α} {interval duration : Duration}
    (hmode : p.settings.mode = .windowed interval duration) (hzero : p.windows ≠ 0) (o : Outlet)
    (moment : Moment) (processors : Nat) (reading : Except ProfileError Profile) :
    p.report o moment processors reading
      = .ok ({ p with pending := Tree.root, windows := 0 }.queueTree o moment p.windows.toNat
          (finish p.settings o.config.profileAgent processors p.windows.toNat p.pending)) := by
  simp only [report, hmode, if_neg hzero]

/-! ## What stays -/

/-- A profiler was made with these settings, whatever it has done since. -/
structure Built (o₀ : Outlet) (settings : ProfilerSettings α) (p : Profiler α) : Prop where
  same_settings : p.settings = settings
  same_metric : p.metric.bare = metricOf o₀ settings

namespace Built

variable {o₀ : Outlet} {settings : ProfilerSettings α} {p : Profiler α}

omit [Quantity α] in
theorem kind_ne_counter (h : Built o₀ settings p) : p.metric.kind ≠ .counter := by
  have hkind : p.metric.kind = .profile := congrArg Metric.kind h.same_metric
  rw [hkind]
  decide

/-- A finished tree is always queued, as one record. -/
theorem queueTree (h : Built o₀ settings p) (o : Outlet) (moment : Moment) (windows : Nat)
    (t : Tree α) :
    ∃ metric o', p.queueTree o moment windows t = (true, { p with metric }, o') ∧
      Built o₀ settings { p with metric } ∧
      Outlet.Queued moment.now [pictured o₀ settings o.mint moment t] o o' := by
  have hrecord : p.metric.pictured o.mint moment
      (UInt64.ofNat p.settings.reportInterval.toSeconds) t
        = pictured o₀ settings o.mint moment t := by
    rw [h.same_settings, pictured, ← h.same_metric]
    rfl
  obtain ⟨metric, o', hreport, hbare, hqueued⟩ := Outlet.report_queued h.kind_ne_counter o moment
    (UInt64.ofNat p.settings.reportInterval.toSeconds) t
  rw [hrecord] at hqueued
  rw [Profiler.queueTree, hreport]
  exact ⟨metric, _, rfl, ⟨h.same_settings, hbare.trans h.same_metric⟩, hqueued.info _⟩

theorem callGraph (h : Built o₀ settings p) (profile : Profile) :
    p.callGraph (.ok profile) = ofProfile profile settings.valueKind settings.countKind := by
  rw [← h.same_settings]
  rfl

theorem after (h : Built o₀ settings p) (request : Request) :
    Built o₀ settings (p.after request) := by
  cases request with
  | record reading =>
    rw [Profiler.after]
    cases hgraph : p.callGraph reading with
    | ok window =>
      rw [record_eq_ok hgraph]
      exact ⟨h.same_settings, h.same_metric⟩
    | error e =>
      rw [record_eq_error hgraph]
      exact h
  | report o moment processors reading =>
    rw [Profiler.after]
    cases hmode : p.settings.mode with
    | snapshot =>
      rw [report_of_snapshot hmode]
      cases p.callGraph reading with
      | error e => exact h
      | ok t =>
        obtain ⟨metric, o', hqueue, hbuilt, -⟩ := h.queueTree o moment 1
          (finish p.settings o.config.profileAgent processors 1 t)
        rw [Except.map, hqueue]
        exact hbuilt
    | windowed interval duration =>
      have htaken : Built o₀ settings { p with pending := Tree.root, windows := 0 } :=
        ⟨h.same_settings, h.same_metric⟩
      by_cases hzero : p.windows = 0
      · rw [report_of_windows_eq_zero hmode hzero]
        exact htaken
      · obtain ⟨metric, o', hqueue, hbuilt, -⟩ := htaken.queueTree o moment p.windows.toNat
          (finish p.settings o.config.profileAgent processors p.windows.toNat p.pending)
        rw [report_of_windows_ne_zero hmode hzero, hqueue]
        exact hbuilt

/-- A profiler that records windows starts over with a report, and queues the windows it had. -/
theorem report_windowed (h : Built o₀ settings p) {interval duration : Duration}
    (hmode : settings.mode = .windowed interval duration) (o : Outlet) (moment : Moment)
    (processors : Nat) (reading : Except ProfileError Profile) :
    ∃ queued metric o',
      p.report o moment processors reading
        = .ok (queued, { p with metric, pending := Tree.root, windows := 0 }, o') ∧
      (p.windows = 0 → queued = false ∧ o' = o) ∧
      (p.windows ≠ 0 → queued = true ∧
        Outlet.Queued moment.now
          [pictured o₀ settings o.mint moment
            (finish settings o.config.profileAgent processors p.windows.toNat p.pending)] o o') := by
  have hsettings : p.settings = settings := h.same_settings
  subst hsettings
  by_cases hzero : p.windows = 0
  · exact ⟨false, p.metric, o, report_of_windows_eq_zero hmode hzero o moment processors reading,
      fun _ => ⟨rfl, rfl⟩, fun hne => absurd hzero hne⟩
  · have htaken : Built o₀ p.settings { p with pending := Tree.root, windows := 0 } :=
      ⟨rfl, h.same_metric⟩
    obtain ⟨metric, o', hqueue, -, hqueued⟩ := htaken.queueTree o moment p.windows.toNat
      (finish p.settings o.config.profileAgent processors p.windows.toNat p.pending)
    refine ⟨true, metric, o', ?_, fun h => absurd h hzero, fun _ => ⟨rfl, hqueued⟩⟩
    rw [report_of_windows_ne_zero hmode hzero, hqueue]

end Built

theorem built_create (o₀ : Outlet) (settings : ProfilerSettings α) :
    Built o₀ settings (create o₀ settings) :=
  ⟨rfl, rfl⟩

theorem built_run (o₀ : Outlet) (settings : ProfilerSettings α) (requests : List Request) :
    Built o₀ settings (run o₀ settings requests) :=
  List.foldlRecOn (motive := Built o₀ settings) requests after (built_create o₀ settings)
    fun _ hp request _ => hp.after request

end Telemetry.Profiler
