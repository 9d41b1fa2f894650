import Telemetry.Proofs.Breakdown.Merge
import Telemetry.Proofs.Profile.Runs

/-!
# Windows are added up exactly

A profiler that records windows builds a tree of each and merges it into the one that is pending.
That comes to the same as folding the samples of all windows into a single tree (`merge_grow`), so a
report of several windows is what a profile of all their samples would have given.

A history follows a profiler through a run and keeps the windows it recorded. The invariant (`Kept`)
says that the tree that is pending is the one of the windows recorded since the last report, and that
every report so far was faithful: it showed all windows recorded since the report before it, and no
others.
-/

namespace Telemetry

/-! ## Merging what was grown -/

namespace CallGraph

variable {α : Type} [Quantity α]

/-- To merge a tree grown from nothing is to grow. -/
theorem merge_grow [Quantity.Exact α] (into : Tree α) (hits : List Hit) :
    into.merge (grow Tree.root hits) = grow into hits := by
  suffices hfrom : ∀ t : Tree α, t.Ordered → into.merge (grow t hits) = grow (into.merge t) hits by
    rw [hfrom _ Tree.ordered_root, Tree.root, Tree.merge_leaf]
  induction hits with
  | nil => exact fun t _ => rfl
  | cons hit rest ih =>
    intro t ht
    rw [grow_cons, ih _ (ht.incrementAt hit.path _ _), ht.merge_incrementAt, grow_cons]

/-- Every sample of a profile can be folded. -/
def Foldable (valueKind countKind : String) (profile : Profile) : Prop :=
  ∃ c, columns profile valueKind countKind = .ok c ∧ c.Complete profile.samples

/-- The tree into which profiles are folded one after the other. -/
def foldAll (valueKind countKind : String) (profiles : List Profile) (t : Tree α) : Tree α :=
  profiles.foldl (fun t profile => (fold profile valueKind countKind t).2) t

/-- Profiles with the same columns might as well be one. -/
theorem foldAll_eq_grow {valueKind countKind : String} {types : List SampleType} {c : Columns}
    (hc : columns { sampleTypes := types, samples := [] } valueKind countKind = .ok c)
    {profiles : List Profile} (htypes : ∀ profile ∈ profiles, profile.sampleTypes = types)
    (hcomplete : c.Complete (profiles.flatMap Profile.samples)) (t : Tree α) :
    foldAll valueKind countKind profiles t
      = grow t (c.hits (profiles.flatMap Profile.samples)) := by
  induction profiles generalizing t with
  | nil => rfl
  | cons profile rest ih =>
    have hcolumns : columns profile valueKind countKind = .ok c := by
      rw [← hc]
      exact columns_congr (htypes profile List.mem_cons_self) valueKind countKind
    have hprofile : c.Complete profile.samples := fun s hmem =>
      hcomplete s (List.mem_flatMap.mpr ⟨profile, List.mem_cons_self, hmem⟩)
    have hrest : c.Complete (rest.flatMap Profile.samples) := fun s hmem =>
      hcomplete s (List.flatMap_cons ▸ List.mem_append_right _ hmem)
    rw [List.flatMap_cons, Columns.hits_append, grow_append,
      ← ih (fun other hmem => htypes other (List.mem_cons_of_mem profile hmem)) hrest]
    simp only [foldAll]
    rw [List.foldl_cons, fold_of_complete hcolumns hprofile]

/-- Folding profiles with the same columns one after the other is folding all their samples. -/
theorem ofProfile_flatMap {valueKind countKind : String} {types : List SampleType}
    {profiles : List Profile} (hne : profiles ≠ [])
    (htypes : ∀ profile ∈ profiles, profile.sampleTypes = types)
    (hfoldable : ∀ profile ∈ profiles, Foldable valueKind countKind profile) :
    ofProfile { sampleTypes := types, samples := profiles.flatMap Profile.samples }
        valueKind countKind
      = .ok (foldAll valueKind countKind profiles (Tree.root : Tree α)) := by
  have hsame : ∀ profile ∈ profiles, ∀ samples,
      columns profile valueKind countKind
        = columns { sampleTypes := types, samples } valueKind countKind :=
    fun profile hmem samples => columns_congr (htypes profile hmem) valueKind countKind
  obtain ⟨first, hfirst⟩ := List.exists_mem_of_ne_nil profiles hne
  obtain ⟨c, hc, -⟩ := hfoldable first hfirst
  have hcomplete : c.Complete (profiles.flatMap Profile.samples) := by
    intro s hmem
    obtain ⟨profile, hprofile, hs⟩ := List.mem_flatMap.mp hmem
    -- profiles with the same types have the same columns
    obtain ⟨c', hc', hsamples⟩ := hfoldable profile hprofile
    rw [hsame profile hprofile [], ← hsame first hfirst [], hc] at hc'
    rw [Except.ok.inj hc']
    exact hsamples s hs
  rw [ofProfile_eq_ok_iff]
  refine ⟨c, ?_, hcomplete, foldAll_eq_grow ?_ htypes hcomplete _⟩
  · rw [← hsame first hfirst, hc]
  · rw [← hsame first hfirst, hc]

end CallGraph

/-! ## Histories -/

namespace Profiler

open CallGraph

variable {α : Type} [Quantity α]

/-- A report that was made. -/
structure Report where
  /-- the outlet it was given -/
  outlet : Outlet
  moment : Moment
  processors : Nat
  /-- the windows recorded since the report before it -/
  windows : List Profile
  /-- whether something was queued, and the outlet then -/
  outcome : Except ProfileError (Bool × Outlet)

/-- What all processors could give in a window. -/
def capacity (duration : Duration) (processors : Nat) : α :=
  Quantity.ofInt duration.nanos * Quantity.ofInt processors

/-- What is reported of some windows, done to the one tree into which they are folded one after the
other: frames of the agent are cut off unless they are wanted, children are added to their parents,
and so on. What is out of range is cut off last, so it is still part of what its parents hold. -/
def direct (settings : ProfilerSettings α) (profileAgent : Bool) (processors : Nat)
    (windows : List Profile) : Tree α :=
  let folded := foldAll settings.valueKind settings.countKind windows Tree.root
  let named :=
    if profileAgent then folded else folded.filterNames fun label => !isAgentFrame label
  let summed := named.rollup
  let averaged :=
    if windows.length ≤ 1 then summed else summed.average (Quantity.ofInt windows.length)
  let converted :=
    match settings.scale with
    | .absolute => averaged
    | .factor f => averaged.scale f
    | .cpuPercent =>
      match settings.mode with
      | .snapshot => averaged
      | .windowed _ duration =>
        if Quantity.isPositive (capacity duration processors : α) then
          averaged.percentOf (capacity duration processors)
        else averaged
  match settings.filter with
  | none => converted
  | some f => converted.filterValues f

/-- To finish the tree of some windows is to do all that is to be done to it. -/
theorem finish_foldAll (settings : ProfilerSettings α) (profileAgent : Bool) (processors : Nat)
    (windows : List Profile) :
    finish settings profileAgent processors windows.length
        (foldAll settings.valueKind settings.countKind windows Tree.root)
      = direct settings profileAgent processors windows := by
  have haveraged (t : Tree α) :
      (if 1 < windows.length then t.average (Quantity.ofInt windows.length) else t)
        = if windows.length ≤ 1 then t else t.average (Quantity.ofInt windows.length) := by
    by_cases hfew : windows.length ≤ 1
    · rw [if_pos hfew, if_neg (Nat.not_lt_of_le hfew)]
    · rw [if_neg hfew, if_pos (Nat.lt_of_not_le hfew)]
  simp only [finish, direct, haveraged, convert, capacity]
  cases settings.scale <;> cases settings.mode <;> cases settings.filter <;> rfl

/-- A report queues what its windows come to, unless there are none. -/
structure Report.Faithful (settings : ProfilerSettings α) (r : Report) : Prop where
  /-- without windows nothing is done at all -/
  idle : r.windows = [] → r.outcome = .ok (false, r.outlet)
  /-- else one metric is queued -/
  queued : r.windows ≠ [] → r.windows.length < UInt32.size →
    let t := direct settings r.outlet.config.profileAgent r.processors r.windows
    ∃ o' record observation,
      r.outcome = .ok (true, o') ∧
      Outlet.Queued r.moment.now [record] r.outlet o' ∧
      record.measurement = some observation ∧
      observation.value = t.measurement ∧
      observation.breakdown = some t.toRecord
  /-- folding the windows one after the other is folding all their samples -/
  folded : r.windows ≠ [] → ∀ types, (∀ window ∈ r.windows, window.sampleTypes = types) →
    ofProfile { sampleTypes := types, samples := r.windows.flatMap Profile.samples }
        settings.valueKind settings.countKind
      = .ok (foldAll settings.valueKind settings.countKind r.windows (Tree.root : Tree α))

/-- A profiler with what it was asked to do. -/
structure History (α : Type) where
  profiler : Profiler α
  /-- the windows that were recorded, oldest first -/
  recorded : List Profile := []
  /-- those that were recorded since the last report -/
  current : List Profile := []
  /-- the reports made, oldest first -/
  reports : List Report := []

namespace History

/-- The next request of a run. A window is recorded if the profiler says so. -/
def next (h : History α) : Request → History α
  | .record (.ok window) =>
    match h.profiler.record (.ok window) with
    | .ok profiler =>
      { h with profiler, recorded := h.recorded ++ [window], current := h.current ++ [window] }
    | .error _ => h
  | .record (.error e) => { h with profiler := h.profiler.after (.record (.error e)) }
  | .report outlet moment processors reading =>
    { h with
      profiler := h.profiler.after (.report outlet moment processors reading)
      current := []
      reports := h.reports ++
        [{ outlet, moment, processors, windows := h.current
           outcome := (h.profiler.report outlet moment processors reading).map
             fun (queued, _, o') => (queued, o') }] }

/-- A run of a profiler from its creation. -/
def of (o₀ : Outlet) (settings : ProfilerSettings α) (requests : List Request) : History α :=
  requests.foldl next { profiler := create o₀ settings }

/-- What holds throughout a run. -/
structure Kept (o₀ : Outlet) (settings : ProfilerSettings α) (h : History α) : Prop where
  built : Built o₀ settings h.profiler
  pending : h.profiler.pending
    = foldAll settings.valueKind settings.countKind h.current Tree.root
  windows : h.profiler.windows = UInt32.ofNat h.current.length
  foldable : ∀ window ∈ h.current, Foldable settings.valueKind settings.countKind window
  recorded : h.recorded = h.reports.flatMap Report.windows ++ h.current
  faithful : ∀ r ∈ h.reports, r.Faithful settings

variable {o₀ : Outlet} {settings : ProfilerSettings α} {h : History α}

/-- A window that is recorded is folded into the tree that is pending. -/
theorem Kept.record [Quantity.Exact α] (hk : Kept o₀ settings h) {window : Profile}
    {graph : Tree α} (hgraph : h.profiler.callGraph (.ok window) = .ok graph) :
    Kept o₀ settings (h.next (.record (.ok window))) := by
  rw [next, record_eq_ok hgraph]
  rw [hk.built.callGraph, ofProfile_eq_ok_iff] at hgraph
  obtain ⟨c, hc, hcomplete, rfl⟩ := hgraph
  -- merging the window is folding its samples into what is pending
  refine ⟨⟨hk.built.same_settings, hk.built.same_metric⟩, ?_, ?_, ?_, ?_, hk.faithful⟩
  · simp only [foldAll, List.foldl_append, List.foldl_cons, List.foldl_nil]
    rw [merge_grow, hk.pending, fold_of_complete hc hcomplete]
    rfl
  · simp only [hk.windows, List.length_append, UInt32.ofNat_add]
    rfl
  · intro other hmem
    rcases List.mem_append.mp hmem with hmem | hmem
    · exact hk.foldable other hmem
    · rw [List.mem_singleton.mp hmem]
      exact ⟨c, hc, hcomplete⟩
  · rw [hk.recorded, List.append_assoc]

/-- The report of the windows that are pending is faithful. -/
theorem Kept.faithful_report (hk : Kept o₀ settings h) {o o' : Outlet} {moment : Moment}
    {processors : Nat} {queued : Bool}
    (hidle : h.profiler.windows = 0 → queued = false ∧ o' = o)
    (hqueued : h.profiler.windows ≠ 0 → queued = true ∧
      Outlet.Queued moment.now
        [pictured o₀ settings o.mint moment (finish settings o.config.profileAgent processors
          h.profiler.windows.toNat h.profiler.pending)] o o') :
    Report.Faithful settings
      { outlet := o, moment, processors, windows := h.current, outcome := .ok (queued, o') } := by
  refine ⟨fun hnone => ?_, fun hsome hlength => ?_, fun hsome types htypes => ?_⟩
  · have hzero : h.profiler.windows = 0 := by
      rw [hk.windows, show h.current = [] from hnone]
      rfl
    obtain ⟨rfl, rfl⟩ := hidle hzero
    rfl
  · -- below the range of the counter, the number of windows is what it says
    have htoNat : h.profiler.windows.toNat = h.current.length := by
      rw [hk.windows]
      exact UInt32.toNat_ofNat_of_lt' hlength
    have hne : h.profiler.windows ≠ 0 := by
      intro hzero
      rw [hzero] at htoNat
      exact hsome (List.eq_nil_of_length_eq_zero htoNat.symm)
    obtain ⟨rfl, hrecord⟩ := hqueued hne
    rw [htoNat, hk.pending, finish_foldAll] at hrecord
    exact ⟨o', _, _, rfl, hrecord, rfl, rfl, rfl⟩
  · exact ofProfile_flatMap hsome htypes hk.foldable

/-- A report takes all windows that are pending. -/
theorem Kept.report (hk : Kept o₀ settings h) {interval duration : Duration}
    (hmode : settings.mode = .windowed interval duration) (o : Outlet) (moment : Moment)
    (processors : Nat) (reading : Except ProfileError Profile) :
    Kept o₀ settings (h.next (.report o moment processors reading)) := by
  obtain ⟨queued, metric, o', hreport, hidle, hqueued⟩ :=
    hk.built.report_windowed hmode o moment processors reading
  have hafter : h.profiler.after (.report o moment processors reading)
      = { h.profiler with metric, pending := Tree.root, windows := 0 } := by
    rw [Profiler.after, hreport]
  have hbuilt := hk.built.after (.report o moment processors reading)
  rw [hafter] at hbuilt
  rw [next, hafter, hreport]
  refine ⟨hbuilt, rfl, rfl, ?_, ?_, ?_⟩
  · exact fun window hmem => absurd hmem List.not_mem_nil
  · rw [List.append_nil, List.flatMap_append, hk.recorded]
    simp
  · intro r hmem
    rcases List.mem_append.mp hmem with hmem | hmem
    · exact hk.faithful r hmem
    · rw [List.mem_singleton.mp hmem]
      exact hk.faithful_report hidle hqueued

theorem Kept.next [Quantity.Exact α] (hk : Kept o₀ settings h) {interval duration : Duration}
    (hmode : settings.mode = .windowed interval duration) (request : Request) :
    Kept o₀ settings (h.next request) := by
  cases request with
  | report o moment processors reading => exact hk.report hmode o moment processors reading
  | record reading =>
    cases reading with
    | error e => exact hk
    | ok window =>
      cases hgraph : h.profiler.callGraph (.ok window) with
      | ok graph => exact hk.record hgraph
      | error e =>
        rw [History.next, record_eq_error hgraph]
        exact hk

theorem kept_of [Quantity.Exact α] (o₀ : Outlet) (settings : ProfilerSettings α)
    {interval duration : Duration} (hmode : settings.mode = .windowed interval duration)
    (requests : List Request) : Kept o₀ settings (of o₀ settings requests) := by
  have hstart : Kept o₀ settings ({ profiler := create o₀ settings } : History α) :=
    ⟨built_create o₀ settings, rfl, rfl, fun _ hmem => absurd hmem List.not_mem_nil, rfl,
      fun _ hmem => absurd hmem List.not_mem_nil⟩
  exact List.foldlRecOn (motive := Kept o₀ settings) requests History.next hstart
    fun _ hk request _ => hk.next hmode request

/-- Settings under which windows are reported as a percentage of what the processors could give. -/
def busySettings : ProfilerSettings Rat :=
  { name := "Busy", category := .cpuProfile, unit := .percent
    valueKind := "cpu", countKind := "samples"
    mode := .windowed (.ofSeconds 10) (.ofSeconds 2), reportInterval := .ofSeconds 60
    scale := .cpuPercent, filter := none }

/-- A window in which one path was busy. -/
def busyWindow (nanos : Int64) : Profile :=
  { sampleTypes := [{ kind := "samples", unit := "count" }, { kind := "cpu", unit := "nanoseconds" }]
    samples := [{ frames := [⟨"work", none, none⟩, ⟨"main", none, none⟩], values := [1, nanos] }] }

/-- Two windows with a failure between them, a report, and a third window. -/
def busyRequests : List Request :=
  [.record (.ok (busyWindow 3000000)), .record (.error (.sourceFailed "gone")),
    .record (.ok (busyWindow 5000000)),
    .report { config := {}, delivery := Delivery.create {} 600 false } ⟨⟨0⟩, fun _ => 0⟩ 4
      (.error (.sourceFailed "unused")),
    .record (.ok (busyWindow 7000000))]

end History

end Profiler

end Telemetry
