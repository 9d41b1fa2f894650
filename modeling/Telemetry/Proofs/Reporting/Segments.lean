import Mathlib.Data.List.Induction
import Mathlib.Data.List.Perm.Basic
import Telemetry.Proofs.Reporting.Durations

/-!
# Every duration is counted in one window

A history follows the segments of an agent through a run of requests in any order: durations are
recorded, windows are reported, and the latest durations are asked for. As a duration is recorded in
two stages, a call may also be interrupted between them, and any number of other requests come
first. The history keeps the durations counted since the last report, the calls that are under way,
and what each report was given and gave.

The invariant (`Agrees`) ties both tables of the segments to that history. The window has an entry
for each name that was counted since the last report, and the entry was offered just the durations
of that name. And every name in the window has a place for its latest duration: a report empties one
table, but never takes a place out of the other. So a duration that finds its entry also finds its
place (`Agrees.look_cases`), and none is ever added twice.
-/

namespace Telemetry.Segments

variable {α : Type} [Quantity α]

/-- The durations of one segment. -/
def named (name : String) (timings : List (Timing α)) : List (Timing α) :=
  timings.filter fun timing => timing.name = name

omit [Quantity α] in
theorem named_append (name : String) (first second : List (Timing α)) :
    named name (first ++ second) = named name first ++ named name second :=
  List.filter_append ..

omit [Quantity α] in
theorem named_singleton_self (timing : Timing α) : named timing.name [timing] = [timing] := by
  simp [named]

omit [Quantity α] in
theorem named_singleton_of_ne {name : String} {timing : Timing α} (hne : timing.name ≠ name) :
    named name [timing] = [] := by
  simp [named, hne]

/-! ## What a duration changes -/

/-- However far a duration has come with what was there, in the end it has been added to the window
once, and it is the latest one. -/
theorem add_eq (s : Segments α) (name : String) (duration : α) (slot : Nat) :
    s.add name duration slot = (s.feed name duration slot).remember name duration := by
  rw [add, look]
  cases Sorted.find? Entry.name name s.window with
  | none => rfl
  | some entry =>
    cases hslot : Sorted.find? Prod.fst name s.latest with
    | none => rfl
    | some place => rfl

theorem faithful_feed (name : String) (duration : α) (slot : Nat) :
    Sorted.Faithful Entry.name name
      fun entry => (entry.getD (Entry.fresh name)).observe duration slot :=
  ⟨rfl, fun _ hname => hname⟩

omit [Quantity α] in
theorem faithful_remember (name : String) (duration : α) :
    Sorted.Faithful (Prod.fst (β := Option α)) name fun _ => (name, some duration) :=
  ⟨rfl, fun _ _ => rfl⟩

/-! ## The invariant -/

/-- The entry that a name has after some durations, if one of them is its own. -/
def entryOf (name : String) (timings : List (Timing α)) : Option (Entry α) :=
  match named name timings with
  | [] => none
  | first :: rest => some (Entry.observed name (first :: rest))

theorem entryOf_of_ne_nil {name : String} {timings : List (Timing α)}
    (hne : named name timings ≠ []) :
    entryOf name timings = some (Entry.observed name (named name timings)) := by
  rw [entryOf]
  cases hnamed : named name timings with
  | nil => exact absurd hnamed hne
  | cons first rest => rfl

/-- Segments agree with the durations recorded since the last report. -/
structure Agrees (s : Segments α) (timings : List (Timing α)) : Prop where
  window : Sorted.Ascending Entry.name s.window
  latest : Sorted.Ascending Prod.fst s.latest
  /-- an entry is what its durations have made of it -/
  entry : ∀ name, Sorted.find? Entry.name name s.window = entryOf name timings
  /-- every name in the window has a place for its latest duration -/
  place : ∀ entry ∈ s.window, (Sorted.find? Prod.fst entry.name s.latest).isSome

theorem Agrees.start : Agrees ({} : Segments α) [] :=
  ⟨List.Pairwise.nil, List.Pairwise.nil, fun _ => rfl, fun _ hmem => nomatch hmem⟩

/-- A duration is added to the entry of its name, and its name has a place from then on. -/
theorem Agrees.add {s : Segments α} {timings : List (Timing α)} (h : s.Agrees timings)
    (timing : Timing α) :
    (s.add timing.name timing.duration timing.slot).Agrees (timings ++ [timing]) := by
  obtain ⟨name, duration, slot⟩ := timing
  have hfeed := faithful_feed name duration slot
  have hremember := faithful_remember name duration
  rw [add_eq]
  refine ⟨Sorted.ascending_amend hfeed h.window, Sorted.ascending_amend hremember h.latest,
    fun other => ?_, fun entry hmem => ?_⟩
  · have hfound := h.entry other
    by_cases hname : name = other
    · -- the entry of the name is fed, and made for that if this is its first duration
      subst hname
      have hnamed : named name (timings ++ [⟨name, duration, slot⟩])
          = named name timings ++ [⟨name, duration, slot⟩] := by
        rw [named_append]
        exact congrArg _ (named_singleton_self ⟨name, duration, slot⟩)
      rw [entryOf_of_ne_nil (by rw [hnamed]; simp), hnamed, Entry.observed_append]
      refine (Sorted.find?_amend_self hfeed h.window).trans ?_
      rw [hfound, entryOf]
      cases named name timings <;> rfl
    · refine (Sorted.find?_amend_of_ne hfeed hname).trans ?_
      have hnamed : named other (timings ++ [⟨name, duration, slot⟩]) = named other timings := by
        rw [named_append, named_singleton_of_ne hname, List.append_nil]
      rw [hfound, entryOf, entryOf, hnamed]
  · by_cases hname : name = entry.name
    · -- the latest duration has just been put in its place
      rw [← hname]
      exact Option.isSome_of_eq_some (Sorted.find?_amend_self hremember h.latest)
    · have hold : entry ∈ s.window :=
        (Sorted.name_of_mem_amend hfeed hmem).resolve_right fun heq => hname heq.symm
      exact (congrArg Option.isSome (Sorted.find?_amend_of_ne hremember hname)).trans
        (h.place entry hold)

/-- A report starts a new window. All places stay. -/
theorem Agrees.report {s : Segments α} {timings : List (Timing α)} (h : s.Agrees timings) :
    Agrees { s with window := [] } ([] : List (Timing α)) :=
  ⟨List.Pairwise.nil, h.latest, fun _ => rfl, fun _ hmem => nomatch hmem⟩

/-- Places are emptied, but there are as many as before. -/
theorem Agrees.takeLatest {s : Segments α} {timings : List (Timing α)} (h : s.Agrees timings) :
    s.takeLatest.2.Agrees timings := by
  have hname : ∀ place : String × Option α, ((place.1, none) : String × Option α).1 = place.1 :=
    fun _ => rfl
  refine ⟨h.window, ?_, h.entry, fun entry hmem => ?_⟩
  · exact List.pairwise_map.mpr h.latest
  · have hfind : Sorted.find? Prod.fst entry.name s.takeLatest.2.latest
        = (Sorted.find? Prod.fst entry.name s.latest).map fun place => (place.1, none) :=
      Sorted.find?_map hname
    rw [hfind, Option.isSome_map]
    exact h.place entry hmem

/-- The first stage is all there is to a duration, or it has changed nothing yet. -/
theorem Agrees.look_cases {s : Segments α} {timings : List (Timing α)} (h : s.Agrees timings)
    (name : String) (duration : α) (slot : Nat) :
    s.look name duration slot = .done (s.add name duration slot) ∨
      s.look name duration slot = .missed false s := by
  rw [add_eq, look]
  cases hfind : Sorted.find? Entry.name name s.window with
  | none => exact .inr rfl
  | some entry =>
    obtain ⟨hmem, rfl⟩ := Sorted.mem_of_find?_eq_some hfind
    obtain ⟨place, hplace⟩ := Option.isSome_iff_exists.mp (h.place entry hmem)
    refine .inl ?_
    simp only [hplace]

/-- The names in the window are those that were recorded. -/
theorem Agrees.mem_names_iff {s : Segments α} {timings : List (Timing α)} (h : s.Agrees timings)
    (name : String) :
    name ∈ s.window.map Entry.name ↔ ∃ timing ∈ timings, timing.name = name := by
  have hnamed : named name timings ≠ [] ↔ ∃ timing ∈ timings, timing.name = name := by
    rw [named, Ne, List.filter_eq_nil_iff]
    simp
  rw [← Sorted.isSome_find?_iff, h.entry, ← hnamed]
  by_cases hne : named name timings = []
  · rw [entryOf, hne]
    simp
  · rw [entryOf_of_ne_nil hne]
    simp [hne]

/-- An entry of the window is what the durations of its name have made of it. -/
theorem Agrees.eq_observed {s : Segments α} {timings : List (Timing α)} (h : s.Agrees timings)
    {entry : Entry α} (hmem : entry ∈ s.window) :
    named entry.name timings ≠ [] ∧
      entry = Entry.observed entry.name (named entry.name timings) := by
  have hfind := (Sorted.find?_of_mem h.window hmem).symm.trans (h.entry entry.name)
  have hne : named entry.name timings ≠ [] := by
    intro hnone
    rw [entryOf, hnone] at hfind
    cases hfind
  rw [entryOf_of_ne_nil hne] at hfind
  exact ⟨hne, Option.some.inj hfind⟩

/-- How many samples of a segment wait to be reported. -/
def waiting (s : Segments α) (name : String) : Int64 :=
  match Sorted.find? Entry.name name s.window with
  | some entry => entry.sampleCount
  | none => 0

theorem Agrees.waiting_eq {s : Segments α} {timings : List (Timing α)} (h : s.Agrees timings)
    (name : String) : s.waiting name = Int64.ofNat (named name timings).length := by
  rw [waiting, h.entry]
  by_cases hne : named name timings = []
  · rw [entryOf, hne]
    rfl
  · rw [entryOf_of_ne_nil hne, Entry.observed_eq]

/-! ## What a report queues -/

/-- The records queued for entries, each under the next id. -/
def pictures (config : Config) (moment : Moment) : Mint → List (Entry α) → List (MetricRecord α)
  | _, [] => []
  | mint, entry :: rest =>
    pictured config moment mint entry :: pictures config moment (mint.next moment).2 rest

theorem pictures_eq (config : Config) (moment : Moment) (mint : Mint) (entries : List (Entry α)) :
    pictures config moment mint entries
      = Outlet.inTurn (pictured config moment) moment mint entries := by
  induction entries generalizing mint with
  | nil => rfl
  | cons entry rest ih => exact congrArg (pictured config moment mint entry :: ·) (ih _)

theorem length_pictures (config : Config) (moment : Moment) (mint : Mint)
    (entries : List (Entry α)) : (pictures config moment mint entries).length = entries.length := by
  rw [pictures_eq, Outlet.length_inTurn]

theorem names_pictures (config : Config) (moment : Moment) (mint : Mint)
    (entries : List (Entry α)) :
    (pictures config moment mint entries).map MetricRecord.name = entries.map Entry.name := by
  rw [pictures_eq]
  exact Outlet.names_inTurn Entry.name (fun _ _ => rfl) mint entries

theorem mem_pictures {config : Config} {moment : Moment} {mint : Mint} {entries : List (Entry α)}
    {record : MetricRecord α} (hmem : record ∈ pictures config moment mint entries) :
    ∃ entry ∈ entries, ∃ mint, record = pictured config moment mint entry := by
  rw [pictures_eq] at hmem
  exact Outlet.mem_inTurn hmem

theorem reportEntry_queued (o : Outlet) (moment : Moment) (entry : Entry α) :
    ∃ o', reportEntry o moment entry = (true, o') ∧
      Outlet.Queued moment.now [pictured o.config moment o.mint entry] o o' := by
  have hkind : (metricOf o.config entry.name : Metric α (Tree α)).kind ≠ .counter := by
    intro hcounter
    cases hcounter
  obtain ⟨metric, o', hreport, -, hqueued⟩ := Outlet.report_queued hkind o moment
    (windowLength o.config) (breakdown entry)
  refine ⟨o', ?_, hqueued⟩
  rw [metricOf, windowLength] at hreport
  rw [reportEntry, Outlet.metric, hreport]

/-- Every entry is queued, and their number is returned. -/
theorem reportAll_queued (moment : Moment) (entries : List (Entry α)) (o : Outlet) :
    ∃ o', reportAll moment entries o = (entries.length, o') ∧
      Outlet.Queued moment.now (pictures o.config moment o.mint entries) o o' := by
  induction entries generalizing o with
  | nil => exact ⟨o, rfl, .nil moment.now o⟩
  | cons entry rest ih =>
    obtain ⟨o₁, hentry, hqueued⟩ := reportEntry_queued o moment entry
    obtain ⟨o₂, hrest, hothers⟩ := ih o₁
    -- the ids of the others come after that of the first
    have hmint : o₁.mint = (o.mint.next moment).2 := congrArg Mint.mk hqueued.issued
    rw [hqueued.config, hmint] at hothers
    refine ⟨o₂, ?_, hqueued.append hothers⟩
    simp only [reportAll, hentry, hrest, List.length_cons, Nat.add_comm]
    rfl

/-! ## Histories -/

/-- Something that is asked of the segments. -/
inductive Request (α : Type) where
  /-- a duration is recorded -/
  | record (o : Outlet) (name : String) (duration : α) (slot : Nat)
  /-- a duration is recorded, but the call is interrupted after its first stage -/
  | begin (name : String) (duration : α) (slot : Nat)
  /-- a call that is under way goes on to its second stage -/
  | finish (index slot : Nat)
  /-- the window is reported -/
  | report (o : Outlet) (moment : Moment)
  /-- the latest durations are taken -/
  | takeLatest

/-- The segment and the duration that a request is about. A segment without a name is none. -/
def Request.call? : Request α → Option (String × α)
  | .record _ name duration _ | .begin name duration _ =>
    if name.isEmpty then none else some (name, duration)
  | .finish _ _ | .report _ _ | .takeLatest => none

/-- Whether a request is a call for a segment. -/
def Request.isCallOf (name : String) : Request α → Bool
  | .record _ called _ _ | .begin called _ _ => called = name
  | .finish _ _ | .report _ _ | .takeLatest => false

/-- Whether a request is a call that is interrupted. -/
def Request.isBegin : Request α → Bool
  | .begin _ _ _ => true
  | .record _ _ _ _ | .finish _ _ | .report _ _ | .takeLatest => false

/-- A report that was made. -/
structure Report (α : Type) where
  outlet : Outlet
  moment : Moment
  /-- the durations counted since the report before it -/
  timings : List (Timing α)
  /-- the records it queued -/
  records : List (MetricRecord α)
  /-- the number it returned, and the outlet then -/
  outcome : Nat × Outlet

/-- How many samples a record stands for. -/
def samplesOf (record : MetricRecord α) : Int64 :=
  match record.measurement.bind MeasurementRecord.breakdown with
  | some picture => picture.sampleCount
  | none => 0

/-- How many samples of a segment the records of a report stand for. -/
def Report.samples (name : String) (r : Report α) : Int64 :=
  (r.records.filter fun record => record.name == name).foldr
    (fun record sum => samplesOf record + sum) 0

/-- A report queues a metric for each segment counted since the report before it. -/
structure Report.Faithful (r : Report α) : Prop where
  queued : Outlet.Queued r.moment.now r.records r.outlet r.outcome.2
  number : r.outcome.1 = r.records.length
  /-- no segment has two metrics -/
  distinct : (r.records.map MetricRecord.name).Nodup
  /-- the segments that have one are those that were counted -/
  recorded : ∀ name, name ∈ r.records.map MetricRecord.name ↔
    name ≠ "" ∧ ∃ timing ∈ r.timings, timing.name = name
  /-- each metric shows the durations of its segment -/
  shows : ∀ record ∈ r.records, Shows (named record.name r.timings) record

/-- The segments of an agent, and what was asked of them. -/
structure History (α : Type) where
  segments : Segments α := {}
  /-- the durations counted since the last report, oldest first -/
  current : List (Timing α) := []
  /-- the calls that were interrupted, each with whether it has been counted already -/
  underWay : List (Timing α × Bool) := []
  /-- the reports made, oldest first -/
  reports : List (Report α) := []

namespace History

/-- A duration is counted, unless it was before. -/
def countUnless (h : History α) (before : Bool) (timing : Timing α) : History α :=
  if before then h else { h with current := h.current ++ [timing] }

/-- The next request of a run. -/
def next (h : History α) : Request α → History α
  | .record o name duration slot =>
    { h with segments := (h.segments.record o name duration slot).1 }.countUnless name.isEmpty
      { name, duration, slot }
  | .begin name duration slot =>
    let timing : Timing α := { name, duration, slot }
    if name.isEmpty then h
    else
      match h.segments.look name duration slot with
      | .done segments => { h with segments }.countUnless false timing
      | .missed fed segments =>
        { h with segments, underWay := h.underWay ++ [(timing, fed)] }.countUnless (!fed) timing
  | .finish index slot =>
    match h.underWay[index]? with
    | none => h
    | some (timing, fed) =>
      { h with
        segments := h.segments.insert fed timing.name timing.duration slot
        underWay := h.underWay.eraseIdx index }.countUnless fed { timing with slot }
  | .report o moment =>
    let (number, segments, o') := h.segments.report o moment
    { h with
      segments
      current := []
      reports := h.reports ++
        [{ outlet := o, moment, timings := h.current
           records := pictures o.config moment o.mint h.segments.window
           outcome := (number, o') }] }
  | .takeLatest => { h with segments := h.segments.takeLatest.2 }

/-- A run of requests from the start of an agent. -/
def of (requests : List (Request α)) : History α := requests.foldl next {}

/-- The durations that were counted, oldest first. -/
def counted (h : History α) : List (Timing α) :=
  h.reports.flatMap Report.timings ++ h.current

/-- The calls that were counted, and then those that are under way. -/
def calls (h : History α) : List (String × α) :=
  h.counted.map Timing.call ++ h.underWay.map fun call => call.1.call

/-- What holds throughout a run. -/
structure Kept (requests : List (Request α)) (h : History α) : Prop where
  agrees : h.segments.Agrees h.current
  /-- a call that is under way has not been counted -/
  uncounted : ∀ call ∈ h.underWay, call.2 = false
  /-- every call was counted once or is under way -/
  calls : h.calls.Perm (requests.filterMap Request.call?)
  /-- without interruptions the calls are counted in the order in which they are made -/
  ordered : (∀ request ∈ requests, ¬ request.isBegin) →
    h.underWay = [] ∧ h.calls = requests.filterMap Request.call?
  faithful : ∀ r ∈ h.reports, r.Faithful

variable {requests : List (Request α)} {h : History α}

omit [Quantity α] in
theorem name_ne_empty_of_call? {request : Request α} {call : String × α}
    (hcall : request.call? = some call) : call.1 ≠ "" := by
  have hname : ∀ name (duration : α),
      (if name.isEmpty then none else some (name, duration)) = some call → call.1 ≠ "" := by
    intro name duration heq
    by_cases hempty : name.isEmpty
    · rw [if_pos hempty] at heq
      cases heq
    · rw [if_neg hempty] at heq
      cases heq
      exact fun hnil => hempty (String.isEmpty_iff.mpr hnil)
  cases request with
  | record o name duration slot => exact hname name duration hcall
  | begin name duration slot => exact hname name duration hcall
  | finish index slot => cases hcall
  | report o moment => cases hcall
  | takeLatest => cases hcall

/-- Segments without a name are not among what was counted. -/
theorem Kept.name_ne_empty (hk : h.Kept requests) {timing : Timing α}
    (hmem : timing ∈ h.current) : timing.name ≠ "" := by
  have hcounted : timing.call ∈ h.calls :=
    List.mem_append_left _ (List.mem_map_of_mem (List.mem_append_right _ hmem))
  obtain ⟨request, -, hcall⟩ := List.mem_filterMap.mp (hk.calls.mem_iff.mp hcounted)
  exact name_ne_empty_of_call? hcall

/-! ## One request -/

/-- A request that is no call leaves the calls as they are. -/
theorem Kept.unchanged (hk : h.Kept requests) {request : Request α} {s : Segments α}
    (hcall : request.call? = none) (hagrees : s.Agrees h.current) :
    Kept (requests ++ [request]) { h with segments := s } := by
  have hcalls : (requests ++ [request]).filterMap Request.call?
      = requests.filterMap Request.call? := by
    rw [List.filterMap_append, List.filterMap_cons_none hcall, List.filterMap_nil,
      List.append_nil]
  refine ⟨hagrees, hk.uncounted, ?_, fun hwhole => ?_, hk.faithful⟩
  · rw [hcalls]
    exact hk.calls
  · rw [hcalls]
    exact hk.ordered (List.forall_mem_append.mp hwhole).1

/-- A call is counted. -/
theorem Kept.count (hk : h.Kept requests) {request : Request α} {timing : Timing α}
    {s : Segments α} (hcall : request.call? = some timing.call)
    (hagrees : s.Agrees (h.current ++ [timing])) :
    Kept (requests ++ [request])
      { h with segments := s, current := h.current ++ [timing] } := by
  have hcalls : (requests ++ [request]).filterMap Request.call?
      = requests.filterMap Request.call? ++ [timing.call] := by
    rw [List.filterMap_append, List.filterMap_cons_some hcall, List.filterMap_nil]
  have hcounted : History.counted { h with segments := s, current := h.current ++ [timing] }
      = h.counted ++ [timing] := (List.append_assoc ..).symm
  refine ⟨hagrees, hk.uncounted, ?_, fun hwhole => ?_, hk.faithful⟩
  · rw [hcalls, History.calls, hcounted, List.map_append, List.append_assoc]
    exact (List.perm_append_comm.append_left _).trans
      ((List.append_assoc ..).symm ▸ hk.calls.append_right _)
  · obtain ⟨hnone, heq⟩ := hk.ordered (List.forall_mem_append.mp hwhole).1
    refine ⟨hnone, ?_⟩
    rw [hcalls, ← heq, History.calls, hcounted, History.calls, hnone]
    simp

/-- A call is interrupted before it is counted. -/
theorem Kept.interrupt (hk : h.Kept requests) {name : String} {duration : α} {slot : Nat}
    (hname : ¬ name.isEmpty) :
    Kept (requests ++ [.begin name duration slot])
      { h with underWay := h.underWay ++ [(⟨name, duration, slot⟩, false)] } := by
  refine ⟨hk.agrees, fun call hmem => ?_, ?_, fun hwhole => ?_, hk.faithful⟩
  · rcases List.mem_append.mp hmem with hmem | hmem
    · exact hk.uncounted call hmem
    · rw [List.mem_singleton.mp hmem]
  · have hcalls := hk.calls.append_right [(name, duration)]
    simpa [History.calls, History.counted, Request.call?, Timing.call, hname] using hcalls
  · exact absurd rfl ((List.forall_mem_append.mp hwhole).2 _ List.mem_cons_self)

/-- A call that is under way is counted as it goes on. -/
theorem Kept.finish (hk : h.Kept requests) (index slot : Nat) :
    (h.next (.finish index slot)).Kept (requests ++ [.finish index slot]) := by
  rw [next]
  cases hfind : h.underWay[index]? with
  | none =>
    refine hk.unchanged ?_ hk.agrees
    rfl
  | some call =>
    obtain ⟨timing, fed⟩ := call
    obtain rfl : fed = false := hk.uncounted _ (List.mem_of_getElem? hfind)
    obtain ⟨hindex, hget⟩ := List.getElem?_eq_some_iff.mp hfind
    have hcalls : (requests ++ [Request.finish index slot]).filterMap Request.call?
        = requests.filterMap Request.call? := by
      rw [List.filterMap_append]
      exact List.append_nil _
    refine ⟨?_, fun call hmem => ?_, ?_, fun hwhole => ?_, hk.faithful⟩
    · have hadd := hk.agrees.add { timing with slot }
      rw [add_eq] at hadd
      exact hadd
    · exact hk.uncounted call (List.mem_of_mem_eraseIdx hmem)
    · -- the call goes from those under way to those that were counted
      have hmoved := ((List.getElem_cons_eraseIdx_perm hindex).map fun call => call.1.call)
      rw [hget] at hmoved
      rw [hcalls]
      refine List.Perm.trans ?_ hk.calls
      simpa [History.calls, History.counted, countUnless, Timing.call] using
        hmoved.append_left (h.counted.map Timing.call)
    · obtain ⟨hnone, -⟩ := hk.ordered (List.forall_mem_append.mp hwhole).1
      rw [hnone] at hfind
      cases hfind

theorem Kept.record (hk : h.Kept requests) (o : Outlet) (name : String) (duration : α)
    (slot : Nat) :
    (h.next (.record o name duration slot)).Kept (requests ++ [.record o name duration slot]) := by
  rw [next, Segments.record]
  by_cases hname : name.isEmpty
  · simp only [if_pos hname, countUnless]
    refine hk.unchanged ?_ hk.agrees
    exact if_pos hname
  · simp only [if_neg hname, countUnless]
    refine hk.count ?_ (hk.agrees.add ⟨name, duration, slot⟩)
    exact if_neg hname

theorem Kept.begin (hk : h.Kept requests) (name : String) (duration : α) (slot : Nat) :
    (h.next (.begin name duration slot)).Kept (requests ++ [.begin name duration slot]) := by
  rw [next]
  by_cases hname : name.isEmpty
  · rw [if_pos hname]
    refine hk.unchanged ?_ hk.agrees
    exact if_pos hname
  · rw [if_neg hname]
    rcases hk.agrees.look_cases name duration slot with hdone | hmissed
    · -- nothing was missing, so there is no second stage
      rw [hdone]
      refine hk.count ?_ (hk.agrees.add ⟨name, duration, slot⟩)
      exact if_neg hname
    · rw [hmissed]
      exact hk.interrupt hname

/-- The report of a window is faithful. -/
theorem Kept.faithful_report (hk : h.Kept requests) {o o' : Outlet} {moment : Moment}
    (hqueued : Outlet.Queued moment.now
      (pictures o.config moment o.mint h.segments.window) o o') :
    Report.Faithful
      { outlet := o, moment, timings := h.current
        records := pictures o.config moment o.mint h.segments.window
        outcome := (h.segments.window.length, o') } := by
  refine ⟨hqueued, (length_pictures _ _ _ _).symm, ?_, fun name => ?_, fun record hmem => ?_⟩
  · rw [names_pictures]
    exact Sorted.nodup_names hk.agrees.window
  · rw [names_pictures, hk.agrees.mem_names_iff]
    constructor
    · rintro ⟨timing, hmem, rfl⟩
      exact ⟨hk.name_ne_empty hmem, timing, hmem, rfl⟩
    · rintro ⟨-, hrecorded⟩
      exact hrecorded
  · obtain ⟨entry, hentry, mint, rfl⟩ := mem_pictures hmem
    obtain ⟨hne, hobserved⟩ := hk.agrees.eq_observed hentry
    have hshows := shows_pictured o.config moment mint entry.name hne
    rw [← hobserved] at hshows
    exact hshows

/-- What was counted is moved to the report. -/
theorem Kept.report (hk : h.Kept requests) (o : Outlet) (moment : Moment) :
    (h.next (.report o moment)).Kept (requests ++ [.report o moment]) := by
  obtain ⟨o', hreport, hqueued⟩ := reportAll_queued moment h.segments.window o
  have hcalls : (requests ++ [Request.report o moment]).filterMap Request.call?
      = requests.filterMap Request.call? := by
    rw [List.filterMap_append]
    exact List.append_nil _
  have hkept : (h.next (.report o moment)).calls = h.calls := by
    simp [next, History.calls, History.counted]
  refine ⟨hk.agrees.report, hk.uncounted, ?_, fun hwhole => ?_, fun r hmem => ?_⟩
  · rw [hcalls, hkept]
    exact hk.calls
  · rw [hcalls, hkept]
    exact hk.ordered (List.forall_mem_append.mp hwhole).1
  · simp only [next, Segments.report, hreport] at hmem
    rcases List.mem_append.mp hmem with hmem | hmem
    · exact hk.faithful r hmem
    · rw [List.mem_singleton.mp hmem]
      exact hk.faithful_report (hqueued.info _)

theorem Kept.takeLatest (hk : h.Kept requests) :
    (h.next .takeLatest).Kept (requests ++ [.takeLatest]) := by
  refine hk.unchanged ?_ hk.agrees.takeLatest
  rfl

theorem Kept.next (hk : h.Kept requests) (request : Request α) :
    (h.next request).Kept (requests ++ [request]) := by
  cases request with
  | record o name duration slot => exact hk.record o name duration slot
  | begin name duration slot => exact hk.begin name duration slot
  | finish index slot => exact hk.finish index slot
  | report o moment => exact hk.report o moment
  | takeLatest => exact hk.takeLatest

theorem kept_of (requests : List (Request α)) : (of requests).Kept requests := by
  induction requests using List.reverseRecOn with
  | nil =>
    exact ⟨Agrees.start, List.forall_mem_nil _, .nil, fun _ => ⟨rfl, rfl⟩, List.forall_mem_nil _⟩
  | append_singleton requests request ih =>
    rw [of, List.foldl_append]
    exact ih.next request

/-- How many calls for a segment are under way. -/
def pending (h : History α) (name : String) : Nat :=
  h.underWay.countP fun call => call.1.name = name

omit [Quantity α] in
theorem countP_calls (h : History α) (name : String) :
    h.calls.countP (fun call => call.1 = name)
      = (named name (h.reports.flatMap Report.timings)).length
        + (named name h.current).length + h.pending name := by
  rw [calls, counted, List.countP_append, List.countP_map, List.countP_map, List.countP_append,
    List.countP_eq_length_filter, List.countP_eq_length_filter]
  rfl

end History

/-! ## Counting -/

theorem samplesOf_of_shows {timings : List (Timing α)} {record : MetricRecord α}
    (h : Shows timings record) : samplesOf record = Int64.ofNat timings.length := by
  obtain ⟨observation, value, hobservation, -, -, hpicture⟩ := h.observed
  rw [samplesOf, hobservation, Option.bind_some, hpicture]
  rfl

/-- The samples that a report has of a segment are the durations counted since the report before it.
-/
theorem Report.Faithful.samples_eq {r : Report α} (h : r.Faithful) {name : String}
    (hname : name ≠ "") : r.samples name = Int64.ofNat (named name r.timings).length := by
  rw [Report.samples, Sorted.filter_name h.distinct]
  cases hfind : Sorted.find? MetricRecord.name name r.records with
  | none =>
    -- a segment without a metric was not counted
    have hnone : named name r.timings = [] := by
      rw [named, List.filter_eq_nil_iff]
      intro timing hmem htiming
      have hrecorded := (h.recorded name).mpr ⟨hname, timing, hmem, of_decide_eq_true htiming⟩
      rw [← Sorted.isSome_find?_iff, hfind] at hrecorded
      cases hrecorded
    rw [hnone]
    rfl
  | some record =>
    obtain ⟨hmem, rfl⟩ := Sorted.mem_of_find?_eq_some hfind
    rw [← samplesOf_of_shows (h.shows record hmem)]
    exact Int64.add_zero _

theorem sum_samples_eq {reports : List (Report α)} (hfaithful : ∀ r ∈ reports, r.Faithful)
    {name : String} (hname : name ≠ "") :
    reports.foldr (fun r sum => r.samples name + sum) 0
      = Int64.ofNat (named name (reports.flatMap Report.timings)).length := by
  induction reports with
  | nil => rfl
  | cons r rest ih =>
    have hrest : ∀ other ∈ rest, other.Faithful := fun other hmem =>
      hfaithful other (List.mem_cons_of_mem r hmem)
    rw [List.foldr_cons, ih hrest, (hfaithful r List.mem_cons_self).samples_eq hname,
      List.flatMap_cons, named_append, List.length_append, Int64.ofNat_add]

omit [Quantity α] in
theorem countP_call? {name : String} (hname : name ≠ "") (requests : List (Request α)) :
    (requests.filterMap Request.call?).countP (fun call => call.1 = name)
      = requests.countP (Request.isCallOf name) := by
  -- a call without a name is none, but neither is it one for this name
  have hcall : ∀ called (duration : α),
      ((if called.isEmpty then none else some (called, duration)).map
          fun call => decide (call.1 = name)).getD false
        = decide (called = name) := by
    intro called duration
    by_cases hempty : called = ""
    · simp [hempty, hname.symm]
    · simp [hempty]
  rw [List.countP_filterMap]
  refine List.countP_congr fun request _ => ?_
  cases request with
  | record o called duration slot => exact Bool.eq_iff_iff.mp (hcall called duration)
  | begin called duration slot => exact Bool.eq_iff_iff.mp (hcall called duration)
  | finish index slot => rfl
  | report o moment => rfl
  | takeLatest => rfl

end Telemetry.Segments
