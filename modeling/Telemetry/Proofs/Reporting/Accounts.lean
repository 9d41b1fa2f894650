import Telemetry.Proofs.Identity.Minted
import Telemetry.Proofs.Reporting.Process

/-!
# What all process reports come to

The reports of a run, with any readings failing at any of them. What a report shows of the memory
depends on its own readings only (`Report.Faithful`). What it shows of the processor time is the
growth since the last reading before it that succeeded, so that a reading that failed delays what
was used meanwhile and loses nothing of it: where differences are exact, all growths together are
the last reading less the first one (`total_growths`).
-/

namespace Telemetry

/-! ## Sums -/

namespace Quantity

/-- Differences are exact as well. -/
class ExactDifference (α : Type) [Quantity α] : Prop extends Exact α where
  add_sub_cancel : ∀ a b : α, a + b - b = a
  sub_add_cancel : ∀ a b : α, a - b + b = a

instance : ExactDifference Rat where
  add_sub_cancel _ _ := Rat.add_sub_cancel
  sub_add_cancel _ _ := Rat.sub_add_cancel

variable {α : Type} [Quantity α]

/-- What values come to when they are added up in turn. -/
def total (values : List α) : α := values.foldl (· + ·) 0

theorem total_concat (values : List α) (value : α) :
    total (values ++ [value]) = total values + value := by
  rw [total, List.foldl_append, List.foldl_cons, List.foldl_nil, ← total]

/-- A sum that leads from one number to another goes on by the difference to a third. -/
theorem add_sub_add [ExactDifference α] {sum first before : α} (h : sum + first = before)
    (last : α) : sum + (last - before) + first = last := by
  rw [Exact.add_right_comm, h, Exact.add_comm, ExactDifference.sub_add_cancel]

end Quantity

namespace ProcessUsage

variable {α : Type}

/-! ## Reports -/

/-- A report that was made. -/
structure Report (α : Type) where
  occasion : Occasion
  /-- the records it queued -/
  records : List (MetricRecord α)
  /-- the number it returned, and the outlet then -/
  outcome : Nat × Outlet

/-- The values queued under a name. -/
def Report.values (r : Report α) (name : String) : List α :=
  (r.records.filter (·.name = name)).filterMap fun record =>
    record.measurement.map MeasurementRecord.value

/-- The ids under which values were queued. -/
def Report.ids (r : Report α) : List String :=
  r.records.filterMap fun record => record.measurement.map MeasurementRecord.id

variable [Quantity α]

variable (α) in
/-- The report made on an occasion, after others. -/
def reportAfter (o : Outlet) (past : List Occasion) (c : Occasion) : Report α :=
  let (number, _, o') := (after α o past).report c.outlet c.moment c.processors c.readings
  { occasion := c
    records := pictures c.window c.moment c.outlet.mint (observations α o past c)
    outcome := (number, o') }

variable (α) in
/-- The reports made on some occasions, after others. -/
def reportsAfter (o : Outlet) : List Occasion → List Occasion → List (Report α)
  | _, [] => []
  | past, c :: rest => reportAfter α o past c :: reportsAfter o (past ++ [c]) rest

variable (α) in
/-- All reports of a run. -/
def reports (o : Outlet) (run : List Occasion) : List (Report α) := reportsAfter α o [] run

theorem reportsAfter_append (o : Outlet) (past run more : List Occasion) :
    reportsAfter α o past (run ++ more)
      = reportsAfter α o past run ++ reportsAfter α o (past ++ run) more := by
  induction run generalizing past with
  | nil => rw [List.nil_append, List.append_nil, reportsAfter, List.nil_append]
  | cons c rest ih =>
    rw [List.cons_append, reportsAfter, reportsAfter, ih, List.append_assoc]
    rfl

theorem reports_concat (o : Outlet) (run : List Occasion) (c : Occasion) :
    reports α o (run ++ [c]) = reports α o run ++ [reportAfter α o run c] :=
  reportsAfter_append o [] run [c]

theorem occasions_reports (o : Outlet) (run : List Occasion) :
    (reports α o run).map Report.occasion = run := by
  induction run using List.reverseRecOn with
  | nil => rfl
  | append_singleton run c ih => rw [reports_concat, List.map_append, ih]; rfl

theorem length_reports (o : Outlet) (run : List Occasion) :
    (reports α o run).length = run.length := by
  rw [← List.length_map Report.occasion, occasions_reports]

/-- A report says itself when it was made, and the reports before it, what it was made after. -/
theorem eq_reportAfter {o : Outlet} {run : List Occasion} {before later : List (Report α)}
    {r : Report α} (h : reports α o run = before ++ r :: later) :
    r = reportAfter α o (before.map Report.occasion) r.occasion := by
  have hrun : run = before.map Report.occasion ++ r.occasion :: later.map Report.occasion := by
    rw [← occasions_reports (α := α) o run, h, List.map_append, List.map_cons]
  rw [hrun, reports, reportsAfter_append, reportsAfter] at h
  have hlength : (reports α o (before.map Report.occasion)).length = before.length := by
    rw [length_reports, List.length_map]
  obtain ⟨-, hrest⟩ := List.append_inj h hlength
  exact (List.cons.inj hrest).1.symm

/-! ## What a report shows -/

omit [Quantity α] in
theorem filter_seen (m : Metric α (Tree α)) (value : Option α) (name : String) :
    ((seen m value).filter (·.1.name = name)).map Prod.snd
      = if m.name = name then value.toList else [] := by
  cases value <;> by_cases hname : m.name = name <;> simp [seen, hname]

omit [Quantity α] in
/-- The values queued under a name are those observed of the metric with this name. -/
theorem values_pictures (duration : UInt64) (moment : Moment) (mint : Mint)
    (observed : List (Observation α)) (name : String) :
    ((pictures duration moment mint observed).filter (·.name = name)).filterMap
        (fun record => record.measurement.map MeasurementRecord.value)
      = (observed.filter (·.1.name = name)).map Prod.snd := by
  induction observed generalizing mint with
  | nil => rfl
  | cons observation rest ih =>
    have hpictures : pictures duration moment mint (observation :: rest)
        = observation.1.plain mint moment duration observation.2
          :: pictures duration moment (mint.next moment).2 rest := rfl
    have hplain : (observation.1.plain mint moment duration observation.2).name
        = observation.1.name := rfl
    rw [hpictures, List.filter_cons, List.filter_cons, hplain]
    by_cases hname : observation.1.name = name
    · rw [if_pos (by simpa using hname), if_pos (by simpa using hname), List.map_cons, ← ih]
      rfl
    · rw [if_neg (by simpa using hname), if_neg (by simpa using hname), ih]

omit [Quantity α] in
/-- The ids are those that the mint hands out next. -/
theorem ids_pictures (duration : UInt64) (moment : Moment) (mint : Mint)
    (observed : List (Observation α)) :
    (pictures duration moment mint observed).filterMap
        (fun record => record.measurement.map MeasurementRecord.id)
      = (mint.ids (List.replicate observed.length moment)).map HashId.text := by
  induction observed generalizing mint with
  | nil => rfl
  | cons observation rest ih =>
    rw [List.length_cons, List.replicate_succ, Mint.ids, List.map_cons, ← ih]
    rfl

/-- What a report shows of each metric. -/
theorem values_reportAfter (o : Outlet) (past : List Occasion) (c : Occasion) (name : String) :
    (reportAfter α o past c).values name
      = (if "CPU time" = name then (growth past c).toList else [])
        ++ (if "CPU usage" = name then (usage past c).toList else [])
        ++ (if "Max RSS" = name then (kilobytes c.readings.maxResident).toList else [])
        ++ (if "Current RSS" = name then (kilobytes c.readings.currentResident).toList else [])
        ++ (if "VM Size" = name then (kilobytes c.readings.virtualSize).toList else []) := by
  have hvalues : (reportAfter α o past c).values name
      = ((observations α o past c).filter (·.1.name = name)).map Prod.snd :=
    values_pictures c.window c.moment c.outlet.mint (observations α o past c) name
  rw [hvalues, observations]
  simp only [List.filter_append, List.map_append, filter_seen]
  rfl

theorem values_cpuTime (o : Outlet) (past : List Occasion) (c : Occasion) :
    (reportAfter α o past c).values "CPU time" = (growth past c).toList := by
  rw [values_reportAfter]
  simp

/-- What a report shows of the memory, and how it is counted. -/
structure Report.Faithful (r : Report α) : Prop where
  queued : Outlet.Queued r.occasion.moment.now r.records r.occasion.outlet r.outcome.2
  number : r.outcome.1 = r.records.length
  /-- each record has a value, under an id minted for it -/
  measured : ∀ record ∈ r.records, record.measurement.isSome
  minted : r.ids
    = (r.occasion.outlet.mint.ids (List.replicate r.records.length r.occasion.moment)).map
        HashId.text
  maxResident : r.values "Max RSS" = (kilobytes r.occasion.readings.maxResident).toList
  currentResident : r.values "Current RSS" = (kilobytes r.occasion.readings.currentResident).toList
  virtualSize : r.values "VM Size" = (kilobytes r.occasion.readings.virtualSize).toList

theorem faithful_reportAfter (o : Outlet) (past : List Occasion) (c : Occasion) :
    (reportAfter α o past c).Faithful := by
  obtain ⟨p', o', hreport, hqueued⟩ := report_queued α o past c
  have hoccasion : (reportAfter α o past c).occasion = c := rfl
  have hrecords : (reportAfter α o past c).records
      = pictures c.window c.moment c.outlet.mint (observations α o past c) := rfl
  have houtcome : (reportAfter α o past c).outcome = ((observations α o past c).length, o') := by
    rw [reportAfter, hreport]
  have hlength : (reportAfter α o past c).records.length = (observations α o past c).length :=
    Outlet.length_inTurn _ _
  refine ⟨?_, ?_, fun record hmem => ?_, ?_, ?_, ?_, ?_⟩
  · rw [houtcome]
    exact hqueued
  · rw [houtcome, hlength]
  · obtain ⟨observation, -, mint, rfl⟩ := Outlet.mem_inTurn hmem
    rfl
  · rw [hlength]
    exact ids_pictures c.window c.moment c.outlet.mint (observations α o past c)
  · rw [values_reportAfter]
    simp [hoccasion]
  · rw [values_reportAfter]
    simp [hoccasion]
  · rw [values_reportAfter]
    simp [hoccasion]

/-! ## What all reports show -/

/-- The processor times that could be read, in turn. -/
def used (run : List Occasion) : List Duration := run.filterMap Occasion.used?

theorem used_concat (run : List Occasion) (c : Occasion) :
    used (run ++ [c]) = used run ++ c.used?.toList := by
  rw [used, used, List.filterMap_append]
  cases hused : c.used? <;> simp [hused]

theorem lastUsed_eq (run : List Occasion) : lastUsed run = (used run).getLast? := by
  induction run using List.reverseRecOn with
  | nil => rfl
  | append_singleton run c ih =>
    rw [lastUsed_concat, ih, used_concat, List.getLast?_append]
    cases c.used? <;> rfl

section Growth

variable {past : List Occasion} {c : Occasion} {u before : Duration}

theorem growth_of_unread (h : c.used? = none) : (growth past c : Option α) = none := by
  rw [growth, h]
  rfl

theorem growth_of_first (h : used past = []) : (growth past c : Option α) = none := by
  have hlast : lastUsed past = none := by
    rw [lastUsed_eq, h]
    rfl
  rw [growth, hlast]
  cases c.used? <;> rfl

theorem growth_of_used (hused : c.used? = some u) (hbefore : (used past).getLast? = some before) :
    (growth past c : Option α) = some (Quantity.ofInt u.nanos - Quantity.ofInt before.nanos) := by
  rw [growth, lastUsed_eq, hused, hbefore]
  rfl

end Growth

/-- The values queued for the processor time. -/
def growths (reports : List (Report α)) : List α := reports.flatMap (·.values "CPU time")

theorem growths_concat (o : Outlet) (run : List Occasion) (c : Occasion) :
    growths (reports α o (run ++ [c])) = growths (reports α o run) ++ (growth run c).toList := by
  rw [growths, reports_concat, List.flatMap_append, ← growths, List.flatMap_singleton,
    values_cpuTime]

/-- As long as no reading succeeds, nothing is queued for the processor time. -/
theorem growths_eq_nil {run : List Occasion} (h : used run = []) (o : Outlet) :
    growths (reports α o run) = [] := by
  induction run using List.reverseRecOn with
  | nil => rfl
  | append_singleton run c ih =>
    rw [used_concat] at h
    obtain ⟨hrun, -⟩ := List.append_eq_nil_iff.mp h
    rw [growths_concat, ih hrun, growth_of_first hrun]
    rfl

/-- The growths lead from the first reading to the last one. -/
theorem total_growths [Quantity.ExactDifference α] (o : Outlet) (run : List Occasion)
    {first last : Duration} (hfirst : (used run).head? = some first)
    (hlast : (used run).getLast? = some last) :
    Quantity.total (growths (reports α o run)) + Quantity.ofInt first.nanos
      = Quantity.ofInt last.nanos := by
  induction run using List.reverseRecOn generalizing last with
  | nil => cases hfirst
  | append_singleton run c ih =>
    rw [growths_concat]
    rw [used_concat] at hfirst hlast
    cases hused : c.used? with
    | none =>
      rw [hused, Option.toList_none, List.append_nil] at hfirst hlast
      rw [growth_of_unread hused, Option.toList_none, List.append_nil]
      exact ih hfirst hlast
    | some u =>
      rw [hused, Option.toList_some] at hfirst hlast
      obtain rfl : u = last := Option.some.inj (List.getLast?_concat.symm.trans hlast)
      cases hbefore : (used run).getLast? with
      | none =>
        -- the first reading is the last one
        have hnil : used run = [] := List.getLast?_eq_none_iff.mp hbefore
        rw [hnil] at hfirst
        obtain rfl : u = first := Option.some.inj hfirst
        rw [growths_eq_nil hnil, growth_of_first hnil]
        exact Quantity.Exact.zero_add _
      | some before =>
        have hhead : (used run).head? = some first := by
          cases hrun : used run with
          | nil =>
            rw [hrun] at hbefore
            cases hbefore
          | cons x rest =>
            rw [hrun] at hfirst
            exact hfirst
        rw [growth_of_used hused hbefore, Option.toList_some, Quantity.total_concat]
        exact Quantity.add_sub_add (ih hhead hbefore) _

/-- The reports of a run, and what they come to. -/
structure Accounted (o : Outlet) (run : List Occasion) (reports : List (Report α)) : Prop where
  /-- every report was made -/
  made : reports.map Report.occasion = run
  /-- each has queued what could be read of the memory, and returned the number of its records -/
  faithful : ∀ r ∈ reports, r.Faithful
  /-- a reading of the processor time that fails, and the first one that succeeds, queue nothing
  for it -/
  silent : ∀ before r later, reports = before ++ r :: later →
    r.occasion.used? = none ∨ used (before.map Report.occasion) = [] → r.values "CPU time" = []
  /-- every other reading queues one value, the growth since the last reading that succeeded -/
  single : ∀ before r later, reports = before ++ r :: later →
    ∀ u last, r.occasion.used? = some u → (used (before.map Report.occasion)).getLast? = some last →
      r.values "CPU time" = [Quantity.ofInt u.nanos - Quantity.ofInt last.nanos]
  /-- where numbers are exact, the values come to the last reading less the first -/
  total : [Quantity.ExactDifference α] → ∀ first last, (used run).head? = some first →
    (used run).getLast? = some last →
    Quantity.total (growths reports) = Quantity.ofInt last.nanos - Quantity.ofInt first.nanos

end ProcessUsage

end Telemetry
