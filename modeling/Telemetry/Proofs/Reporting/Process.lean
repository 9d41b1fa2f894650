import Mathlib.Data.List.Induction
import Telemetry.Reporting.ProcessUsage
import Telemetry.Proofs.Quantity.Exact
import Telemetry.Proofs.Reporting.Queued

/-!
# What process reports say

What a process report queues depends on two things that are remembered from the reports before it:
the last processor time that could be read, and when the last report was made. `Kept` says so after
any number of reports, whichever readings failed, and `report_queued` says what is queued then: one
record for each of `observations`.

The two do not always belong to the same report. A report whose reading of the processor time failed
is remembered as the last one all the same, while the growth is counted from an earlier one. So
usage is the share of the processors since the last successful reading if that was at the last
report (`usage_covers`), and then it is at most one hundred percent for a process that does not use
more than there is (`usage_le_hundred`). After a failed reading a report may well show twice what all
processors could have given (`usage_outruns`).
-/

namespace Telemetry

variable {α : Type}

/-! ## Metrics without a breakdown -/

namespace Metric

/-- The record of a metric of which a value is observed by a timer, without a breakdown. -/
def plain (m : Metric α (Tree α)) (mint : Mint) (moment : Moment) (duration : UInt64) (value : α) :
    MetricRecord α :=
  { id := m.id.text, kind := m.kind, category := m.category, name := m.name, unit := m.unit
    measurement := some
      { id := (mint.next moment).1.text, trigger := .timer, value, duration, breakdown := none
        timestamp := moment.now.seconds } }

/-- A metric without what was observed of it and what it remembers. -/
def fresh (m : Metric α (Tree α)) : Metric α (Tree α) :=
  { m with measurement := none, lastReading := none }

/-- A counter holds no measurement before its first reading. -/
def Unread (m : Metric α (Tree α)) : Prop :=
  m.kind = .counter → m.lastReading = none → m.measurement = none

/-- What a metric remembers after a reading. -/
def remembered (m : Metric α (Tree α)) (reading : α) : Option α :=
  match m.kind with
  | .counter => some reading
  | .state | .profile | .trace => m.lastReading

variable {m : Metric α (Tree α)}

theorem remembered_of_counter (h : m.kind = .counter) (reading : α) :
    m.remembered reading = some reading := by
  rw [remembered, h]

theorem unread_of_state (h : m.kind = .state) : m.Unread := by
  intro hkind
  rw [h] at hkind
  cases hkind

variable [Quantity α] {reading value : α}

theorem observed?_of_counter (h : m.kind = .counter) (reading : α) :
    m.observed? reading = m.lastReading.map (reading - ·) := by
  rw [observed?, h]

theorem observed?_of_state (h : m.kind = .state) (reading : α) :
    m.observed? reading = some reading := by
  rw [observed?, h]

theorem observed?_eq_none_iff :
    m.observed? reading = none ↔ m.kind = .counter ∧ m.lastReading = none := by
  rw [observed?]
  cases hkind : m.kind <;> simp

/-- If there is nothing to be observed, the reading is remembered. -/
theorem observe_of_none (h : m.observed? reading = none) (mint : Mint) (moment : Moment)
    (duration : UInt64) :
    m.observe mint moment .timer reading duration none
      = (none, { m with lastReading := some reading }, mint) := by
  obtain ⟨hkind, -⟩ := observed?_eq_none_iff.mp h
  rw [observe, h, hkind]

theorem observe_of_some (h : m.observed? reading = some value) (mint : Mint) (moment : Moment)
    (duration : UInt64) :
    m.observe mint moment .timer reading duration none
      = (some value,
          { m with
            measurement := some
              { id := (mint.next moment).1, trigger := .timer, value, duration, breakdown := none
                timestamp := moment.now }
            lastReading := m.remembered reading },
          (mint.next moment).2) := by
  rw [observe, h]
  obtain ⟨id, kind, category, name, unit, measurement, last⟩ := m
  cases kind <;> rfl

end Metric

namespace ProcessUsage

/-- Something observed of a metric. -/
abbrev Observation (α : Type) := Metric α (Tree α) × α

variable [Quantity α] {moment : Moment} {duration : UInt64}

/-- What is observed of a metric, if anything is. -/
def seen (m : Metric α (Tree α)) (value : Option α) : List (Observation α) :=
  value.toList.map (m, ·)

omit [Quantity α] in
theorem mem_seen {m m' : Metric α (Tree α)} {value : α} {value' : Option α} :
    (m, value) ∈ seen m' value' ↔ m = m' ∧ value' = some value := by
  rw [seen, List.mem_map]
  constructor
  · rintro ⟨other, hother, heq⟩
    cases heq
    exact ⟨rfl, Option.mem_toList.mp hother⟩
  · rintro ⟨rfl, rfl⟩
    exact ⟨value, Option.mem_toList.mpr rfl, rfl⟩

/-- The records of observations that are made in turn. -/
def pictures (duration : UInt64) (moment : Moment) : Mint → List (Observation α) →
    List (MetricRecord α) :=
  Outlet.inTurn (fun mint seen => seen.1.plain mint moment duration seen.2) moment

/-- What a part of a report does: the records of some observations are queued and counted. -/
structure Yields (moment : Moment) (duration : UInt64) (o : Outlet) (seen : List (Observation α))
    (count : Nat) (o' : Outlet) : Prop where
  count_eq : count = seen.length
  queued : Outlet.Queued moment.now (pictures duration moment o.mint seen) o o'

namespace Yields

variable {o o' o'' : Outlet} {seen more : List (Observation α)} {n k : Nat}

theorem nil (o : Outlet) : Yields moment duration o ([] : List (Observation α)) 0 o :=
  ⟨rfl, .nil moment.now o⟩

/-- A failure is only written down. -/
theorem failed (o : Outlet) (text : String) :
    Yields moment duration o ([] : List (Observation α)) 0 (o.error text) :=
  ⟨rfl, (Outlet.Queued.nil moment.now o).error text⟩

theorem append (h : Yields moment duration o seen n o')
    (h' : Yields moment duration o' more k o'') :
    Yields moment duration o (seen ++ more) (n + k) o'' where
  count_eq := by rw [h.count_eq, h'.count_eq, List.length_append]
  queued := Outlet.Queued.inTurn_append h.queued h'.queued

end Yields

/-! ## The parts of a report -/

/-- What comes of a reading: if there is something to be observed, it is queued. -/
theorem observe_yields {m : Metric α (Tree α)} (hunread : m.Unread) (o : Outlet)
    (moment : Moment) (duration : UInt64) (reading : α) :
    ∃ count m' o',
      observe o moment m duration reading = (m.observed? reading, count, m', o') ∧
      m'.fresh = m.fresh ∧ m'.lastReading = m.remembered reading ∧ m'.Unread ∧
      Yields moment duration o (seen m.fresh (m.observed? reading)) count o' := by
  cases hobserved : m.observed? reading with
  | none =>
    obtain ⟨hkind, hlast⟩ := Metric.observed?_eq_none_iff.mp hobserved
    have hmeasurement := hunread hkind hlast
    refine ⟨0, { m with lastReading := some reading }, o, ?_, rfl, ?_, ?_, .nil o⟩
    · rw [observe, Metric.observe_of_none hobserved]
      simp [Outlet.emit, hmeasurement]
    · rw [Metric.remembered_of_counter hkind]
    · exact fun _ _ => hmeasurement
  | some value =>
    have hremembered : m.kind = .counter → m.remembered reading ≠ none := fun hkind hnone => by
      rw [Metric.remembered_of_counter hkind] at hnone
      cases hnone
    rw [observe, Metric.observe_of_some hobserved]
    exact ⟨_, _, _, rfl, rfl, rfl, fun hkind hnone => absurd hnone (hremembered hkind), rfl,
      ⟨rfl, rfl, rfl, rfl, rfl⟩⟩

/-- A number of kilobytes, if it could be read. -/
def kilobytes (reading : Reading UInt64) : Option α :=
  reading.toOption.map fun kilobytes => Quantity.ofInt kilobytes.toNat

theorem reportMemory_yields {m : Metric α (Tree α)} (hkind : m.kind = .state) (o : Outlet)
    (moment : Moment) (duration : UInt64) (reading : Reading UInt64) :
    ∃ count m' o', reportMemory o moment m duration reading = (count, m', o') ∧
      m'.fresh = m.fresh ∧
      Yields moment duration o (seen m.fresh (kilobytes reading)) count o' := by
  cases reading with
  | error reason => exact ⟨0, m, _, rfl, rfl, .failed o _⟩
  | ok count =>
    obtain ⟨count', m', o', hobserve, hfresh, -, -, hyields⟩ :=
      observe_yields (Metric.unread_of_state hkind) o moment duration (Quantity.ofInt count.toNat)
    rw [Metric.observed?_of_state hkind] at hobserve hyields
    refine ⟨count', m', o', ?_, hfresh, hyields⟩
    rw [reportMemory, hobserve]

/-- The growth from the last reading of the processor time to one that could be made. -/
def grown (last : Option α) (used : Option Duration) : Option α :=
  used.bind fun used => last.map (Quantity.ofInt used.nanos - ·)

/-- A growth as a share of what all processors could have given in the time since the last report,
if that is anything. -/
def share (growth : Option α) (elapsed : Option Duration) (processors : Nat) : Option α :=
  growth.bind fun growth => elapsed.bind fun elapsed =>
    let capacity : α := capacity elapsed processors
    if Quantity.isPositive capacity then some (growth / capacity * Quantity.hundred) else none

/-- After the reading of the processor time, usage is observed if there is any. -/
theorem reportCpu_ok (p : ProcessUsage α) {o o' : Outlet} {used : Duration} {growth : Option α}
    {count : Nat} {cpuTime : Metric α (Tree α)}
    (h : observe o moment p.cpuTime duration (Quantity.ofInt used.nanos)
      = (growth, count, cpuTime, o')) (processors : Nat) (elapsed : Option Duration) :
    p.reportCpu o moment processors duration elapsed (.ok used)
      = match share growth elapsed processors with
        | none => (count, { p with cpuTime }, o')
        | some usage =>
          let (_, more, cpuUsage, o'') := observe o' moment p.cpuUsage duration usage
          (count + more, { p with cpuTime, cpuUsage }, o'') := by
  rw [reportCpu, h]
  cases growth with
  | none => rfl
  | some growth =>
    cases elapsed with
    | none => rfl
    | some elapsed =>
      simp only [share, Option.bind_some]
      by_cases hpositive : Quantity.isPositive (capacity elapsed processors : α)
      · rw [if_pos hpositive, if_pos hpositive]
      · rw [if_neg hpositive, if_neg hpositive]

theorem reportCpu_yields {p : ProcessUsage α} (hcounter : p.cpuTime.kind = .counter)
    (hunread : p.cpuTime.Unread) (hstate : p.cpuUsage.kind = .state) (o : Outlet)
    (moment : Moment) (processors : Nat) (duration : UInt64) (elapsed : Option Duration)
    (reading : Reading Duration) :
    let growth := grown p.cpuTime.lastReading reading.toOption
    ∃ count cpuTime cpuUsage o',
      p.reportCpu o moment processors duration elapsed reading
        = (count, { p with cpuTime, cpuUsage }, o') ∧
      cpuTime.fresh = p.cpuTime.fresh ∧
      cpuTime.lastReading
        = (reading.toOption.map fun used => Quantity.ofInt used.nanos).or p.cpuTime.lastReading ∧
      cpuTime.Unread ∧ cpuUsage.fresh = p.cpuUsage.fresh ∧
      Yields moment duration o
        (seen p.cpuTime.fresh growth ++ seen p.cpuUsage.fresh (share growth elapsed processors))
        count o' := by
  intro growth
  cases reading with
  | error reason => exact ⟨0, p.cpuTime, p.cpuUsage, _, rfl, rfl, rfl, hunread, rfl, .failed o _⟩
  | ok used =>
    obtain ⟨count, m', o', hobserve, hfresh, hlast, hunread', hyields⟩ :=
      observe_yields hunread o moment duration (Quantity.ofInt used.nanos)
    have hgrowth : p.cpuTime.observed? (Quantity.ofInt used.nanos) = growth :=
      Metric.observed?_of_counter hcounter _
    rw [Metric.remembered_of_counter hcounter] at hlast
    rw [hgrowth] at hobserve hyields
    rw [reportCpu_ok p hobserve]
    cases share growth elapsed processors with
    | none =>
      exact ⟨count, m', p.cpuUsage, o', rfl, hfresh, hlast, hunread', rfl, hyields.append (.nil o')⟩
    | some usage =>
      obtain ⟨more, u', o'', hmore, hfresh', -, -, hyields'⟩ :=
        observe_yields (Metric.unread_of_state hstate) o' moment duration usage
      rw [Metric.observed?_of_state hstate] at hmore hyields'
      refine ⟨count + more, m', u', o'', ?_, hfresh, hlast, hunread', hfresh',
        hyields.append hyields'⟩
      simp only [hmore]

/-! ## Reports one after the other -/

/-- What one report is given. -/
structure Occasion where
  outlet : Outlet
  moment : Moment
  processors : Nat
  readings : ProcessReadings

namespace Occasion

/-- The processor time that was read, if it could be. -/
def used? (c : Occasion) : Option Duration := c.readings.cpuTime.toOption

/-- The length of the window that is reported, in seconds. -/
def window (c : Occasion) : UInt64 :=
  UInt64.ofNat c.outlet.config.timings.processInterval.toSeconds

end Occasion

/-- What the metrics have become by a report. -/
def next (p : ProcessUsage α) (c : Occasion) : ProcessUsage α :=
  (p.report c.outlet c.moment c.processors c.readings).2.1

variable (α) in
/-- The metrics made for an outlet after some reports. -/
def after (o : Outlet) (past : List Occasion) : ProcessUsage α := past.foldl next (create o)

/-- The last report at which the processor time could be read. -/
def lastRead (past : List Occasion) : Option Occasion :=
  (past.filter (·.used?.isSome)).getLast?

/-- The last processor time that could be read. -/
def lastUsed (past : List Occasion) : Option Duration := (lastRead past).bind Occasion.used?

/-- When the last report was made. -/
def lastReported (past : List Occasion) : Option Instant :=
  past.getLast?.map (·.readings.now)

/-- The growth of the processor time since it was last read. -/
def growth (past : List Occasion) (c : Occasion) : Option α :=
  grown ((lastUsed past).map fun used => Quantity.ofInt used.nanos) c.used?

/-- That growth as a share of what all processors could have given since the last report. -/
def usage (past : List Occasion) (c : Occasion) : Option α :=
  share (growth past c) ((lastReported past).map c.readings.now.since) c.processors

variable (α) in
/-- What is observed at a report, after others. -/
def observations (o : Outlet) (past : List Occasion) (c : Occasion) : List (Observation α) :=
  let m : ProcessUsage α := create o
  seen m.cpuTime (growth past c) ++ seen m.cpuUsage (usage past c)
    ++ seen m.maxResident (kilobytes c.readings.maxResident)
    ++ seen m.currentResident (kilobytes c.readings.currentResident)
    ++ seen m.virtualSize (kilobytes c.readings.virtualSize)

theorem lastRead_concat (past : List Occasion) (c : Occasion) :
    lastRead (past ++ [c]) = if c.used?.isSome then some c else lastRead past := by
  rw [lastRead, List.filter_append, List.getLast?_append, List.filter_cons, List.filter_nil,
    lastRead]
  cases c.used?.isSome <;> rfl

theorem lastUsed_concat (past : List Occasion) (c : Occasion) :
    lastUsed (past ++ [c]) = c.used?.or (lastUsed past) := by
  rw [lastUsed, lastRead_concat, lastUsed]
  cases hused : c.used? with
  | none => rfl
  | some used => exact hused

/-- The metrics after some reports are what they were at first, apart from what was observed, and
what they remember of these reports. -/
structure Kept (o : Outlet) (past : List Occasion) (p : ProcessUsage α) : Prop where
  cpuTime : p.cpuTime.fresh = (create o).cpuTime
  unread : p.cpuTime.Unread
  lastReading : p.cpuTime.lastReading = (lastUsed past).map fun used => Quantity.ofInt used.nanos
  cpuUsage : p.cpuUsage.fresh = (create o).cpuUsage
  maxResident : p.maxResident.fresh = (create o).maxResident
  currentResident : p.currentResident.fresh = (create o).currentResident
  virtualSize : p.virtualSize.fresh = (create o).virtualSize
  lastReport : p.lastReport = lastReported past

namespace Kept

variable {o : Outlet} {past : List Occasion} {p : ProcessUsage α}

theorem create (o : Outlet) : Kept o [] (create o : ProcessUsage α) where
  cpuTime := rfl
  unread := fun _ _ => rfl
  lastReading := rfl
  cpuUsage := rfl
  maxResident := rfl
  currentResident := rfl
  virtualSize := rfl
  lastReport := rfl

/-- A report queues what is observed, and remembers what it has to. -/
theorem report (h : Kept o past p) (c : Occasion) :
    ∃ count p' o', p.report c.outlet c.moment c.processors c.readings = (count, p', o') ∧
      Kept o (past ++ [c]) p' ∧
      Yields c.moment c.window c.outlet (observations α o past c) count o' := by
  have hcpuTimeKind : p.cpuTime.kind = .counter := congrArg Metric.kind h.cpuTime
  have hcpuUsageKind : p.cpuUsage.kind = .state := congrArg Metric.kind h.cpuUsage
  have hmaxKind : p.maxResident.kind = .state := congrArg Metric.kind h.maxResident
  have hcurrentKind : p.currentResident.kind = .state := congrArg Metric.kind h.currentResident
  have hvirtualKind : p.virtualSize.kind = .state := congrArg Metric.kind h.virtualSize
  obtain ⟨cpu, cpuTime, cpuUsage, o₁, hcpu, hcpuTime, hlast, hunread, hcpuUsage, hyields⟩ :=
    reportCpu_yields (p := { p with lastReport := some c.readings.now }) hcpuTimeKind h.unread
      hcpuUsageKind c.outlet c.moment c.processors c.window
      (p.lastReport.map c.readings.now.since) c.readings.cpuTime
  obtain ⟨first, maxResident, o₂, hfirst, hmax, hyields₁⟩ :=
    reportMemory_yields hmaxKind o₁ c.moment c.window c.readings.maxResident
  obtain ⟨second, currentResident, o₃, hsecond, hcurrent, hyields₂⟩ :=
    reportMemory_yields hcurrentKind o₂ c.moment c.window c.readings.currentResident
  obtain ⟨third, virtualSize, o₄, hthird, hvirtual, hyields₃⟩ :=
    reportMemory_yields hvirtualKind o₃ c.moment c.window c.readings.virtualSize
  have hreport : p.report c.outlet c.moment c.processors c.readings
      = (cpu + first + second + third,
          { p with
            cpuTime, cpuUsage, maxResident, currentResident, virtualSize
            lastReport := some c.readings.now },
          o₄) := by
    rw [Occasion.window] at hcpu hfirst hsecond hthird
    simp only [ProcessUsage.report, hcpu, hfirst, hsecond, hthird]
  refine ⟨_, _, _, hreport, ?_, ?_⟩
  · refine ⟨hcpuTime.trans h.cpuTime, hunread, ?_, hcpuUsage.trans h.cpuUsage,
      hmax.trans h.maxResident, hcurrent.trans h.currentResident, hvirtual.trans h.virtualSize, ?_⟩
    · rw [hlast, h.lastReading, lastUsed_concat, Option.map_or, Occasion.used?]
    · rw [lastReported, List.getLast?_concat]
      rfl
  · have hall := ((hyields.append hyields₁).append hyields₂).append hyields₃
    simp only [h.cpuTime, h.cpuUsage, h.maxResident, h.currentResident, h.virtualSize,
      h.lastReading, h.lastReport] at hall
    exact hall

end Kept

theorem kept_after (o : Outlet) (past : List Occasion) : Kept o past (after α o past) := by
  induction past using List.reverseRecOn with
  | nil => exact .create o
  | append_singleton past c ih =>
    obtain ⟨count, p', o', hreport, hk, -⟩ := ih.report c
    have hnext : (after α o past).next c = p' := by rw [next, hreport]
    rw [after, List.foldl_append, ← after, List.foldl_cons, List.foldl_nil, hnext]
    exact hk

variable (α) in
/-- After any reports, the next one queues a record for each of its observations and returns their
number. -/
theorem report_queued (o : Outlet) (past : List Occasion) (c : Occasion) :
    ∃ p' o', (after α o past).report c.outlet c.moment c.processors c.readings
        = ((observations α o past c).length, p', o') ∧
      Outlet.Queued c.moment.now
        (pictures c.window c.moment c.outlet.mint (observations α o past c))
        c.outlet o' := by
  have hk : Kept o past (after α o past) := kept_after o past
  obtain ⟨count, p', o', hreport, -, hyields⟩ := hk.report c
  rw [hyields.count_eq] at hreport
  exact ⟨p', o', hreport, hyields.queued⟩

/-! ## Usage -/

theorem usage_eq_some_iff {past : List Occasion} {c : Occasion} {value : α} :
    usage past c = some value ↔
      ∃ used before reported, c.used? = some used ∧ lastUsed past = some before ∧
        lastReported past = some reported ∧
        Quantity.isPositive (capacity (c.readings.now.since reported) c.processors : α) ∧
        (Quantity.ofInt used.nanos - Quantity.ofInt before.nanos)
          / capacity (c.readings.now.since reported) c.processors * Quantity.hundred = value := by
  simp only [usage, share, growth, grown, Option.bind_eq_some_iff, Option.map_eq_some_iff,
    Option.ite_none_right_eq_some, Option.some_inj]
  constructor
  · rintro ⟨_, ⟨used, hused, _, ⟨before, hbefore, rfl⟩, rfl⟩, _, ⟨reported, hreported, rfl⟩,
      hpositive, hvalue⟩
    exact ⟨used, before, reported, hused, hbefore, hreported, hpositive, hvalue⟩
  · rintro ⟨used, before, reported, hused, hbefore, hreported, hpositive, hvalue⟩
    exact ⟨_, ⟨used, hused, _, ⟨before, hbefore, rfl⟩, rfl⟩, _, ⟨reported, hreported, rfl⟩,
      hpositive, hvalue⟩

/-- The growth of the processor time as a share of what all processors could have given since it was
last read. -/
def fairUsage (past : List Occasion) (c : Occasion) : Option α :=
  share (growth past c) ((lastRead past).map fun last => c.readings.now.since last.readings.now)
    c.processors

/-- If the processor time could be read at the last report, usage is the share since then. -/
theorem usage_eq_fairUsage {past : List Occasion} {last : Occasion}
    (hlast : past.getLast? = some last) (hread : last.used?.isSome) (c : Occasion) :
    (usage past c : Option α) = fairUsage past c := by
  have hlastRead : lastRead past = some last := by
    obtain ⟨earlier, rfl⟩ := List.getLast?_eq_some_iff.mp hlast
    rw [lastRead_concat, if_pos hread]
  rw [usage, fairUsage, lastReported, hlast, hlastRead]
  rfl

/-- What is queued under the name of the usage is the usage. -/
theorem measured_usage {o : Outlet} {past : List Occasion} {c : Occasion} {mint : Mint}
    {record : MetricRecord α}
    (hmem : record ∈ pictures c.window c.moment mint (observations α o past c))
    (hname : record.name = "CPU usage") :
    record.measurement.map MeasurementRecord.value = usage past c := by
  obtain ⟨⟨m, value⟩, hseen, mint', rfl⟩ := Outlet.mem_inTurn hmem
  have hname : m.name = "CPU usage" := hname
  simp only [observations, List.mem_append, mem_seen] at hseen
  -- all metrics have other names
  rcases hseen with (((⟨rfl, -⟩ | ⟨-, husage⟩) | ⟨rfl, -⟩) | ⟨rfl, -⟩) | ⟨rfl, -⟩
  · exact absurd (show "CPU time" = "CPU usage" from hname) (by decide)
  · exact husage.symm
  · exact absurd (show "Max RSS" = "CPU usage" from hname) (by decide)
  · exact absurd (show "Current RSS" = "CPU usage" from hname) (by decide)
  · exact absurd (show "VM Size" = "CPU usage" from hname) (by decide)

/-- If there is a usage, it is queued. -/
theorem exists_measured_usage {past : List Occasion} {c : Occasion} {value : α}
    (husage : usage past c = some value) (o : Outlet) (mint : Mint) :
    ∃ record ∈ pictures c.window c.moment mint (observations α o past c),
      record.name = "CPU usage" ∧ record.measurement.map MeasurementRecord.value = some value := by
  have hseen : ((create o).cpuUsage, value) ∈ observations α o past c := by
    simp only [observations, List.mem_append, mem_seen]
    exact .inl (.inl (.inl (.inr ⟨trivial, husage⟩)))
  obtain ⟨mint', hmem⟩ := Outlet.exists_mem_inTurn hseen mint
  exact ⟨_, hmem, rfl, rfl⟩

/-- A growth that is no more than all processors can give is no more than one hundred percent. -/
theorem percentage_le {growth capacity : Rat} (hpositive : Quantity.isPositive capacity)
    (hle : growth ≤ capacity) : growth / capacity * Quantity.hundred ≤ 100 := by
  have hnot : ¬ capacity ≤ 0 := by
    have := (Bool.and_eq_true_iff.mp hpositive).2
    exact of_decide_eq_false ((Bool.not_eq_true' _).mp this)
  have hpos : 0 < capacity := Rat.not_le.mp hnot
  have hshare : growth / capacity ≤ 1 := by
    refine Rat.le_of_mul_le_mul_right ?_ hpos
    rw [Rat.div_mul_cancel (Ne.symm (Rat.ne_of_lt hpos)), Rat.one_mul]
    exact hle
  have hnonneg : (0 : Rat) ≤ Quantity.hundred := by decide
  calc growth / capacity * Quantity.hundred
      ≤ 1 * Quantity.hundred := Rat.mul_le_mul_of_nonneg_right hshare hnonneg
    _ = 100 := Rat.one_mul _

/-- If the processor time could be read at the last report, and the process has not used more since
than all processors could give, usage is at most one hundred. -/
theorem usage_le_hundred {past : List Occasion} {last c : Occasion} {used before : Duration}
    {value : Rat} (hlast : past.getLast? = some last) (hbefore : last.used? = some before)
    (hused : c.used? = some used)
    (hlimit : used.nanos
      ≤ before.nanos + (c.readings.now.since last.readings.now).nanos * c.processors)
    (husage : usage past c = some value) : value ≤ 100 := by
  obtain ⟨earlier, rfl⟩ := List.getLast?_eq_some_iff.mp hlast
  obtain ⟨used', before', reported, hused', hbefore', hreported, hpositive, rfl⟩ :=
    usage_eq_some_iff.mp husage
  obtain rfl : used' = used := Option.some.inj (hused'.symm.trans hused)
  obtain rfl : before' = before := by
    rw [lastUsed_concat, hbefore] at hbefore'
    exact (Option.some.inj hbefore').symm
  obtain rfl : reported = last.readings.now := by
    rw [lastReported, hlast] at hreported
    exact (Option.some.inj hreported).symm
  refine percentage_le hpositive ?_
  show ((used'.nanos : Int) : Rat) - ((before'.nanos : Int) : Rat)
    ≤ (((c.readings.now.since last.readings.now).nanos : Int) : Rat) * ((c.processors : Int) : Rat)
  rw [← Rat.intCast_sub, ← Rat.intCast_mul, Rat.intCast_le_intCast]
  omega

/-- Whatever could be read so far, a report queues a usage just if there is one: the growth since the
processor time was last read, as a share of what all processors could have given since the last
report. That is the share since the processor time was last read if it could be read at the last
report. -/
theorem usage_covers (o : Outlet) (past : List Occasion) (c : Occasion) :
    ∃ p' o' records, (after α o past).report c.outlet c.moment c.processors c.readings
        = (records.length, p', o') ∧
      Outlet.Queued c.moment.now records c.outlet o' ∧
      (∀ record ∈ records, record.name = "CPU usage" →
        record.measurement.map MeasurementRecord.value = (usage past c : Option α)) ∧
      (∀ value : α, usage past c = some value → ∃ record ∈ records, record.name = "CPU usage" ∧
        record.measurement.map MeasurementRecord.value = some value) ∧
      ∀ last, past.getLast? = some last → last.used?.isSome →
        (usage past c : Option α) = fairUsage past c := by
  obtain ⟨p', o', hreport, hqueued⟩ := report_queued α o past c
  refine ⟨p', o', _, ?_, hqueued, fun record => measured_usage,
    fun value husage => exists_measured_usage husage o c.outlet.mint,
    fun last hlast hread => usage_eq_fairUsage hlast hread c⟩
  rw [hreport, pictures, Outlet.length_inTurn]

/-- A report of a process on one processor, some seconds after the start. No memory can be read. -/
def minutely (o : Outlet) (seconds : Nat) (cpuTime : Reading Duration) : Occasion :=
  { outlet := o, moment := { now := ⟨0⟩, draw := fun _ => 0 }, processors := 1
    readings :=
      { now := Instant.start.plus (.ofSeconds seconds), cpuTime, maxResident := .error "unknown"
        currentResident := .error "unknown", virtualSize := .error "unknown" } }

/-- A process that is busy all the time shows a usage of two hundred percent on its only processor
after a reading that failed, though it used no more than all of it. -/
theorem usage_outruns (o : Outlet) :
    let past := [minutely o 0 (.ok (.ofSeconds 0)), minutely o 60 (.error "unknown")]
    let c := minutely o 120 (.ok (.ofSeconds 120))
    (usage past c : Option Rat) = some 200 ∧ (fairUsage past c : Option Rat) = some 100 ∧
      ∃ record ∈ pictures c.window c.moment o.mint (observations Rat o past c),
        record.name = "CPU usage" ∧
          record.measurement.map MeasurementRecord.value = some 200 := by
  intro past c
  have hgrowth : growth past c
      = some (Quantity.ofInt (Duration.ofSeconds 120).nanos
          - Quantity.ofInt (Duration.ofSeconds 0).nanos : Rat) := rfl
  have hreported : (lastReported past).map c.readings.now.since
      = some ((Instant.start.plus (.ofSeconds 120)).since (Instant.start.plus (.ofSeconds 60))) :=
    rfl
  have hread : ((lastRead past).map fun last => c.readings.now.since last.readings.now)
      = some ((Instant.start.plus (.ofSeconds 120)).since (Instant.start.plus (.ofSeconds 0))) :=
    rfl
  have husage : (usage past c : Option Rat) = some 200 := by
    rw [usage, hgrowth, hreported, show c.processors = 1 from rfl]
    decide +kernel
  have hfair : (fairUsage past c : Option Rat) = some 100 := by
    rw [fairUsage, hgrowth, hread, show c.processors = 1 from rfl]
    decide +kernel
  exact ⟨husage, hfair, exists_measured_usage husage o o.mint⟩

end ProcessUsage

end Telemetry
